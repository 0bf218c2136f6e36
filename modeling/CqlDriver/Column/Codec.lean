import CqlDriver.Column.Collections

/-!
# Column types of any depth, and rows of them

The templates are applied to each other: a nullable, a list or the values of a map may be of
any column type. A row is one value for each of a list of types. Tuples, user defined types
and the rows of a result are rows; they differ in what is done when the bytes are used up.

A nullable that is not null and holds a nullable that is null is encoded as null, and the
null that is decoded is the outer one. The round trip is about the other values.

## Main definitions

* `ValueType` — with `ValueType.Value`, `ValueType.column` and `ValueType.Same`
* `ValueType.Kept` — the values in which no null is hidden
* `Row`, `Tuple.decodeBody`, `UDT.decodeBody`, `ResultSet.fill`

## Main results

* `ValueType.roundTrip` — every column type round trips
* `columnCodec` — and so do tuples, the first fields of user defined types, and rows
* `not_roundTrip_hiddenNull` — a null that is hidden is lost
-/

namespace CqlDriver

open Math (Decode Cursor)

/-! ## The column types -/

/-- The types of column values. The elements of sets and the keys of maps are hashed. -/
inductive ValueType
  | scalar (scalar : Scalar)
  | nullable (type : ValueType)
  | list (element : ValueType)
  | set (element : Scalar)
  | map (key : Scalar) (value : ValueType)
  deriving DecidableEq, Repr

namespace ValueType

/-- The values of the objects of a type. -/
abbrev Value : ValueType → Type
  | scalar s => s.Value
  | nullable type => Nullable type.Value
  | list element => List element.Value
  | set element => UnorderedSet element.Value
  | map key value => UnorderedMap key.Value value.Value

/-- The class of a type. -/
def column (order : IterationOrder) : (type : ValueType) → ColumnClass type.Value
  | scalar s => s.column
  | nullable type => Nullable.column (type.column order)
  | list element => ListBase.column (element.column order)
  | set element => SetBase.column order element.column
  | map key value => MapBase.column order key.column (value.column order)

/-- The objects hold the same value. -/
def Same : (type : ValueType) → type.Value → type.Value → Prop
  | scalar _ => Eq
  | nullable type => Nullable.Same type.Same
  | list element => List.Forall₂ element.Same
  | set _ => UnorderedSet.Same
  | map _ value => UnorderedMap.Same value.Same

/-- The object is null. -/
def IsNull : (type : ValueType) → type.Value → Prop
  | nullable _, value => value.isNull = true
  | scalar _, _ | list _, _ | set _, _ | map _ _, _ => False

/-- At no depth does a nullable that is not null hold one that is null. -/
def Kept : (type : ValueType) → type.Value → Prop
  | nullable type, value =>
    value.isNull = true ∨ (¬ type.IsNull value.value ∧ type.Kept value.value)
  | list element, value => ∀ item ∈ value, element.Kept item
  | map _ type, value => ∀ entry ∈ value.entries, type.Kept entry.2
  | scalar _, _ | set _, _ => True

variable {order : IterationOrder}

/-- Every column type round trips, and so do the bodies of the values that have one. -/
theorem roundTrips (type : ValueType) :
    (type.column order).BodyRoundTrip (fun value => ¬ type.IsNull value ∧ type.Kept value)
        type.Same ∧
      (type.column order).RoundTrip type.Kept type.Same := by
  induction type with
  | scalar s =>
    have hbody := s.bodyRoundTrip
    exact ⟨hbody.mono fun _ _ => trivial, hbody.roundTrip s.column_isPlain⟩
  | nullable type ih =>
    obtain ⟨hbody, hround⟩ := ih
    refine ⟨(Nullable.bodyRoundTrip hbody).mono ?_, Nullable.roundTrip hbody hround⟩
    rintro value ⟨hnull, hkept⟩
    exact ⟨Bool.eq_false_iff.mpr hnull, hkept.resolve_left hnull⟩
  | list element ih =>
    have hbody := ListBase.bodyRoundTrip ih.2
    exact ⟨hbody.mono fun _ h => h.2, hbody.roundTrip ColumnTrait.column_isPlain⟩
  | set element =>
    have helement := element.bodyRoundTrip.roundTrip element.column_isPlain
    have hbody := SetBase.bodyRoundTrip order helement
    exact ⟨hbody.mono fun _ _ => trivial, hbody.roundTrip ColumnTrait.column_isPlain⟩
  | map key value ih =>
    have hkey := key.bodyRoundTrip.roundTrip key.column_isPlain
    have hbody := MapBase.bodyRoundTrip order hkey ih.2
    exact ⟨hbody.mono fun _ h => h.2, hbody.roundTrip ColumnTrait.column_isPlain⟩

/-- Every column type round trips. -/
theorem roundTrip (order : IterationOrder) (type : ValueType) :
    (type.column order).RoundTrip type.Kept type.Same :=
  type.roundTrips.2

end ValueType

/-! ## Rows -/

/-- One value for each of the types. -/
abbrev Row : List ValueType → Type
  | [] => Unit
  | type :: types => type.Value × Row types

namespace Row

/-- The rows hold the same values. -/
def Same : (types : List ValueType) → Row types → Row types → Prop
  | [], _, _ => True
  | type :: types, row, stored => type.Same row.1 stored.1 ∧ Same types row.2 stored.2

/-- No value of the row hides a null. -/
def Kept : (types : List ValueType) → Row types → Prop
  | [], _ => True
  | type :: types, row => type.Kept row.1 ∧ Kept types row.2

/-- The size of each value can be written. -/
def Fits (order : IterationOrder) : (types : List ValueType) → Row types → Prop
  | [], _ => True
  | type :: types, row => (type.column order).Fits row.1 ∧ Fits order types row.2

/-- The values of the first types. -/
def take : (types : List ValueType) → (k : Nat) → Row types → Row (types.take k)
  | [], 0, _ | [], _ + 1, _ => ()
  | _ :: _, 0, _ => ()
  | _ :: types, k + 1, row => (row.1, take types k row.2)

/-- The values of the other types. -/
def drop : (types : List ValueType) → (k : Nat) → Row types → Row (types.drop k)
  | [], 0, _ | [], _ + 1, _ => ()
  | _ :: _, 0, row => row
  | _ :: types, k + 1, row => drop types k row.2

/-- Encode each value with its size. -/
def encode (order : IterationOrder) : (types : List ValueType) → Row types → Bytes → Bytes
  | [], _, data => data
  | type :: types, row, data => encode order types row.2 ((type.column order).encode row.1 data)

/-- Decode the first value of a row. -/
def onFirst {type : ValueType} {types : List ValueType} (m : Decoder type.Value Unit) :
    Decoder (Row (type :: types)) Unit :=
  Decode.on Prod.fst (fun item row => (item, row.2)) m

/-- Decode the other values of a row. -/
def onOthers {type : ValueType} {types : List ValueType} (m : Decoder (Row types) Unit) :
    Decoder (Row (type :: types)) Unit :=
  Decode.on Prod.snd (fun others row => (row.1, others)) m

/-- Decode each value with its size. -/
def decode (order : IterationOrder) : (types : List ValueType) → Decoder (Row types) Unit
  | [] => pure ()
  | type :: types => do
    onFirst (type.column order).decode
    onOthers (decode order types)

variable {order : IterationOrder} {type : ValueType} {types : List ValueType}

theorem onFirst_ok {m : Decoder type.Value Unit} {row : Row (type :: types)} {item : type.Value}
    {bytes rest : Bytes} (h : m ⟨row.1, bytes⟩ = .ok () ⟨item, rest⟩) :
    onFirst m ⟨row, bytes⟩ = .ok () ⟨(item, row.2), rest⟩ :=
  Decode.on_ok (c := ⟨row, bytes⟩) h

theorem onOthers_ok {m : Decoder (Row types) Unit} {row : Row (type :: types)} {others : Row types}
    {bytes rest : Bytes} (h : m ⟨row.2, bytes⟩ = .ok () ⟨others, rest⟩) :
    onOthers m ⟨row, bytes⟩ = .ok () ⟨(row.1, others), rest⟩ :=
  Decode.on_ok (c := ⟨row, bytes⟩) h

/-- Encoding appends. -/
theorem encode_eq (row : Row types) (data : Bytes) :
    encode order types row data = data ++ encode order types row [] := by
  induction types generalizing data with
  | nil => exact (List.append_nil data).symm
  | cons type types ih =>
    have hfirst := (type.roundTrip order).encode_eq row.1 data
    rw [encode, encode, ih, hfirst, ih row.2 ((type.column order).encode row.1 []),
      List.append_assoc, ColumnClass.encoded]

theorem encode_cons (row : Row (type :: types)) :
    encode order (type :: types) row [] =
      (type.column order).encoded row.1 ++ encode order types row.2 [] := by
  rw [encode, encode_eq, ColumnClass.encoded]

/-- The values of a row that fits fit. -/
theorem fits_of_lt (row : Row types) (hlt : (encode order types row []).length < 2 ^ 31) :
    Fits order types row := by
  induction types with
  | nil => trivial
  | cons type types ih =>
    rw [encode_cons, List.length_append] at hlt
    exact ⟨(type.roundTrip order).fits_of_le (Nat.le_add_right _ _) hlt, ih row.2 (by omega)⟩

/-- A row round trips, and what is behind it is left. -/
theorem decode_encode (row : Row types) (hkept : Kept types row) (hfits : Fits order types row)
    (old : Row types) (rest : Bytes) :
    ∃ stored, decode order types ⟨old, encode order types row [] ++ rest⟩ = .ok () ⟨stored, rest⟩ ∧
      Same types row stored := by
  induction types with
  | nil => exact ⟨old, rfl, trivial⟩
  | cons type types ih =>
    obtain ⟨item, hitem, hsame⟩ := (type.roundTrip order).decode_encoded row.1 hkept.1 hfits.1 old.1
      (encode order types row.2 [] ++ rest)
    obtain ⟨others, hothers, hsames⟩ := ih row.2 hkept.2 hfits.2 old.2
    refine ⟨(item, others), ?_, hsame, hsames⟩
    rw [encode_cons, List.append_assoc, decode, Decode.bind_ok (onFirst_ok hitem)]
    exact onOthers_ok hothers

end Row

namespace Tuple

/-- Reset to initial state. -/
def reset (order : IterationOrder) : (types : List ValueType) → Row types → Row types
  | [], _ => ()
  | type :: types, row => ((type.column order).reset row.1, reset order types row.2)

def encodeBody (order : IterationOrder) (types : List ValueType) : Row types → Bytes → Bytes :=
  Row.encode order types

def decodeBody (order : IterationOrder) (types : List ValueType) : Decoder (Row types) Unit :=
  Row.decode order types

end Tuple

namespace UDT

/-- It is allowed to have less values than the type has fields. -/
def decodeBody (order : IterationOrder) : (types : List ValueType) → Decoder (Row types) Unit
  | [] => pure ()
  | type :: types => do
    let body ← Decode.remaining
    if 0 < body.length then
      Row.onFirst (type.column order).decode
    else
      Row.onFirst (Decode.update (type.column order).reset)
    Row.onOthers (decodeBody order types)

variable {order : IterationOrder} {types : List ValueType}

/-- When nothing is left the fields are reset. -/
theorem decodeBody_nil (row : Row types) :
    decodeBody order types ⟨row, []⟩ = .ok () ⟨Tuple.reset order types row, []⟩ := by
  induction types with
  | nil => rfl
  | cons type types ih =>
    have hfirst : Row.onFirst (Decode.update (type.column order).reset) ⟨row, []⟩ =
        .ok () ⟨((type.column order).reset row.1, row.2), []⟩ :=
      Row.onFirst_ok rfl
    rw [decodeBody, Decode.bind_ok Decode.remaining_apply]
    simp only [List.length_nil, Nat.lt_irrefl, if_false]
    rw [Decode.bind_ok hfirst]
    exact Row.onOthers_ok (ih row.2)

/-- The first fields are stored, and the others are reset. -/
theorem decodeBody_take (k : Nat) (row : Row (types.take k)) (hkept : Row.Kept _ row)
    (hfits : Row.Fits order _ row) (old : Row types) :
    ∃ stored, decodeBody order types ⟨old, Row.encode order _ row []⟩ = .ok () ⟨stored, []⟩ ∧
      Row.Same _ row (Row.take types k stored) ∧
      Row.drop types k stored = Tuple.reset order _ (Row.drop types k old) := by
  induction types generalizing k with
  | nil =>
    cases k with
    | zero => exact ⟨old, rfl, trivial, rfl⟩
    | succ k => exact ⟨old, rfl, trivial, rfl⟩
  | cons type types ih =>
    cases k with
    | zero => exact ⟨_, decodeBody_nil old, trivial, rfl⟩
    | succ k =>
      obtain ⟨item, hitem, hsame⟩ := (type.roundTrip order).decode_encoded row.1 hkept.1 hfits.1
        old.1 (Row.encode order _ row.2 [])
      obtain ⟨others, hothers, hsames, hreset⟩ := ih k row.2 hkept.2 hfits.2 old.2
      -- a field takes at least the bytes of its size
      have hpos : 0 < ((type.column order).encoded row.1 ++ Row.encode order _ row.2 []).length := by
        have hfour := (type.roundTrip order).four_le row.1
        rw [List.length_append]
        omega
      refine ⟨(item, others), ?_, ⟨hsame, hsames⟩, hreset⟩
      have hencode : Row.encode order ((type :: types).take (k + 1)) row [] =
          (type.column order).encoded row.1 ++ Row.encode order (types.take k) row.2 [] :=
        @Row.encode_cons order type (types.take k) row
      rw [hencode, decodeBody, Decode.bind_ok Decode.remaining_apply]
      simp only [if_pos hpos]
      rw [Decode.bind_ok (Row.onFirst_ok hitem)]
      exact Row.onOthers_ok hothers

end UDT

namespace ResultSet

/-- Fill the values with the types, from the decode pointer on. -/
def fill (order : IterationOrder) (types : List ValueType) : Decoder (Row types) Unit :=
  Row.decode order types

/-- Fill objects one after the other, and collect what they hold then. -/
def fillAll {σ : Type} (order : IterationOrder) (types : List ValueType) :
    List (Row types) → Decoder σ (List (Row types))
  | [] => pure []
  | target :: targets => do
    let row ← Decode.onLocal target (fill order types)
    let rows ← fillAll order types targets
    return row :: rows

variable {order : IterationOrder} {types : List ValueType}

/-- Filling one object for each of the rows stores the rows in order and uses up the bytes. -/
theorem fillAll_encode {σ : Type} {x : σ} (rows targets : List (Row types))
    (hlength : targets.length = rows.length)
    (hrows : ∀ row ∈ rows, Row.Kept types row ∧ Row.Fits order types row) :
    ∃ stored, fillAll order types targets
        ⟨x, rows.flatMap fun row => Row.encode order types row []⟩ = .ok stored ⟨x, []⟩ ∧
      List.Forall₂ (Row.Same types) rows stored := by
  induction rows generalizing targets with
  | nil =>
    obtain rfl := List.length_eq_zero_iff.mp hlength
    exact ⟨[], rfl, .nil⟩
  | cons row rows ih =>
    cases targets with
    | nil => cases hlength
    | cons target targets =>
      obtain ⟨hkept, hfits⟩ := hrows row List.mem_cons_self
      obtain ⟨first, hfirst, hsame⟩ := Row.decode_encode row hkept hfits target
        (rows.flatMap fun row => Row.encode order types row [])
      obtain ⟨stored, hstored, hall⟩ := ih targets (Nat.succ.inj hlength)
        fun other hother => hrows other (List.mem_cons_of_mem _ hother)
      refine ⟨first :: stored, ?_, .cons hsame hall⟩
      have hlocal := Decode.onLocal_ok (c := ⟨x, _⟩) hfirst
      rw [List.flatMap_cons, fillAll, fill, Decode.bind_ok hlocal, Decode.bind_ok hstored]
      rfl

end ResultSet

/-! ## The codec -/

/-- What decoding stores and leaves, for every type and whatever the objects held. -/
structure ColumnCodec (order : IterationOrder) : Prop where
  /-- A value is stored, and what is behind it is left. -/
  column : ∀ (type : ValueType) (value : type.Value), type.Kept value →
    (type.column order).Fits value → ∀ (data rest : Bytes) (old : type.Value),
      ∃ encoded stored, (type.column order).encode value data = data ++ encoded ∧
        (type.column order).decode ⟨old, encoded ++ rest⟩ = .ok () ⟨stored, rest⟩ ∧
        type.Same value stored
  /-- The body of a tuple stores its elements. -/
  tuple : ∀ (types : List ValueType) (row : Row types), Row.Kept types row →
    (Tuple.encodeBody order types row []).length < 2 ^ 31 → ∀ (data : Bytes) (old : Row types),
      ∃ body stored, Tuple.encodeBody order types row data = data ++ body ∧
        Tuple.decodeBody order types ⟨old, body⟩ = .ok () ⟨stored, []⟩ ∧ Row.Same types row stored
  /-- The body of a user defined type that holds only the first fields stores them, and
  resets the others. -/
  udt : ∀ (types : List ValueType) (k : Nat) (row : Row (types.take k)), Row.Kept _ row →
    (Tuple.encodeBody order _ row []).length < 2 ^ 31 → ∀ old : Row types,
      ∃ stored, UDT.decodeBody order types ⟨old, Tuple.encodeBody order _ row []⟩ =
          .ok () ⟨stored, []⟩ ∧
        Row.Same _ row (Row.take types k stored) ∧
        Row.drop types k stored = Tuple.reset order _ (Row.drop types k old)
  /-- Filling an object for each of the rows that were put one after the other stores the
  rows in order, and finishes at the decode end. -/
  fill : ∀ (types : List ValueType) (rows targets : List (Row types)),
    targets.length = rows.length →
    (∀ row ∈ rows, Row.Kept types row ∧ Row.Fits order types row) →
      ∃ stored, ResultSet.fillAll order types targets
          (⟨(), rows.flatMap fun row => Row.encode order types row []⟩ : Cursor Unit) =
            .ok stored ⟨(), []⟩ ∧
        List.Forall₂ (Row.Same types) rows stored

/-- The codec is right, in whatever order the containers iterate. -/
theorem columnCodec (order : IterationOrder) : ColumnCodec order where
  column type value hkept hfits data rest old := by
    obtain ⟨stored, hstored, hsame⟩ :=
      (type.roundTrip order).decode_encoded value hkept hfits old rest
    exact ⟨_, stored, (type.roundTrip order).encode_eq value data, hstored, hsame⟩
  tuple types row hkept hlt data old := by
    obtain ⟨stored, hstored, hsame⟩ :=
      Row.decode_encode row hkept (Row.fits_of_lt row hlt) old []
    rw [List.append_nil] at hstored
    exact ⟨_, stored, Row.encode_eq row data, hstored, hsame⟩
  udt types k row hkept hlt old :=
    UDT.decodeBody_take k row hkept (Row.fits_of_lt row hlt) old
  fill types rows targets hlength hrows :=
    ResultSet.fillAll_encode rows targets hlength hrows

/-- A null inside a nullable that is not null is lost. -/
theorem not_roundTrip_hiddenNull : ¬ ∀ (type : ValueType) (value old : type.Value) (rest : Bytes),
    (type.column .append).Fits value →
      ∃ stored, (type.column .append).decode ⟨old, (type.column .append).encoded value ++ rest⟩ =
          .ok () ⟨stored, rest⟩ ∧ type.Same value stored := by
  intro hall
  let type := ValueType.nullable (.nullable (.scalar .int))
  let value : type.Value := ⟨⟨0, true⟩, false⟩
  obtain ⟨stored, hstored, hsame⟩ := hall type value value [] (by decide)
  -- the outer object is reset
  have hdecode : (type.column .append).decode
      ⟨value, (type.column .append).encoded value ++ []⟩ = .ok () ⟨⟨⟨0, true⟩, true⟩, []⟩ := by
    rfl
  rw [hdecode] at hstored
  cases hstored
  exact absurd hsame.1 (by decide)

end CqlDriver
