import CqlDriver.Column.Scalars

/-!
# Nullable values, lists, sets and maps

`Nullable` keeps a value next to its null flag, and `ColumnTrait` writes a size of minus
one for null and no body. The body of a list, a set or a map is the number of its
elements and each of them with its size. Decoding clears the container first, so nothing
of its old contents is left.

The iteration order of an unordered container is not specified, and inserting an element
may change it. A container is the list of its elements in its iteration order, and the
order after an insertion is a parameter.

## Main definitions

* `Nullable`, `UnorderedSet`, `UnorderedMap` — with when two of them are the same value
* `IterationOrder` — the order after an insertion
* `Nullable.column`, `ListBase.column`, `SetBase.column`, `MapBase.column`

## Main results

* `Nullable.roundTrip`, `ListBase.bodyRoundTrip`, `SetBase.bodyRoundTrip`,
  `MapBase.bodyRoundTrip` — each template keeps round trips
-/

namespace CqlDriver

open Math (Decode Cursor bigEndian)

/-! ## Nullable values -/

/-- Wrapper class that is able to represent a null value. -/
structure Nullable (α : Type) where
  value : α
  isNull : Bool
  deriving DecidableEq, Repr

namespace Nullable

variable {α : Type} {c : ColumnClass α} {kept kept' : α → Prop} {same same' : α → α → Prop}

/-- Both are null, or both hold the same value. -/
def Same (same : α → α → Prop) (v w : Nullable α) : Prop :=
  v.isNull = w.isNull ∧ (v.isNull = false → same v.value w.value)

def reset (c : ColumnClass α) (nullable : Nullable α) : Nullable α :=
  ⟨c.reset nullable.value, true⟩

def encodeBody (c : ColumnClass α) (nullable : Nullable α) (data : Bytes) : Bytes :=
  if nullable.isNull then data else c.encodeBody nullable.value data

/-- A pointer and a size that is not negative. -/
def decodeBody (c : ColumnClass α) : Decoder (Nullable α) Unit := do
  Decode.on Nullable.value (fun value nullable => { nullable with value }) c.decodeBody
  Decode.update fun nullable => { nullable with isNull := false }

/-- Encode to binary data with size information. -/
def encode (c : ColumnClass α) (nullable : Nullable α) (data : Bytes) : Bytes :=
  if nullable.isNull then data ++ ProtocolInt.encode (-1) else c.encode nullable.value data

/-- The size is negative. -/
def decodeNull (c : ColumnClass α) : Decoder (Nullable α) Unit := fun cursor =>
  .ok () ⟨reset c cursor.object, cursor.rest.drop 4⟩

/-- A nullable class, with the specialisation of `ColumnTrait` for it. -/
def column (c : ColumnClass α) : ColumnClass (Nullable α) where
  init := ⟨c.init, true⟩
  reset := reset c
  encodeBody := encodeBody c
  decodeBody := decodeBody c
  encode := encode c
  decode := ColumnTrait.decodeSized (decodeBody c) (decodeNull c)

theorem encoded_null {nullable : Nullable α} (h : nullable.isNull = true) :
    (column c).encoded nullable = ProtocolInt.encode (-1) := by
  show encode c nullable [] = _
  rw [encode, if_pos h, List.nil_append]

theorem encoded_value {nullable : Nullable α} (h : nullable.isNull = false) :
    (column c).encoded nullable = c.encoded nullable.value := by
  show encode c nullable [] = _
  rw [encode, if_neg (Bool.eq_false_iff.mp h), ColumnClass.encoded]

/-- A value that is not null is encoded like the value it holds. -/
theorem bodyRoundTrip (h : c.BodyRoundTrip kept same) :
    (column c).BodyRoundTrip (fun nullable => nullable.isNull = false ∧ kept nullable.value)
      (Same same) where
  encodeBody_eq nullable data := by
    show encodeBody c nullable data = data ++ encodeBody c nullable []
    by_cases hnull : nullable.isNull
    · simp only [encodeBody, if_pos hnull, List.append_nil]
    · simp only [encodeBody, if_neg hnull]
      exact h.encodeBody_eq nullable.value data
  encode_eq nullable := by
    rintro ⟨hnull, hkept⟩
    funext data
    show encode c nullable data = ColumnTrait.encode (fun data => encodeBody c nullable data) data
    simp only [encode, encodeBody, hnull, Bool.false_eq_true, if_false, h.encode_eq _ hkept]
  decodeBody_encodeBody nullable := by
    rintro ⟨hnull, hkept⟩ hlt old
    have hbody : (column c).encodeBody nullable [] = c.encodeBody nullable.value [] :=
      if_neg (Bool.eq_false_iff.mp hnull)
    rw [hbody] at hlt ⊢
    obtain ⟨stored, left, hdecode, hsame⟩ :=
      h.decodeBody_encodeBody nullable.value hkept hlt old.value
    have hvalue : Decode.on Nullable.value (fun value nullable => { nullable with value })
        c.decodeBody ⟨old, c.encodeBody nullable.value []⟩ =
          .ok () ⟨{ old with value := stored }, left⟩ := by
      simp only [Decode.on, hdecode]
    refine ⟨⟨stored, false⟩, left, ?_, hnull, fun _ => hsame⟩
    show decodeBody c _ = _
    rw [decodeBody, Decode.bind_ok hvalue]
    rfl

/-- A nullable value round trips if it is null, or if the value it holds is not null. -/
theorem roundTrip (h : c.BodyRoundTrip kept same) (hround : c.RoundTrip kept' same') :
    (column c).RoundTrip (fun nullable => nullable.isNull = true ∨ kept nullable.value)
      (Same same) where
  encode_eq nullable data := by
    show encode c nullable data = _
    cases hnull : nullable.isNull with
    | true => rw [encoded_null hnull, encode, if_pos hnull]
    | false =>
      rw [encoded_value hnull, encode, if_neg (Bool.eq_false_iff.mp hnull)]
      exact hround.encode_eq nullable.value data
  four_le nullable := by
    cases hnull : nullable.isNull with
    | true => rw [encoded_null hnull, ProtocolInt.encode, Math.length_bigEndian]
    | false =>
      rw [encoded_value hnull]
      exact hround.four_le nullable.value
  decode_encoded nullable hkept hfits old rest := by
    show ∃ stored, ColumnTrait.decodeSized (decodeBody c) (decodeNull c) _ = _ ∧ _
    cases hnull : nullable.isNull with
    | true =>
      have hdrop : (ProtocolInt.encode (-1) ++ rest).drop 4 = rest :=
        List.drop_left' (Math.length_bigEndian 4 _)
      refine ⟨reset c old, ?_, hnull, fun hfalse => ?_⟩
      · rw [encoded_null hnull, ColumnTrait.decodeSized_null]
        simp only [decodeNull, hdrop]
      · rw [hnull] at hfalse
        cases hfalse
    | false =>
      have hvalue : kept nullable.value := by simpa [hnull] using hkept
      have hlt := (bodyRoundTrip h).length_lt ⟨hnull, hvalue⟩ hfits
      obtain ⟨stored, left, hdecode, hsame⟩ :=
        (bodyRoundTrip h).decodeBody_encodeBody nullable ⟨hnull, hvalue⟩ hlt old
      refine ⟨stored, ?_, hsame⟩
      rw [(bodyRoundTrip h).encoded_eq ⟨hnull, hvalue⟩]
      exact ColumnTrait.decodeSized_append hlt hdecode

end Nullable

/-! ## Elements one after the other -/

namespace ColumnClass

variable {α : Type} {c : ColumnClass α} {same : α → α → Prop}

/-- Encode the elements of a container in order. -/
def encodeItems (encode : α → Bytes → Bytes) (items : List α) (data : Bytes) : Bytes :=
  items.foldl (fun data item => encode item data) data

/-- Encode the number of the elements as an `Int`, and then the elements. -/
def encodeSized (encode : α → Bytes → Bytes) (items : List α) (data : Bytes) : Bytes :=
  encodeItems encode items (IntegerBase.encodeBody (IntegerBase.ofNat 4 items.length) data)

/-- The number of elements, read into an `Int`. -/
def decodeSize {σ : Type} (notEnough negative : Failure) : Decoder σ Nat := do
  let bytes ← Math.take notEnough 4
  let size := (IntegerBase.ofBytes 4 bytes).toInt
  if size < 0 then
    throw negative
  return size.toNat

theorem encodeItems_eq {encode : α → Bytes → Bytes} {encoded : α → Bytes}
    (h : ∀ item data, encode item data = data ++ encoded item) (items : List α) (data : Bytes) :
    encodeItems encode items data = data ++ items.flatMap encoded := by
  induction items generalizing data with
  | nil => exact (List.append_nil data).symm
  | cons item items ih =>
    rw [encodeItems, List.foldl_cons, ← encodeItems, ih, h, List.flatMap_cons, List.append_assoc]

theorem encodeSized_eq {encode : α → Bytes → Bytes} {encoded : α → Bytes}
    (h : ∀ item data, encode item data = data ++ encoded item) (items : List α) (data : Bytes) :
    encodeSized encode items data =
      data ++ (IntegerBase.toBytes (IntegerBase.ofNat 4 items.length) ++ items.flatMap encoded) := by
  rw [encodeSized, encodeItems_eq h, IntegerBase.encodeBody, List.append_assoc]

/-- There are fewer elements than bytes, and each of them takes a part of the bytes. -/
theorem sized_lt {encoded : α → Bytes} {n : Nat} {items : List α} {size : Bytes}
    (h : ∀ item, 4 ≤ (encoded item).length) (hlt : (size ++ items.flatMap encoded).length < n) :
    items.length < n ∧ ∀ item ∈ items, (encoded item).length < n := by
  rw [List.length_append] at hlt
  have hcount : items.length ≤ (items.flatMap encoded).length := by
    clear hlt
    induction items with
    | nil => exact le_rfl
    | cons item items ih =>
      have hitem := h item
      rw [List.length_cons, List.flatMap_cons, List.length_append]
      omega
  refine ⟨by omega, fun item hitem => ?_⟩
  have hpart : (encoded item).length ≤ (items.flatMap encoded).length := by
    rw [List.flatMap_def]
    exact (List.sublist_flatten_of_mem (List.mem_map_of_mem hitem)).length_le
  omega

theorem decodeSize_append {σ : Type} {x : σ} {notEnough negative : Failure} {n : Nat} {rest : Bytes}
    (h : n < 2 ^ 31) :
    decodeSize notEnough negative
        (⟨x, IntegerBase.toBytes (IntegerBase.ofNat 4 n) ++ rest⟩ : Cursor σ) =
      .ok n ⟨x, rest⟩ := by
  have hint : (IntegerBase.ofNat 4 n).toInt = (n : Int) := by
    have hmod : n % 2 ^ (8 * 4) = n := Nat.mod_eq_of_lt (by omega)
    rw [IntegerBase.ofNat, BitVec.toInt_eq_toNat_cond, BitVec.toNat_ofNat, hmod, if_pos (by omega)]
  rw [decodeSize, Decode.bind_ok (Math.take_append (IntegerBase.length_toBytes _))]
  simp only [IntegerBase.ofBytes_toBytes]
  rw [hint, if_neg (Int.not_lt.mpr (Int.natCast_nonneg n))]
  rfl

end ColumnClass

/-! ## Lists -/

namespace ListBase

variable {α : Type} {c : ColumnClass α} {kept : α → Prop} {same : α → α → Prop}

def sizeNotEnough : Failure :=
  .exception (decodeException "length of list size not enough, element type is:")

def sizeNegative : Failure := .exception (decodeException "list size can't be negative:")

def encodeBody (c : ColumnClass α) (value : List α) (data : Bytes) : Bytes :=
  ColumnClass.encodeSized c.encode value data

/-- Append a default constructed element and decode it in place. -/
def decodeItem (c : ColumnClass α) : Decoder (List α) Unit := do
  Decode.update fun value => value ++ [c.init]
  Decode.on (fun value => value.getLastD c.init) (fun item value => value.dropLast ++ [item])
    c.decode

def decodeBody (c : ColumnClass α) : Decoder (List α) Unit := do
  let listSize ← ColumnClass.decodeSize sizeNotEnough sizeNegative
  Decode.update fun _ => []
  Decode.times (decodeItem c) listSize

def column (c : ColumnClass α) : ColumnClass (List α) :=
  ColumnTrait.column [] (fun _ => []) (encodeBody c) (decodeBody c)

theorem decodeItem_append (h : c.RoundTrip kept same) {item : α} (hkept : kept item)
    (hfits : c.Fits item) (done : List α) (rest : Bytes) : ∃ stored, decodeItem c ⟨done, c.encoded item ++ rest⟩ =
      .ok () ⟨done ++ [stored], rest⟩ ∧ same item stored := by
  obtain ⟨stored, hdecode, hsame⟩ := h.decode_encoded item hkept hfits c.init rest
  refine ⟨stored, ?_, hsame⟩
  rw [decodeItem, Decode.bind_ok (Decode.update_apply _)]
  simp only [Decode.on, List.getLastD_concat, hdecode, List.dropLast_concat]

/-- The elements that are left are appended to those that are done. -/
theorem decodeItems_append (h : c.RoundTrip kept same) {value : List α}
    (hkept : ∀ item ∈ value, kept item) (hfits : ∀ item ∈ value, c.Fits item) (done : List α) (rest : Bytes) :
    ∃ stored, Decode.times (decodeItem c) value.length ⟨done, value.flatMap c.encoded ++ rest⟩ =
      .ok () ⟨done ++ stored, rest⟩ ∧ List.Forall₂ same value stored := by
  induction value generalizing done with
  | nil => exact ⟨[], by rw [List.append_nil]; rfl, .nil⟩
  | cons item value ih =>
    obtain ⟨first, hfirst, hsame⟩ := decodeItem_append h (hkept item List.mem_cons_self)
      (hfits item List.mem_cons_self) done (value.flatMap c.encoded ++ rest)
    obtain ⟨stored, hstored, hall⟩ :=
      ih (fun other hother => hkept other (List.mem_cons_of_mem _ hother))
        (fun other hother => hfits other (List.mem_cons_of_mem _ hother)) (done ++ [first])
    refine ⟨first :: stored, ?_, .cons hsame hall⟩
    rw [List.length_cons, Decode.times, List.flatMap_cons, List.append_assoc,
      Decode.bind_ok hfirst, hstored, List.append_assoc, List.singleton_append]

/-- A list round trips over elements that do. -/
theorem bodyRoundTrip (h : c.RoundTrip kept same) :
    (column c).BodyRoundTrip (fun value => ∀ item ∈ value, kept item) (List.Forall₂ same) where
  encode_eq _ _ := rfl
  encodeBody_eq value data := by
    show encodeBody c value data = data ++ encodeBody c value []
    rw [encodeBody, encodeBody, ColumnClass.encodeSized_eq h.encode_eq,
      ColumnClass.encodeSized_eq h.encode_eq, List.nil_append]
  decodeBody_encodeBody value hkept hlt old := by
    have hbody : (column c).encodeBody value [] =
        IntegerBase.toBytes (IntegerBase.ofNat 4 value.length) ++ value.flatMap c.encoded :=
      ColumnClass.encodeSized_eq h.encode_eq value []
    rw [hbody] at hlt
    obtain ⟨hcount, hitems⟩ := ColumnClass.sized_lt h.four_le hlt
    have hfits : ∀ item ∈ value, c.Fits item := fun item hitem =>
      h.fits_of_le le_rfl (hitems item hitem)
    obtain ⟨stored, hstored, hall⟩ := decodeItems_append h hkept hfits [] []
    refine ⟨stored, [], ?_, hall⟩
    rw [List.append_nil, List.nil_append] at hstored
    rw [hbody]
    show decodeBody c _ = _
    rw [decodeBody, Decode.bind_ok (ColumnClass.decodeSize_append hcount),
      Decode.bind_ok (Decode.update_apply _)]
    exact hstored

end ListBase

/-! ## Unordered containers -/

/-- The iteration order of an unordered container after an insertion, which is not
specified. -/
structure IterationOrder where
  insert : {α : Type} → α → List α → List α
  perm : ∀ {α : Type} (item : α) (items : List α), (insert item items).Perm (item :: items)

/-- The order of insertion. -/
def IterationOrder.append : IterationOrder where
  insert item items := items ++ [item]
  perm item items := List.perm_append_singleton item items

/-- A set, in its iteration order. -/
structure UnorderedSet (α : Type) where
  items : List α
  nodup : items.Nodup

namespace UnorderedSet

variable {α : Type}

/-- The sets have the same elements. -/
def Same (s t : UnorderedSet α) : Prop := s.items.Perm t.items

def empty : UnorderedSet α := ⟨[], .nil⟩

/-- `value_.emplace(item)`. -/
def emplace [DecidableEq α] (order : IterationOrder) (s : UnorderedSet α) (item : α) :
    UnorderedSet α :=
  if h : item ∈ s.items then s
  else ⟨order.insert item s.items, (order.perm item s.items).nodup_iff.mpr
    (List.nodup_cons.mpr ⟨h, s.nodup⟩)⟩

theorem emplace_perm [DecidableEq α] (order : IterationOrder) {s : UnorderedSet α} {item : α}
    (h : item ∉ s.items) : (s.emplace order item).items.Perm (item :: s.items) := by
  rw [emplace, dif_neg h]
  exact order.perm item s.items

end UnorderedSet

/-- A map, in its iteration order. -/
structure UnorderedMap (κ ν : Type) where
  entries : List (κ × ν)
  nodup : (entries.map Prod.fst).Nodup

namespace UnorderedMap

variable {κ ν : Type} {same : ν → ν → Prop}

/-- The entries have the same key and the same value. -/
def SameEntry (same : ν → ν → Prop) (e f : κ × ν) : Prop := e.1 = f.1 ∧ same e.2 f.2

/-- The maps have the same keys, each with the same value. -/
def Same (same : ν → ν → Prop) (m n : UnorderedMap κ ν) : Prop :=
  ∃ entries, List.Forall₂ (SameEntry same) m.entries entries ∧ entries.Perm n.entries

def empty : UnorderedMap κ ν := ⟨[], .nil⟩

/-- `value_.emplace(key, value)`. -/
def emplace [DecidableEq κ] (order : IterationOrder) (m : UnorderedMap κ ν) (entry : κ × ν) :
    UnorderedMap κ ν :=
  if h : entry.1 ∈ m.entries.map Prod.fst then m
  else ⟨order.insert entry m.entries,
    ((order.perm entry m.entries).map Prod.fst).nodup_iff.mpr (List.nodup_cons.mpr ⟨h, m.nodup⟩)⟩

theorem emplace_perm [DecidableEq κ] (order : IterationOrder) {m : UnorderedMap κ ν} {entry : κ × ν}
    (h : entry.1 ∉ m.entries.map Prod.fst) :
    (m.emplace order entry).entries.Perm (entry :: m.entries) := by
  rw [emplace, dif_neg h]
  exact order.perm entry m.entries

end UnorderedMap

namespace SetBase

variable {α : Type} [DecidableEq α] {order : IterationOrder} {c : ColumnClass α}

def sizeNotEnough : Failure :=
  .exception (decodeException "length of set size not enough, element type is:")

def sizeNegative : Failure := .exception (decodeException "set size can't be negative:")

def encodeBody (c : ColumnClass α) (value : UnorderedSet α) (data : Bytes) : Bytes :=
  ColumnClass.encodeSized c.encode value.items data

/-- Decode a local element and insert it. -/
def decodeItem (order : IterationOrder) (c : ColumnClass α) : Decoder (UnorderedSet α) Unit := do
  let item ← Decode.onLocal c.init c.decode
  Decode.update fun value => value.emplace order item

def decodeBody (order : IterationOrder) (c : ColumnClass α) : Decoder (UnorderedSet α) Unit := do
  let setSize ← ColumnClass.decodeSize sizeNotEnough sizeNegative
  Decode.update fun _ => .empty
  Decode.times (decodeItem order c) setSize

def column (order : IterationOrder) (c : ColumnClass α) : ColumnClass (UnorderedSet α) :=
  ColumnTrait.column .empty (fun _ => .empty) (encodeBody c) (decodeBody order c)

/-- The elements that are left are inserted among those that are done. -/
theorem decodeItems_append (order : IterationOrder) (h : c.RoundTrip (fun _ => True) Eq) {items : List α}
    (hfits : ∀ item ∈ items, c.Fits item) (done : UnorderedSet α)
    (hnodup : (items ++ done.items).Nodup) (rest : Bytes) :
    ∃ stored, Decode.times (decodeItem order c) items.length
        ⟨done, items.flatMap c.encoded ++ rest⟩ = .ok () ⟨stored, rest⟩ ∧
      (items ++ done.items).Perm stored.items := by
  induction items generalizing done with
  | nil => exact ⟨done, rfl, .refl _⟩
  | cons item items ih =>
    obtain ⟨first, hfirst, rfl⟩ := h.decode_encoded item trivial (hfits item List.mem_cons_self) c.init
      (items.flatMap c.encoded ++ rest)
    have hfresh : item ∉ done.items := by
      have hnotMem := (List.nodup_cons.mp hnodup).1
      exact fun hmem => hnotMem (List.mem_append_right items hmem)
    have hperm := UnorderedSet.emplace_perm order hfresh
    have hmiddle : (items ++ (done.emplace order item).items).Perm
        (item :: items ++ done.items) := by
      exact (hperm.append_left items).trans List.perm_middle
    obtain ⟨stored, hstored, hall⟩ :=
      ih (fun other hother => hfits other (List.mem_cons_of_mem _ hother))
        (done.emplace order item) (hmiddle.nodup_iff.mpr hnodup)
    refine ⟨stored, ?_, hmiddle.symm.trans hall⟩
    have hround : decodeItem order c ⟨done, c.encoded item ++ (items.flatMap c.encoded ++ rest)⟩ =
        .ok () ⟨done.emplace order item, items.flatMap c.encoded ++ rest⟩ := by
      have hlocal := Decode.onLocal_ok (c := ⟨done, _⟩) hfirst
      rw [decodeItem, Decode.bind_ok hlocal]
      rfl
    rw [List.length_cons, Decode.times, List.flatMap_cons, List.append_assoc,
      Decode.bind_ok hround, hstored]

/-- A set round trips over elements that do. -/
theorem bodyRoundTrip (order : IterationOrder) (h : c.RoundTrip (fun _ => True) Eq) :
    (column order c).BodyRoundTrip (fun _ => True) UnorderedSet.Same where
  encode_eq _ _ := rfl
  encodeBody_eq value data := by
    show encodeBody c value data = data ++ encodeBody c value []
    rw [encodeBody, encodeBody, ColumnClass.encodeSized_eq h.encode_eq,
      ColumnClass.encodeSized_eq h.encode_eq, List.nil_append]
  decodeBody_encodeBody value _ hlt old := by
    have hbody : (column order c).encodeBody value [] =
        IntegerBase.toBytes (IntegerBase.ofNat 4 value.items.length) ++
          value.items.flatMap c.encoded :=
      ColumnClass.encodeSized_eq h.encode_eq value.items []
    rw [hbody] at hlt
    obtain ⟨hcount, hitems⟩ := ColumnClass.sized_lt h.four_le hlt
    have hfits : ∀ item ∈ value.items, c.Fits item := fun item hitem =>
      h.fits_of_le le_rfl (hitems item hitem)
    obtain ⟨stored, hstored, hperm⟩ := decodeItems_append order h hfits .empty
      (by rw [UnorderedSet.empty, List.append_nil]; exact value.nodup) []
    rw [UnorderedSet.empty, List.append_nil] at hperm
    rw [List.append_nil] at hstored
    refine ⟨stored, [], ?_, hperm⟩
    rw [hbody]
    show decodeBody order c _ = _
    rw [decodeBody, Decode.bind_ok (ColumnClass.decodeSize_append hcount),
      Decode.bind_ok (Decode.update_apply _)]
    exact hstored

end SetBase

namespace MapBase

variable {κ ν : Type} [DecidableEq κ] {order : IterationOrder} {k : ColumnClass κ}
  {v : ColumnClass ν} {kept : ν → Prop} {same : ν → ν → Prop}

def sizeNotEnough : Failure :=
  .exception (decodeException "length of map size not enough, element type is:")

def sizeNegative : Failure := .exception (decodeException "map size can't be negative:")

/-- A key and its value. -/
def encodeItem (k : ColumnClass κ) (v : ColumnClass ν) (entry : κ × ν) (data : Bytes) : Bytes :=
  v.encode entry.2 (k.encode entry.1 data)

def encodeBody (k : ColumnClass κ) (v : ColumnClass ν) (value : UnorderedMap κ ν) (data : Bytes) :
    Bytes :=
  ColumnClass.encodeSized (encodeItem k v) value.entries data

/-- Decode a local key and a local value and insert them. -/
def decodeItem (order : IterationOrder) (k : ColumnClass κ) (v : ColumnClass ν) :
    Decoder (UnorderedMap κ ν) Unit := do
  let key ← Decode.onLocal k.init k.decode
  let item ← Decode.onLocal v.init v.decode
  Decode.update fun value => value.emplace order (key, item)

def decodeBody (order : IterationOrder) (k : ColumnClass κ) (v : ColumnClass ν) :
    Decoder (UnorderedMap κ ν) Unit := do
  let mapSize ← ColumnClass.decodeSize sizeNotEnough sizeNegative
  Decode.update fun _ => .empty
  Decode.times (decodeItem order k v) mapSize

def column (order : IterationOrder) (k : ColumnClass κ) (v : ColumnClass ν) :
    ColumnClass (UnorderedMap κ ν) :=
  ColumnTrait.column .empty (fun _ => .empty) (encodeBody k v) (decodeBody order k v)

/-- The bytes of an entry. -/
def encoded (k : ColumnClass κ) (v : ColumnClass ν) (entry : κ × ν) : Bytes :=
  k.encoded entry.1 ++ v.encoded entry.2

omit [DecidableEq κ] in
theorem encodeItem_eq (hk : k.RoundTrip (fun _ => True) Eq) (hv : v.RoundTrip kept same)
    (entry : κ × ν) (data : Bytes) : encodeItem k v entry data = data ++ encoded k v entry := by
  rw [encodeItem, hv.encode_eq, hk.encode_eq, encoded, List.append_assoc]

/-- The entries that are left are inserted among those that are done. -/
theorem decodeItems_append (order : IterationOrder) (hk : k.RoundTrip (fun _ => True) Eq)
    (hv : v.RoundTrip kept same) {entries : List (κ × ν)}
    (hkept : ∀ entry ∈ entries, kept entry.2)
    (hfits : ∀ entry ∈ entries, k.Fits entry.1 ∧ v.Fits entry.2) (done : UnorderedMap κ ν)
    (hnodup : (entries.map Prod.fst ++ done.entries.map Prod.fst).Nodup) (rest : Bytes) :
    ∃ stored new, Decode.times (decodeItem order k v) entries.length
        ⟨done, entries.flatMap (encoded k v) ++ rest⟩ = .ok () ⟨stored, rest⟩ ∧
      List.Forall₂ (UnorderedMap.SameEntry same) entries new ∧
        (new ++ done.entries).Perm stored.entries := by
  induction entries generalizing done with
  | nil => exact ⟨done, [], rfl, .nil, .refl _⟩
  | cons entry entries ih =>
    obtain ⟨hkey, hvalue⟩ := hfits entry List.mem_cons_self
    obtain ⟨key, hdecodeKey, rfl⟩ := hk.decode_encoded entry.1 trivial hkey k.init
      (v.encoded entry.2 ++ (entries.flatMap (encoded k v) ++ rest))
    obtain ⟨item, hdecodeValue, hsame⟩ := hv.decode_encoded entry.2
      (hkept entry List.mem_cons_self) hvalue v.init
      (entries.flatMap (encoded k v) ++ rest)
    let added := done.emplace order (entry.1, item)
    have hfresh : entry.1 ∉ done.entries.map Prod.fst := by
      have hnotMem := (List.nodup_cons.mp hnodup).1
      exact fun hmem => hnotMem (List.mem_append_right _ hmem)
    have hperm : added.entries.Perm ((entry.1, item) :: done.entries) :=
      UnorderedMap.emplace_perm order hfresh
    have hkeys : (entries.map Prod.fst ++ added.entries.map Prod.fst).Nodup := by
      have hmiddle : (entries.map Prod.fst ++ added.entries.map Prod.fst).Perm
          (entry.1 :: (entries.map Prod.fst ++ done.entries.map Prod.fst)) :=
        ((hperm.map Prod.fst).append_left _).trans List.perm_middle
      exact hmiddle.nodup_iff.mpr hnodup
    obtain ⟨stored, new, hstored, hall, hnew⟩ :=
      ih (fun other hother => hkept other (List.mem_cons_of_mem _ hother))
        (fun other hother => hfits other (List.mem_cons_of_mem _ hother)) added hkeys
    refine ⟨stored, (entry.1, item) :: new, ?_, .cons ⟨rfl, hsame⟩ hall, ?_⟩
    · have hround : decodeItem order k v
          ⟨done, encoded k v entry ++ (entries.flatMap (encoded k v) ++ rest)⟩ =
            .ok () ⟨added, entries.flatMap (encoded k v) ++ rest⟩ := by
        have hlocalKey := Decode.onLocal_ok (c := ⟨done, _⟩) hdecodeKey
        have hlocalValue := Decode.onLocal_ok (c := ⟨done, _⟩) hdecodeValue
        rw [encoded, List.append_assoc, decodeItem, Decode.bind_ok hlocalKey,
          Decode.bind_ok hlocalValue]
        rfl
      rw [List.length_cons, Decode.times, List.flatMap_cons, List.append_assoc,
        Decode.bind_ok hround, hstored]
    · exact (List.perm_middle.symm.trans (hperm.symm.append_left new)).trans hnew

/-- A map round trips over keys and values that do. -/
theorem bodyRoundTrip (order : IterationOrder) (hk : k.RoundTrip (fun _ => True) Eq)
    (hv : v.RoundTrip kept same) :
    (column order k v).BodyRoundTrip (fun value => ∀ entry ∈ value.entries, kept entry.2)
      (UnorderedMap.Same same) where
  encode_eq _ _ := rfl
  encodeBody_eq value data := by
    show encodeBody k v value data = data ++ encodeBody k v value []
    rw [encodeBody, encodeBody, ColumnClass.encodeSized_eq (encodeItem_eq hk hv),
      ColumnClass.encodeSized_eq (encodeItem_eq hk hv), List.nil_append]
  decodeBody_encodeBody value hkept hlt old := by
    have hbody : (column order k v).encodeBody value [] =
        IntegerBase.toBytes (IntegerBase.ofNat 4 value.entries.length) ++
          value.entries.flatMap (encoded k v) :=
      ColumnClass.encodeSized_eq (encodeItem_eq hk hv) value.entries []
    rw [hbody] at hlt
    have hfour : ∀ entry, 4 ≤ (encoded k v entry).length := by
      intro entry
      rw [encoded, List.length_append]
      exact (hk.four_le entry.1).trans (Nat.le_add_right _ _)
    obtain ⟨hcount, hitems⟩ := ColumnClass.sized_lt hfour hlt
    have hfits : ∀ entry ∈ value.entries, k.Fits entry.1 ∧ v.Fits entry.2 := by
      intro entry hentry
      have hlength := hitems entry hentry
      rw [encoded, List.length_append] at hlength
      exact ⟨hk.fits_of_le (Nat.le_add_right _ _) hlength,
        hv.fits_of_le (Nat.le_add_left _ _) hlength⟩
    obtain ⟨stored, new, hstored, hall, hnew⟩ := decodeItems_append order hk hv hkept hfits
      .empty (by rw [UnorderedMap.empty, List.map_nil, List.append_nil]; exact value.nodup) []
    rw [UnorderedMap.empty, List.append_nil] at hnew
    rw [List.append_nil] at hstored
    refine ⟨stored, [], ?_, new, hall, hnew⟩
    rw [hbody]
    show decodeBody order k v _ = _
    rw [decodeBody, Decode.bind_ok (ColumnClass.decodeSize_append hcount),
      Decode.bind_ok (Decode.update_apply _)]
    exact hstored

end MapBase

end CqlDriver
