import CqlDriver.Protocol.Containers
import CqlDriver.Protocol.PrimitiveReading

/-!
# Containers that are used again

A list decodes into the elements that the last message has left, a map into a key and a
value that were just moved into it. Neither can be seen in what is decoded: an element
that is decoded in place is overwritten, the string and the state that says whether it is
null or not set.

Nothing is assumed about what a move leaves behind.

## Main definitions

* `SizedString` — a string with a state
* `ProtocolBytes.decodeObject`, `ProtocolValue.decodeObject` — decoding one in place
* `Overwrites` — elements whose old contents do not matter
* `ProtocolListBase.decodeFresh` — the elements one after the other
* `ProtocolMapBase.decodeMoved` — a map with a key and a value that are moved from
* `Rereads` — what is encoded is decoded, whatever the object was
* `ContainerCodecs` — what the lists and maps promise

## Main results

* `ProtocolListBase.related_decodeFresh` — decoding a list in place
* `ProtocolMapBase.related_decodeMoved` — decoding a map with used objects
* `ProtocolBytesMap.related_decodeMoved` — which is what the messages read
* `containerCodecs` — all lists and maps of the protocol
-/

namespace CqlDriver

open Math (Decode Cursor toSigned ofSigned)
open Math.Decode (Related ResultRelated)

/-! ## Strings with a state -/

/-- A string and its state. The states are values of an enumeration class, to which any
32-bit integer can be cast. -/
structure SizedString where
  value : Bytes
  state : Int
  deriving DecidableEq, Repr

namespace ProtocolSizedStringBase

/-- The states of [bytes] and [value]. -/
def NormalState : Int := 0

def NullState : Int := -1

def NotSetState : Int := -2

def encode (x : SizedString) : Encoded :=
  if x.state ≠ NormalState then .ok (ProtocolInt.encode x.state)
  else if 2 ^ 31 - 1 < x.value.length then .error lengthTooLong
  else .ok (ProtocolInt.encode x.value.length ++ x.value)

def decode : Decoder SizedString Unit := do
  let size ← ProtocolInt.decode
  if 0 ≤ size then
    let value ← Math.take lengthNotEnough size.toNat
    Decode.update fun _ => ⟨value, NormalState⟩
  else
    Decode.update fun _ => ⟨[], size⟩

end ProtocolSizedStringBase

open ProtocolSizedStringBase (NormalState NullState NotSetState)

/-- The states that a class has, and a string that is empty in all but the normal one:
every function that sets the state clears the string. -/
structure SizedString.Valid (states : List Int) (x : SizedString) : Prop where
  state : x.state ∈ states
  value : x.state ≠ NormalState → x.value = []
  length : x.value.length ≤ 2 ^ 31 - 1

/-- Decode a [bytes] in place. -/
def ProtocolBytes.decodeObject : Decoder SizedString Unit := do
  ProtocolSizedStringBase.decode
  let x ← Decode.object
  if x.state ≠ NormalState then
    -- the specification didn't said negative value other than -1 is invalid
    Decode.update fun x => { x with state := NullState }

/-- Decode a [value] in place. -/
def ProtocolValue.decodeObject : Decoder SizedString Unit := do
  ProtocolSizedStringBase.decode
  let x ← Decode.object
  if x.state ≠ NormalState ∧ x.state ≠ NullState ∧ x.state ≠ NotSetState then
    throw (.exception (decodeException "invalid negative string length"))

/-! ## What the object was before -/

variable {α κ ν χ σ τ : Type}

/-- The contents of the object before cannot be seen afterwards. -/
def Overwrites (m : Decoder α Unit) : Prop := Related (fun _ _ => True) (fun _ _ x y => x = y) m m

/-- What is encoded is decoded, and the suffix is left, whatever the object was before. -/
def Rereads (encode : χ → Encoded) (decode : Decoder χ Unit) (x : χ) : Prop :=
  ∃ encoded, encode x = .ok encoded ∧
    ∀ old rest, decode ⟨old, encoded ++ rest⟩ = .ok () ⟨x, rest⟩

theorem ProtocolString.overwrites_decodeInto : Overwrites ProtocolString.decodeInto :=
  related_string.read fun _ => .update fun _ _ _ => rfl

theorem ProtocolSizedStringBase.overwrites_decode : Overwrites decode := by
  apply related_int.read
  intro size
  apply Related.ite
  · intro _
    exact Decode.related_take.read fun _ => .update fun _ _ _ => rfl
  · intro _
    exact .update fun _ _ _ => rfl

/-- A step behind one that overwrites sees the same object. -/
theorem Overwrites.seq {m next : Decoder α Unit} (h : Overwrites m) :
    Overwrites (do m; next) :=
  Related.seq h ((Related.refl next).mono (fun _ _ hsame => hsame) fun _ _ _ _ hsame => hsame.2)

theorem ProtocolBytes.overwrites_decodeObject : Overwrites decodeObject :=
  ProtocolSizedStringBase.overwrites_decode.seq

theorem ProtocolValue.overwrites_decodeObject : Overwrites decodeObject :=
  ProtocolSizedStringBase.overwrites_decode.seq

/-- A local object may hold anything before. -/
theorem Overwrites.onLocal {m : Decoder α Unit} (h : Overwrites m) (start start' : α)
    {P : σ → τ → Prop} :
    Related P (fun a b x y => a = b ∧ P x y) (Decode.onLocal start m) (Decode.onLocal start' m) := by
  intro x y rest hP
  have hlocal := h start start' rest trivial
  rw [Decode.onLocal, Decode.onLocal]
  generalize m ⟨start, rest⟩ = r at hlocal
  generalize m ⟨start', rest⟩ = s at hlocal
  cases hlocal with
  | ok returned => exact .ok ⟨returned, hP⟩
  | error => exact .error

theorem Rereads.decode_eq {encode : χ → Encoded} {m : Decoder χ Unit} {x : χ} {bytes : Bytes}
    (h : Rereads encode m x) (hencode : encode x = .ok bytes) (old : χ) (rest : Bytes) :
    m ⟨old, bytes ++ rest⟩ = .ok () ⟨x, rest⟩ := by
  obtain ⟨encoded, hencoded, hdecode⟩ := h
  obtain rfl : encoded = bytes := Except.ok.inj (hencoded.symm.trans hencode)
  exact hdecode old rest

theorem Rereads.onLocal_eq {encode : χ → Encoded} {m : Decoder χ Unit} {x : χ} {bytes : Bytes}
    (h : Rereads encode m x) (hencode : encode x = .ok bytes) (start : χ) (y : σ) (rest : Bytes) :
    (Decode.onLocal start m : Decoder σ χ) ⟨y, bytes ++ rest⟩ = .ok x ⟨y, rest⟩ :=
  Decode.onLocal_ok (d := ⟨x, rest⟩) (h.decode_eq hencode start rest)

/-! ## Elements -/

theorem ProtocolString.rereads {value : Bytes} (h : value.length ≤ 65535) :
    Rereads ProtocolString.encode ProtocolString.decodeInto value := by
  refine ⟨_, ProtocolString.encode_eq (by omega), fun old rest => ?_⟩
  rw [decodeInto, Decode.bind_ok (ProtocolString.decode_append (by omega))]
  rfl

/-- A step that leaves the decoded object alone. -/
theorem Rereads.seq {encode : χ → Encoded} {m next : Decoder χ Unit} {x : χ}
    (h : Rereads encode m x) (hnext : ∀ rest, next ⟨x, rest⟩ = .ok () ⟨x, rest⟩) :
    Rereads encode (do m; next) x := by
  obtain ⟨encoded, hencode, hdecode⟩ := h
  refine ⟨encoded, hencode, fun old rest => ?_⟩
  rw [Decode.bind_ok (hdecode old rest)]
  exact hnext rest

theorem ProtocolSizedStringBase.rereads {x : SizedString}
    (h : x.Valid [NormalState, NullState, NotSetState]) : Rereads encode decode x := by
  obtain ⟨value, state⟩ := x
  by_cases hstate : state = NormalState
  · subst hstate
    have hlength : value.length < 2 ^ 31 := by
      have hle := h.length
      simp only at hle
      omega
    refine ⟨ProtocolInt.encode value.length ++ value, ?_, fun old rest => ?_⟩
    · rw [encode, if_neg (not_not_intro rfl), if_neg (by simp only; omega)]
    · rw [decode, List.append_assoc, Decode.bind_ok (ProtocolInt.decode_append hlength),
        if_pos (Int.natCast_nonneg _), Decode.bind_ok (Math.take_append (Int.toNat_natCast _).symm)]
      rfl
  · -- null and not set are a negative length, and the string is cleared
    obtain rfl : value = [] := h.value hstate
    have hnegative : state = -1 ∨ state = -2 := by
      have hmem := h.state
      simp only [List.mem_cons, List.not_mem_nil, or_false] at hmem
      exact hmem.resolve_left hstate
    have hsigned : toSigned 32 (ofSigned 32 state) = state := by
      obtain rfl | rfl := hnegative
      · decide
      · decide
    refine ⟨ProtocolInt.encode state, if_pos hstate, fun old rest => ?_⟩
    rw [decode, Decode.bind_ok (ProtocolInt.decode_encode_mod state), hsigned, if_neg (by omega)]
    rfl

theorem ProtocolBytes.rereads {x : SizedString} (h : x.Valid [NormalState, NullState]) :
    Rereads ProtocolSizedStringBase.encode decodeObject x := by
  obtain ⟨value, state⟩ := x
  have hmem := h.state
  simp only [List.mem_cons, List.not_mem_nil, or_false] at hmem
  have hbase : SizedString.Valid [NormalState, NullState, NotSetState] ⟨value, state⟩ :=
    { h with state := by simp [hmem.imp id Or.inl] }
  refine (ProtocolSizedStringBase.rereads hbase).seq fun rest => ?_
  rw [Decode.bind_ok Decode.object_apply]
  obtain rfl | rfl := hmem
  · rw [if_neg (not_not_intro rfl)]
    rfl
  · rw [if_pos (show NullState ≠ NormalState by decide)]
    rfl

theorem ProtocolValue.rereads {x : SizedString}
    (h : x.Valid [NormalState, NullState, NotSetState]) :
    Rereads ProtocolSizedStringBase.encode decodeObject x := by
  refine (ProtocolSizedStringBase.rereads h).seq fun rest => ?_
  have hlegal : ¬ (x.state ≠ NormalState ∧ x.state ≠ NullState ∧ x.state ≠ NotSetState) := by
    have hmem := h.state
    simp only [List.mem_cons, List.not_mem_nil, or_false] at hmem
    tauto
  rw [Decode.bind_ok Decode.object_apply, if_neg hlegal]
  rfl

/-! ## Lists -/

theorem encodeAll_ok {encodeElement : α → Encoded} {value : List α}
    (h : ∀ element ∈ value, ∃ bytes, encodeElement element = .ok bytes) :
    ∃ bytes, encodeAll encodeElement value = .ok bytes := by
  induction value with
  | nil => exact ⟨[], rfl⟩
  | cons element value ih =>
    obtain ⟨bytes, hbytes⟩ := h element List.mem_cons_self
    obtain ⟨more, hmore⟩ := ih fun other hother => h other (List.mem_cons_of_mem _ hother)
    exact ⟨bytes ++ more, by rw [encodeAll, hbytes, hmore]; rfl⟩

namespace ProtocolListBase

variable {start : α} {decodeElement : Decoder α Unit}

/-- Read the count and decode that many fresh elements one after the other. -/
def decodeFresh (start : α) (decodeElement : Decoder α Unit) : Decoder (List α) Unit := do
  let size ← ProtocolShort.decode
  let value ← Decode.collect (Decode.onLocal start decodeElement) size
  Decode.update fun _ => value

/-- The loop over used elements: those in front are done, and the others are dropped or
overwritten. -/
theorem related_decodeFrom (h : Overwrites decodeElement) (count : Nat) (done extra : List α)
    (rest : Bytes) (y : τ) :
    ResultRelated (fun _ value x _ => x = done ++ value ++ extra.drop count)
      (decodeFrom start decodeElement count done.length ⟨done ++ extra, rest⟩)
      (Decode.collect (Decode.onLocal start decodeElement) count ⟨y, rest⟩) := by
  induction count generalizing done extra rest with
  | zero => exact .ok (by rw [List.append_nil, List.drop_zero])
  | succ count ih =>
    have helement := h (extra.headD start) start rest trivial
    generalize hused : decodeElement ⟨extra.headD start, rest⟩ = used at helement
    generalize hfresh : decodeElement ⟨start, rest⟩ = fresh at helement
    cases helement with
    | @ok _ _ element _ left same =>
      subst same
      have hnext := ih (done ++ [element]) extra.tail left
      rw [decodeFrom_ok hused, Decode.collect, Decode.bind_ok (Decode.onLocal_ok hfresh)]
      generalize decodeFrom start decodeElement count (done ++ [element]).length
        ⟨done ++ [element] ++ extra.tail, left⟩ = r at hnext
      generalize hrest : Decode.collect (Decode.onLocal start decodeElement) count ⟨y, left⟩ = s
        at hnext
      cases hnext with
      | ok returned =>
        rw [Decode.bind_ok hrest]
        refine .ok ?_
        rw [returned, List.drop_tail, List.append_assoc done, List.singleton_append]
      | error =>
        rw [Decode.bind_error hrest]
        exact .error
    | error =>
      obtain ⟨c, hc⟩ := @decodeFrom_error _ start _ done _ _ count _ _ hused
      have hlocal : (Decode.onLocal start decodeElement : Decoder τ α) ⟨y, rest⟩ = .error _ _ :=
        Decode.onLocal_error hfresh
      rw [hc, Decode.collect, Decode.bind_error hlocal]
      exact .error

/-- The elements that are left over do not matter, on both sides of the boundary. -/
theorem related_decodeFresh (h : Overwrites decodeElement) (old old' : List α) (rest : Bytes) :
    ResultRelated (fun _ _ x y => x = y) (decode start decodeElement ⟨old, rest⟩)
      (decodeFresh start decodeElement ⟨old', rest⟩) := by
  have hloop : ∀ size count, count ≤ size → ∀ old old' rest,
      ResultRelated (fun _ _ x y => x = y)
        ((do
          Decode.update (resize start count)
          decodeFrom start decodeElement size 0) ⟨old, rest⟩)
        ((do
          let value ← Decode.collect (Decode.onLocal start decodeElement) size
          Decode.update fun _ => value : Decoder (List α) Unit) ⟨old', rest⟩) := by
    intro size count hle old old' rest
    have hfrom := @related_decodeFrom _ _ start _ h size [] (resize start count old) rest old'
    have hdrop : (resize start count old).drop size = [] := by
      rw [List.drop_eq_nil_iff, resize, List.length_append, List.length_take,
        List.length_replicate]
      omega
    rw [Decode.bind_ok (Decode.update_apply _)]
    change ResultRelated _ (decodeFrom start decodeElement size 0 ⟨resize start count old, rest⟩) _
    change ResultRelated _ (decodeFrom start decodeElement size 0 ⟨resize start count old, rest⟩) _
      at hfrom
    generalize decodeFrom start decodeElement size 0 ⟨resize start count old, rest⟩ = r at hfrom
    generalize hs : Decode.collect (Decode.onLocal start decodeElement) size ⟨old', rest⟩ = s
      at hfrom
    cases hfrom with
    | ok returned =>
      rw [Decode.bind_ok hs]
      refine .ok ?_
      rw [returned, hdrop, List.nil_append, List.append_nil]
    | error =>
      rw [Decode.bind_error hs]
      exact .error
  have hsize : Related (fun _ _ => True) (fun _ _ x y => x = y) (decode start decodeElement)
      (decodeFresh start decodeElement) := by
    apply related_short.read
    intro size x y rest _
    split
    · exact hloop size size (Nat.le_refl _) x y rest
    · exact hloop size SmallSizeBoundary (by omega) x y rest
  exact hsize old old' rest trivial

/-- What is decoded does not depend on the elements that were there. -/
theorem overwrites_decode (h : Overwrites decodeElement) :
    Overwrites (decode start decodeElement) := by
  intro x y rest _
  have hx := @related_decodeFresh _ start _ h x [] rest
  have hy := @related_decodeFresh _ start _ h y [] rest
  generalize decode start decodeElement ⟨x, rest⟩ = r at hx
  generalize decode start decodeElement ⟨y, rest⟩ = s at hy
  generalize decodeFresh start decodeElement ⟨[], rest⟩ = fresh at hx hy
  cases hx with
  | ok returned =>
    cases hy with
    | ok returned' => exact .ok (returned.trans returned'.symm)
  | error =>
    cases hy with
    | error => exact .error

theorem rereads {encodeElement : α → Encoded} {value : List α} (hsize : value.length ≤ 65535)
    (h : ∀ element ∈ value, Rereads encodeElement decodeElement element) :
    Rereads (encode encodeElement) (decode start decodeElement) value := by
  have hbytes : ∀ element ∈ value, ∃ bytes, encodeElement element = .ok bytes := by
    intro element hmem
    obtain ⟨bytes, hencode, -⟩ := h element hmem
    exact ⟨bytes, hencode⟩
  obtain ⟨bytes, hbytes⟩ := encodeAll_ok hbytes
  have hencode : encode encodeElement value =
      .ok (ProtocolShort.encode value.length ++ bytes) := by
    rw [encode, if_neg (by omega), hbytes]
    rfl
  refine ⟨_, hencode, fun old rest => decode_append ?_ hencode old rest⟩
  intro element hmem bytes hbytes old rest
  exact (h element hmem).decode_eq hbytes old rest

end ProtocolListBase

/-! ## Maps -/

namespace ProtocolMapBase

variable [DecidableEq κ] {decodeKey : Decoder κ Unit} {decodeValue : Decoder ν Unit}

/-- The rounds: `key` and `value` are declared in front of the loop and moved from in
each round. What a round leaves in them is `left`. -/
def decodeEntries (decodeKey : Decoder κ Unit) (decodeValue : Decoder ν Unit)
    (left : Nat → κ × ν) : Nat → κ × ν → Decoder (List (κ × ν)) Unit
  | 0, _ => pure ()
  | count + 1, (key, value) => do
    let key ← Decode.onLocal key decodeKey
    let value ← Decode.onLocal value decodeValue
    Decode.update fun entries => emplace entries (key, value)
    decodeEntries decodeKey decodeValue left count (left count)

/-- `decode` with its local objects, which start as `created`. -/
def decodeMoved (created : κ × ν) (decodeKey : Decoder κ Unit) (decodeValue : Decoder ν Unit)
    (left : Nat → κ × ν) : Decoder (List (κ × ν)) Unit := do
  let size ← ProtocolShort.decode
  Decode.update fun _ => []
  decodeEntries decodeKey decodeValue left size created

/-- The entries are those of a map of values, which the objects of the first stand for. -/
def Stands {β : Type} (object : β → ν) (x : List (κ × ν)) (y : List (κ × β)) : Prop :=
  x = y.map (Prod.map id object)

theorem Stands.emplace {β : Type} {object : β → ν} {x : List (κ × ν)} {y : List (κ × β)}
    (h : Stands object x y) (key : κ) (value : β) :
    Stands object (emplace x (key, object value)) (ProtocolMapBase.emplace y (key, value)) := by
  have hkeys : x.map Prod.fst = y.map Prod.fst := by
    rw [h, List.map_map]
    rfl
  rw [Stands, ProtocolMapBase.emplace, ProtocolMapBase.emplace, hkeys]
  split
  · exact h
  · rw [h, List.map_append]
    rfl

/-- Decoding a key and a value into used objects is reading them, so decoding the map is
reading the entries. -/
theorem related_decodeMoved_read {β : Type} {object : β → ν} {readKey : Decoder (List (κ × β)) κ}
    {readValue : Decoder (List (κ × β)) β}
    (hkey : ∀ used, Related (Stands object) (fun a b x y => a = b ∧ Stands object x y)
      (Decode.onLocal used decodeKey) readKey)
    (hvalue : ∀ used, Related (Stands object) (fun a b x y => a = object b ∧ Stands object x y)
      (Decode.onLocal used decodeValue) readValue)
    (created : κ × ν) (left : Nat → κ × ν) :
    Related (fun _ _ => True) (fun _ _ => Stands object)
      (decodeMoved created decodeKey decodeValue left) (decode readKey readValue) := by
  have hloop : ∀ count used, Related (Stands object) (fun _ _ => Stands object)
      (decodeEntries decodeKey decodeValue left count used)
      (Decode.times (do
        let key ← readKey
        let entry ← readValue
        Decode.update fun entries => ProtocolMapBase.emplace entries (key, entry)) count) := by
    intro count
    induction count with
    | zero => exact fun used => .pure fun _ _ hstands => hstands
    | succ count ih =>
      rintro ⟨key, value⟩
      rw [decodeEntries, Decode.times]
      simp only [bind_assoc]
      refine (hkey key).read fun key => (hvalue value).bind ?_
      rintro _ value x y rest ⟨rfl, hstands⟩
      refine Related.seq (P := Stands object) ?_ (ih _) x y rest hstands
      exact .update fun x y hstands => hstands.emplace key value
  apply related_short.read
  intro size
  apply Related.seq (S := Stands object)
  · exact .update fun _ _ _ => rfl
  · exact hloop size created

/-- It does not matter that the key and the value were moved from. -/
theorem related_decodeMoved (hkey : Overwrites decodeKey) (hvalue : Overwrites decodeValue)
    (created : κ × ν) (left : Nat → κ × ν) (old old' : List (κ × ν)) (rest : Bytes) :
    ResultRelated (fun _ _ x y => x = y)
      (decodeMoved created decodeKey decodeValue left ⟨old, rest⟩)
      (decode (Decode.onLocal created.1 decodeKey) (Decode.onLocal created.2 decodeValue)
        ⟨old', rest⟩) := by
  have hread := @related_decodeMoved_read _ _ _ _ _ _ id _ _
    (fun used => hkey.onLocal used created.1) (fun used => hvalue.onLocal used created.2)
    created left old old' rest trivial
  apply hread.mono
  intro _ _ x y hstands
  rw [hstands, Prod.map_id, List.map_id]

/-- Entries with different keys are all inserted. -/
theorem foldl_emplace {done value : List (κ × ν)} (h : ((done ++ value).map Prod.fst).Nodup) :
    value.foldl emplace done = done ++ value := by
  induction value generalizing done with
  | nil => simp
  | cons entry value ih =>
    have hnew : entry.1 ∉ done.map Prod.fst := by
      rw [List.map_append, List.nodup_append] at h
      intro hmem
      exact h.2.2 _ hmem entry.1 (by simp) rfl
    rw [List.foldl_cons, emplace, if_neg hnew, ih (by simpa using h)]
    simp

theorem rereads {encodeKey : κ → Encoded} {encodeValue : ν → Encoded} {value : List (κ × ν)}
    (hsize : value.length ≤ 65535) (hnodup : (value.map Prod.fst).Nodup)
    (hkey : Overwrites decodeKey) (hvalue : Overwrites decodeValue)
    (hkeys : ∀ entry ∈ value, Rereads encodeKey decodeKey entry.1)
    (hvalues : ∀ entry ∈ value, Rereads encodeValue decodeValue entry.2)
    (created : κ × ν) (left : Nat → κ × ν) :
    Rereads (encode encodeKey encodeValue) (decodeMoved created decodeKey decodeValue left)
      value := by
  have hentries : ∀ entry ∈ value, ∃ bytes, (do
      let bytes ← encodeKey entry.1
      return bytes ++ (← encodeValue entry.2) : Encoded) = .ok bytes := by
    intro entry hmem
    obtain ⟨bytes, hencode, -⟩ := hkeys entry hmem
    obtain ⟨more, hmore, -⟩ := hvalues entry hmem
    exact ⟨bytes ++ more, by rw [hencode, hmore]; rfl⟩
  obtain ⟨bytes, hbytes⟩ := encodeAll_ok hentries
  have hencode : encode encodeKey encodeValue value =
      .ok (ProtocolShort.encode value.length ++ bytes) := by
    rw [encode, if_neg (by omega), hbytes]
    rfl
  refine ⟨_, hencode, fun old rest => ?_⟩
  have hfresh : decode (Decode.onLocal created.1 decodeKey) (Decode.onLocal created.2 decodeValue)
      ⟨old, ProtocolShort.encode value.length ++ bytes ++ rest⟩ = .ok () ⟨value, rest⟩ := by
    rw [decode_append _ _ hencode, foldl_emplace (by simpa using hnodup), List.nil_append]
    · intro entry hmem bytes hbytes old rest
      exact (hkeys entry hmem).onLocal_eq hbytes _ old rest
    · intro entry hmem bytes hbytes old rest
      exact (hvalues entry hmem).onLocal_eq hbytes _ old rest
  have hmoved := related_decodeMoved hkey hvalue created left old old
    (ProtocolShort.encode value.length ++ bytes ++ rest)
  rw [hfresh] at hmoved
  generalize decodeMoved created decodeKey decodeValue left
    ⟨old, ProtocolShort.encode value.length ++ bytes ++ rest⟩ = r at hmoved
  cases hmoved with
  | ok returned => rw [returned]

end ProtocolMapBase

/-! ## The containers of the protocol -/

/-- A [short] n, followed by n [value]. -/
def ProtocolValueList.encode (value : List SizedString) : Encoded :=
  ProtocolListBase.encode ProtocolSizedStringBase.encode value

def ProtocolValueList.decode : Decoder (List SizedString) Unit :=
  ProtocolListBase.decode ⟨[], NotSetState⟩ ProtocolValue.decodeObject

/-- A [short] n, followed by n pairs of a [string] and a [string]. -/
def ProtocolStringMap.encode (value : List (Bytes × Bytes)) : Encoded :=
  ProtocolMapBase.encode ProtocolString.encode ProtocolString.encode value

def ProtocolStringMap.decodeMoved (left : Nat → Bytes × Bytes) :
    Decoder (List (Bytes × Bytes)) Unit :=
  ProtocolMapBase.decodeMoved ([], []) ProtocolString.decodeInto ProtocolString.decodeInto left

def ProtocolBytesMap.encodeObjects (value : List (Bytes × SizedString)) : Encoded :=
  ProtocolMapBase.encode ProtocolString.encode ProtocolSizedStringBase.encode value

def ProtocolBytesMap.decodeMoved (left : Nat → Bytes × SizedString) :
    Decoder (List (Bytes × SizedString)) Unit :=
  ProtocolMapBase.decodeMoved ([], ⟨[], NullState⟩) ProtocolString.decodeInto
    ProtocolBytes.decodeObject left

def ProtocolStringMultiMap.encode (value : List (Bytes × List Bytes)) : Encoded :=
  ProtocolMapBase.encode ProtocolString.encode ProtocolStringList.encode value

def ProtocolStringMultiMap.decodeMoved (left : Nat → Bytes × List Bytes) :
    Decoder (List (Bytes × List Bytes)) Unit :=
  ProtocolMapBase.decodeMoved ([], []) ProtocolString.decodeInto ProtocolStringList.decode left

/-- A [short] n, followed by n pairs of a [string] and a [value]. -/
def ProtocolValueMap.encode (value : List (Bytes × SizedString)) : Encoded :=
  ProtocolMapBase.encode ProtocolString.encode ProtocolSizedStringBase.encode value

def ProtocolValueMap.decodeMoved (left : Nat → Bytes × SizedString) :
    Decoder (List (Bytes × SizedString)) Unit :=
  ProtocolMapBase.decodeMoved ([], ⟨[], NotSetState⟩) ProtocolString.decodeInto
    ProtocolValue.decodeObject left

/-- The object that holds a [bytes]. -/
def ProtocolBytes.object : Option Bytes → SizedString
  | some value => ⟨value, NormalState⟩
  | none => ⟨[], NullState⟩

/-- Decoding in place is reading. -/
theorem ProtocolString.related_decodeInto (y₀ : σ) :
    Related (fun _ y => y = y₀) (fun _ value x y => x = value ∧ y = y₀) decodeInto decode := by
  rw [← bind_pure (decode : Decoder σ Bytes)]
  exact related_string.read fun value x y rest hy => .ok ⟨rfl, hy⟩

theorem ProtocolBytes.related_decodeObject (y₀ : σ) :
    Related (fun _ y => y = y₀) (fun _ value x y => x = object value ∧ y = y₀) decodeObject
      decode := by
  rw [decodeObject, ProtocolSizedStringBase.decode, decode]
  simp only [bind_assoc]
  apply related_int.read
  intro size
  by_cases hsize : 0 ≤ size
  · rw [if_pos hsize, if_pos hsize]
    simp only [bind_assoc]
    exact Decode.related_take.read fun value x y rest hy => .ok ⟨rfl, hy⟩
  · have hstate : size ≠ NormalState := by
      rw [NormalState]
      omega
    rw [if_neg hsize, if_neg hsize]
    intro x y rest hy
    rw [Decode.bind_ok (Decode.update_apply _), Decode.bind_ok Decode.object_apply, if_pos hstate]
    exact .ok ⟨rfl, hy⟩

/-- The maps that are decoded with used objects hold what the messages read. -/
theorem ProtocolBytesMap.related_decodeMoved (left : Nat → Bytes × SizedString) :
    Related (fun _ _ => True) (fun _ _ => ProtocolMapBase.Stands ProtocolBytes.object)
      (decodeMoved left) decode :=
  ProtocolMapBase.related_decodeMoved_read
    (fun _ => .onLocal ProtocolString.related_decodeInto)
    (fun _ => .onLocal ProtocolBytes.related_decodeObject) _ left

theorem ProtocolStringMultiMap.related_decodeMoved (left : Nat → Bytes × List Bytes) :
    Related (fun _ _ => True) (fun _ _ => ProtocolMapBase.Stands id) (decodeMoved left) decode :=
  ProtocolMapBase.related_decodeMoved_read
    (fun _ => .onLocal ProtocolString.related_decodeInto)
    (fun used => (ProtocolListBase.overwrites_decode
      ProtocolString.overwrites_decodeInto).onLocal used []) _ left

/-- The codecs of lists and maps. The length of a list is the number of its elements, and
a map is the list of its entries. -/
structure ContainerCodecs : Prop where
  stringList (x : List Bytes) (size : x.length ≤ 65535) (lengths : ∀ s ∈ x, s.length ≤ 65535) :
    Rereads ProtocolStringList.encode ProtocolStringList.decode x
  valueList (x : List SizedString) (size : x.length ≤ 65535)
    (valid : ∀ v ∈ x, v.Valid [NormalState, NullState, NotSetState]) :
    Rereads ProtocolValueList.encode ProtocolValueList.decode x
  stringMap (x : List (Bytes × Bytes)) (left : Nat → Bytes × Bytes) (size : x.length ≤ 65535)
    (keys : (x.map Prod.fst).Nodup)
    (lengths : ∀ entry ∈ x, entry.1.length ≤ 65535 ∧ entry.2.length ≤ 65535) :
    Rereads ProtocolStringMap.encode (ProtocolStringMap.decodeMoved left) x
  bytesMap (x : List (Bytes × SizedString)) (left : Nat → Bytes × SizedString)
    (size : x.length ≤ 65535) (keys : (x.map Prod.fst).Nodup)
    (lengths : ∀ entry ∈ x, entry.1.length ≤ 65535)
    (valid : ∀ entry ∈ x, entry.2.Valid [NormalState, NullState]) :
    Rereads ProtocolBytesMap.encodeObjects (ProtocolBytesMap.decodeMoved left) x
  stringMultiMap (x : List (Bytes × List Bytes)) (left : Nat → Bytes × List Bytes)
    (size : x.length ≤ 65535) (keys : (x.map Prod.fst).Nodup)
    (lengths : ∀ entry ∈ x, entry.1.length ≤ 65535)
    (values : ∀ entry ∈ x, entry.2.length ≤ 65535 ∧ ∀ s ∈ entry.2, s.length ≤ 65535) :
    Rereads ProtocolStringMultiMap.encode (ProtocolStringMultiMap.decodeMoved left) x
  valueMap (x : List (Bytes × SizedString)) (left : Nat → Bytes × SizedString)
    (size : x.length ≤ 65535) (keys : (x.map Prod.fst).Nodup)
    (lengths : ∀ entry ∈ x, entry.1.length ≤ 65535)
    (valid : ∀ entry ∈ x, entry.2.Valid [NormalState, NullState, NotSetState]) :
    Rereads ProtocolValueMap.encode (ProtocolValueMap.decodeMoved left) x
  /-- On any bytes a list is decoded to fresh elements. -/
  list {α : Type} (start : α) (decodeElement : Decoder α Unit) (overwrites : Overwrites decodeElement)
    (old fresh : List α) (bytes : Bytes) :
    ResultRelated (fun _ _ x y => x = y) (ProtocolListBase.decode start decodeElement ⟨old, bytes⟩)
      (ProtocolListBase.decodeFresh start decodeElement ⟨fresh, bytes⟩)
  stringElement : Overwrites ProtocolString.decodeInto
  valueElement : Overwrites ProtocolValue.decodeObject

theorem containerCodecs : ContainerCodecs where
  stringList _ size lengths :=
    ProtocolListBase.rereads size fun s hmem => ProtocolString.rereads (lengths s hmem)
  valueList _ size valid :=
    ProtocolListBase.rereads size fun v hmem => ProtocolValue.rereads (valid v hmem)
  stringMap _ left size keys lengths :=
    ProtocolMapBase.rereads size keys ProtocolString.overwrites_decodeInto
      ProtocolString.overwrites_decodeInto
      (fun entry hmem => ProtocolString.rereads (lengths entry hmem).1)
      (fun entry hmem => ProtocolString.rereads (lengths entry hmem).2) _ left
  bytesMap _ left size keys lengths valid :=
    ProtocolMapBase.rereads size keys ProtocolString.overwrites_decodeInto
      ProtocolBytes.overwrites_decodeObject
      (fun entry hmem => ProtocolString.rereads (lengths entry hmem))
      (fun entry hmem => ProtocolBytes.rereads (valid entry hmem)) _ left
  stringMultiMap _ left size keys lengths values :=
    ProtocolMapBase.rereads size keys ProtocolString.overwrites_decodeInto
      (ProtocolListBase.overwrites_decode ProtocolString.overwrites_decodeInto)
      (fun entry hmem => ProtocolString.rereads (lengths entry hmem))
      (fun entry hmem => ProtocolListBase.rereads (values entry hmem).1
        fun s hs => ProtocolString.rereads ((values entry hmem).2 s hs)) _ left
  valueMap _ left size keys lengths valid :=
    ProtocolMapBase.rereads size keys ProtocolString.overwrites_decodeInto
      ProtocolValue.overwrites_decodeObject
      (fun entry hmem => ProtocolString.rereads (lengths entry hmem))
      (fun entry hmem => ProtocolValue.rereads (valid entry hmem)) _ left
  list _ _ overwrites old fresh bytes :=
    ProtocolListBase.related_decodeFresh overwrites old fresh bytes
  stringElement := ProtocolString.overwrites_decodeInto
  valueElement := ProtocolValue.overwrites_decodeObject

end CqlDriver
