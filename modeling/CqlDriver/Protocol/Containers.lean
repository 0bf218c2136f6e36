import CqlDriver.Protocol.Primitive

/-!
# Lists and maps of the protocol

`ProtocolListBase` decodes into the vector it has: elements that are there are
decoded in place, others are appended one by one when the list is long.
`ProtocolMapBase` clears its map and keeps the first value of a key.

## Main definitions

* `ProtocolListBase.encode`, `ProtocolListBase.decode`
* `ProtocolMapBase.encode`, `ProtocolMapBase.decode`
* `ProtocolStringList`, `ProtocolBytesMap`, `ProtocolStringMultiMap`

## Main results

* `ProtocolListBase.decode_append`, `ProtocolMapBase.decode_append` — what was
  encoded is decoded, whatever the object held before
-/

namespace CqlDriver

open Math (Decode Cursor)

/-- Append the encodings of all elements. -/
def encodeAll {α : Type} (encodeElement : α → Encoded) : List α → Encoded
  | [] => .ok []
  | element :: rest => do
    let bytes ← encodeElement element
    return bytes ++ (← encodeAll encodeElement rest)

theorem encodeAll_cons {α : Type} {encodeElement : α → Encoded} {element : α} {rest : List α}
    {encoded : Bytes} (h : encodeAll encodeElement (element :: rest) = .ok encoded) :
    ∃ bytes more, encodeElement element = .ok bytes ∧ encodeAll encodeElement rest = .ok more ∧
      encoded = bytes ++ more := by
  rw [encodeAll] at h
  cases hfirst : encodeElement element with
  | error failure =>
    rw [hfirst] at h
    cases h
  | ok bytes =>
    cases hrest : encodeAll encodeElement rest with
    | error failure =>
      rw [hfirst, hrest] at h
      cases h
    | ok more =>
      rw [hfirst, hrest] at h
      cases h
      exact ⟨bytes, more, rfl, rfl, rfl⟩

namespace ProtocolListBase

variable {α : Type}

/-- Up to this size the vector is resized before its elements are decoded. -/
def SmallSizeBoundary : Nat := 255

def encode (encodeElement : α → Encoded) (value : List α) : Encoded :=
  if 2 ^ 16 - 1 < value.length then .error lengthTooLong
  else do return ProtocolShort.encode value.length ++ (← encodeAll encodeElement value)

/-- `value_.resize(size)`. -/
def resize (start : α) (size : Nat) (value : List α) : List α :=
  value.take size ++ List.replicate (size - value.length) start

/-- Decode elements from the given index on, appending those that are missing. -/
def decodeFrom (start : α) (decodeElement : Decoder α Unit) : Nat → Nat → Decoder (List α) Unit
  | 0, _ => pure ()
  | count + 1, i => do
    let value ← Decode.object
    if value.length ≤ i then
      Decode.update fun value => value ++ [start]
    Decode.on (fun value => value.getD i start) (fun element value => value.set i element)
      decodeElement
    decodeFrom start decodeElement count (i + 1)

def decode (start : α) (decodeElement : Decoder α Unit) : Decoder (List α) Unit := do
  let size ← ProtocolShort.decode
  if size ≤ SmallSizeBoundary then
    -- size is small, do the optimization
    Decode.update (resize start size)
  else
    -- size is big, append each for security concern
    Decode.update (resize start SmallSizeBoundary)
  decodeFrom start decodeElement size 0

section Round

variable {start element : α} {decodeElement : Decoder α Unit} {done extra : List α}
  {bytes rest : Bytes} {count : Nat}

/-- The elements before an index are done, and the next one is decoded into what is
there, or into a new one. -/
theorem decodeFrom_succ :
    decodeFrom start decodeElement (count + 1) done.length ⟨done ++ extra, bytes⟩ =
      (do
        Decode.on (fun value : List α => value.getD done.length start)
          (fun element value => value.set done.length element) decodeElement
        decodeFrom start decodeElement count (done.length + 1))
      ⟨done ++ extra.headD start :: extra.tail, bytes⟩ := by
  rw [decodeFrom, Decode.bind_ok (Decode.object_apply)]
  cases extra with
  | nil =>
    rw [List.append_nil, if_pos (Nat.le_refl _), Decode.bind_ok (Decode.update_apply _)]
    rfl
  | cons old extra =>
    have hlt : ¬ (done ++ old :: extra).length ≤ done.length := by simp
    rw [if_neg hlt]
    rfl

theorem decodeFrom_ok (h : decodeElement ⟨extra.headD start, bytes⟩ = .ok () ⟨element, rest⟩) :
    decodeFrom start decodeElement (count + 1) done.length ⟨done ++ extra, bytes⟩ =
      decodeFrom start decodeElement count (done ++ [element]).length
        ⟨done ++ [element] ++ extra.tail, rest⟩ := by
  have hget : (done ++ extra.headD start :: extra.tail).getD done.length start =
      extra.headD start := by simp
  have hset : (done ++ extra.headD start :: extra.tail).set done.length element =
      done ++ [element] ++ extra.tail := by simp
  rw [decodeFrom_succ, Decode.bind_ok (Decode.on_ok (hget.symm ▸ h))]
  rw [hset, List.length_append, List.length_singleton]

/-- An element that throws ends the loop. -/
theorem decodeFrom_error {failure : Failure} {c : Cursor α}
    (h : decodeElement ⟨extra.headD start, bytes⟩ = .error failure c) :
    ∃ c', decodeFrom start decodeElement (count + 1) done.length ⟨done ++ extra, bytes⟩ =
      .error failure c' := by
  have hget : (done ++ extra.headD start :: extra.tail).getD done.length start =
      extra.headD start := by simp
  rw [decodeFrom_succ]
  exact ⟨_, Decode.bind_error (Decode.on_error (hget.symm ▸ h)) _⟩

end Round

/-- The elements before an index are done, those behind it are overwritten. -/
theorem decodeFrom_append {start : α} {decodeElement : Decoder α Unit}
    {encodeElement : α → Encoded} {value : List α}
    (helement : ∀ element ∈ value, ∀ bytes, encodeElement element = .ok bytes → ∀ old rest,
      decodeElement ⟨old, bytes ++ rest⟩ = .ok () ⟨element, rest⟩)
    {encoded : Bytes} (hencoded : encodeAll encodeElement value = .ok encoded)
    (done extra : List α) (rest : Bytes) :
    decodeFrom start decodeElement value.length done.length ⟨done ++ extra, encoded ++ rest⟩ =
      .ok () ⟨done ++ value ++ extra.drop value.length, rest⟩ := by
  induction value generalizing done extra encoded with
  | nil =>
    cases hencoded
    rw [List.append_nil]
    rfl
  | cons element value ih =>
    obtain ⟨bytes, more, hfirst, hmore, rfl⟩ := encodeAll_cons hencoded
    have hdecode := helement element List.mem_cons_self bytes hfirst (extra.headD start)
      (more ++ rest)
    have hrest := ih (fun other hother => helement other (List.mem_cons_of_mem _ hother)) hmore
      (done ++ [element]) extra.tail
    rw [List.length_cons, List.append_assoc bytes, decodeFrom_ok hdecode, hrest, List.drop_tail,
      List.append_assoc done, List.singleton_append]

/-- What was encoded is decoded, whatever the vector held before. -/
theorem decode_append {start : α} {decodeElement : Decoder α Unit}
    {encodeElement : α → Encoded} {value : List α}
    (helement : ∀ element ∈ value, ∀ bytes, encodeElement element = .ok bytes → ∀ old rest,
      decodeElement ⟨old, bytes ++ rest⟩ = .ok () ⟨element, rest⟩)
    {encoded : Bytes} (hencoded : encode encodeElement value = .ok encoded)
    (old : List α) (rest : Bytes) :
    decode start decodeElement ⟨old, encoded ++ rest⟩ = .ok () ⟨value, rest⟩ := by
  rw [encode] at hencoded
  split at hencoded
  · cases hencoded
  next hle =>
    cases helements : encodeAll encodeElement value with
    | error failure =>
      rw [helements] at hencoded
      cases hencoded
    | ok bytes =>
      rw [helements] at hencoded
      cases hencoded
      have hlt : value.length < 2 ^ 16 := by omega
      have hloop : ∀ size ≤ value.length,
          decodeFrom start decodeElement value.length 0 ⟨resize start size old, bytes ++ rest⟩ =
            .ok () ⟨value, rest⟩ := by
        intro size hsize
        have hdecode : decodeFrom start decodeElement value.length ([] : List α).length _ = _ :=
          decodeFrom_append helement helements [] (resize start size old) rest
        have hdrop : (resize start size old).drop value.length = [] := by
          rw [List.drop_eq_nil_iff, resize, List.length_append, List.length_take,
            List.length_replicate]
          omega
        rw [List.nil_append, List.nil_append, hdrop, List.append_nil] at hdecode
        exact hdecode
      rw [decode, List.append_assoc, Decode.bind_ok (ProtocolShort.decode_append hlt)]
      split
      · rw [Decode.bind_ok (Decode.update_apply _)]
        exact hloop _ (Nat.le_refl _)
      next hbig =>
        rw [Decode.bind_ok (Decode.update_apply _)]
        exact hloop _ (by omega)

end ProtocolListBase

namespace ProtocolMapBase

variable {κ ν : Type} [DecidableEq κ]

def encode (encodeKey : κ → Encoded) (encodeValue : ν → Encoded) (value : List (κ × ν)) :
    Encoded :=
  if 2 ^ 16 - 1 < value.length then .error lengthTooLong
  else do
    return ProtocolShort.encode value.length ++ (← encodeAll (fun entry => do
      let bytes ← encodeKey entry.1
      return bytes ++ (← encodeValue entry.2)) value)

/-- `value_.emplace(key, value)` does nothing when the key is there. -/
def emplace (value : List (κ × ν)) (entry : κ × ν) : List (κ × ν) :=
  if entry.1 ∈ value.map Prod.fst then value else value ++ [entry]

def decode (decodeKey : Decoder (List (κ × ν)) κ) (decodeValue : Decoder (List (κ × ν)) ν) :
    Decoder (List (κ × ν)) Unit := do
  let size ← ProtocolShort.decode
  Decode.update fun _ => []
  Decode.times (do
    let key ← decodeKey
    let entry ← decodeValue
    Decode.update fun value => emplace value (key, entry)) size

/-- What was encoded is decoded; of the entries with one key the first stays. -/
theorem decode_append {decodeKey : Decoder (List (κ × ν)) κ}
    {decodeValue : Decoder (List (κ × ν)) ν} {encodeKey : κ → Encoded} {encodeValue : ν → Encoded}
    {value : List (κ × ν)}
    (hkey : ∀ entry ∈ value, ∀ bytes, encodeKey entry.1 = .ok bytes → ∀ old rest,
      decodeKey ⟨old, bytes ++ rest⟩ = .ok entry.1 ⟨old, rest⟩)
    (hvalue : ∀ entry ∈ value, ∀ bytes, encodeValue entry.2 = .ok bytes → ∀ old rest,
      decodeValue ⟨old, bytes ++ rest⟩ = .ok entry.2 ⟨old, rest⟩)
    {encoded : Bytes} (hencoded : encode encodeKey encodeValue value = .ok encoded)
    (old : List (κ × ν)) (rest : Bytes) :
    decode decodeKey decodeValue ⟨old, encoded ++ rest⟩ = .ok () ⟨value.foldl emplace [], rest⟩ := by
  rw [encode] at hencoded
  split at hencoded
  · cases hencoded
  next hle =>
    cases hentries : encodeAll (fun entry : κ × ν => do
        let bytes ← encodeKey entry.1
        return bytes ++ (← encodeValue entry.2)) value with
    | error failure =>
      rw [hentries] at hencoded
      cases hencoded
    | ok bytes =>
      rw [hentries] at hencoded
      cases hencoded
      have hlt : value.length < 2 ^ 16 := by omega
      rw [decode, List.append_assoc, Decode.bind_ok (ProtocolShort.decode_append hlt),
        Decode.bind_ok (Decode.update_apply _)]
      show Decode.times _ value.length ⟨[], bytes ++ rest⟩ = _
      clear hle hlt old
      generalize ([] : List (κ × ν)) = done
      induction value generalizing done bytes with
      | nil =>
        cases hentries
        rfl
      | cons entry value ih =>
        obtain ⟨first, more, hfirst, hmore, rfl⟩ := encodeAll_cons hentries
        cases hkeys : encodeKey entry.1 with
        | error failure =>
          rw [hkeys] at hfirst
          cases hfirst
        | ok keyBytes =>
          cases hvalues : encodeValue entry.2 with
          | error failure =>
            rw [hkeys, hvalues] at hfirst
            cases hfirst
          | ok valueBytes =>
            rw [hkeys, hvalues] at hfirst
            cases hfirst
            rw [List.length_cons, Decode.times, List.append_assoc, List.append_assoc]
            have hround : (do
                let key ← decodeKey
                let entry ← decodeValue
                Decode.update fun value => emplace value (key, entry) :
                  Decoder (List (κ × ν)) Unit) ⟨done, keyBytes ++ (valueBytes ++ (more ++ rest))⟩ =
                .ok () ⟨emplace done entry, more ++ rest⟩ := by
              rw [Decode.bind_ok (hkey entry List.mem_cons_self keyBytes hkeys done _),
                Decode.bind_ok (hvalue entry List.mem_cons_self valueBytes hvalues done _)]
              rfl
            rw [Decode.bind_ok hround]
            exact ih (fun other hother => hkey other (List.mem_cons_of_mem _ hother))
              (fun other hother => hvalue other (List.mem_cons_of_mem _ hother)) _ hmore _

end ProtocolMapBase

/-! ## The containers of strings and bytes -/

/-- Decode a string in place. -/
def ProtocolString.decodeInto : Decoder Bytes Unit := do
  let value ← ProtocolString.decode
  Decode.update fun _ => value

/-- A [short] n, followed by n [string]. -/
def ProtocolStringList.decode : Decoder (List Bytes) Unit :=
  ProtocolListBase.decode [] ProtocolString.decodeInto

def ProtocolStringList.encode (value : List Bytes) : Encoded :=
  ProtocolListBase.encode ProtocolString.encode value

/-- A [short] n, followed by n pairs of a [string] and a [bytes]. -/
def ProtocolBytesMap.decode : Decoder (List (Bytes × Option Bytes)) Unit :=
  ProtocolMapBase.decode ProtocolString.decode ProtocolBytes.decode

def ProtocolBytesMap.encode (value : List (Bytes × Option Bytes)) : Encoded :=
  ProtocolMapBase.encode ProtocolString.encode ProtocolBytes.encode value

/-- A [short] n, followed by n pairs of a [string] and a [string list]. -/
def ProtocolStringMultiMap.decode : Decoder (List (Bytes × List Bytes)) Unit :=
  ProtocolMapBase.decode ProtocolString.decode (Decode.onLocal [] ProtocolStringList.decode)

theorem ProtocolString.decode_encode {value encoded : Bytes}
    (h : ProtocolString.encode value = .ok encoded) {σ : Type} (x : σ) (rest : Bytes) :
    ProtocolString.decode (⟨x, encoded ++ rest⟩ : Cursor σ) = .ok value ⟨x, rest⟩ := by
  rw [ProtocolString.encode] at h
  split at h
  · cases h
  next hle =>
    cases h
    exact ProtocolString.decode_append (by omega)

theorem ProtocolStringList.decode_append {value : List Bytes} {encoded : Bytes}
    (h : ProtocolStringList.encode value = .ok encoded) (old : List Bytes) (rest : Bytes) :
    ProtocolStringList.decode ⟨old, encoded ++ rest⟩ = .ok () ⟨value, rest⟩ := by
  apply ProtocolListBase.decode_append _ h
  intro element _ bytes hbytes old rest
  rw [ProtocolString.decodeInto, Decode.bind_ok (ProtocolString.decode_encode hbytes old rest)]
  rfl

theorem ProtocolBytesMap.decode_append {value : List (Bytes × Option Bytes)} {encoded : Bytes}
    (h : ProtocolBytesMap.encode value = .ok encoded) (old : List (Bytes × Option Bytes))
    (rest : Bytes) :
    ProtocolBytesMap.decode ⟨old, encoded ++ rest⟩ =
      .ok () ⟨value.foldl ProtocolMapBase.emplace [], rest⟩ := by
  apply ProtocolMapBase.decode_append _ _ h
  · intro entry _ bytes hbytes old rest
    exact ProtocolString.decode_encode hbytes old rest
  · intro entry _ bytes hbytes old rest
    exact ProtocolBytes.decode_append hbytes

end CqlDriver
