import CqlDriver.Column.Collections
import CqlDriver.Math.Scan

/-!
# Column values behind pointers

`ColumnTrait::decode` gets a pointer that it moves and the end of the bytes, and `decodeBody` gets a
pointer and a size. Both could read anywhere. Here they are programs that inspect memory, with the
pointers and the comparisons that the classes make, and what they inspect is recorded.

## Main definitions

* `Pointer.Class` — the functions of a class that decode, on memory
* `Pointer.decodeSized` — `ColumnTrait::decode`
* `Pointer.Class.BodyInside` — a body is decoded without looking past its size
* `Pointer.Class.StaysInside` — and a column without looking past its end

## Main results

* `Pointer.decodeSized_apply` — what a column with its size records and leaves
* `Pointer.column_staysInside`, `Pointer.Nullable.staysInside` — columns stay inside if bodies do
-/

namespace CqlDriver

open Math (Memory Extent Scan Traced rounds slice inspected toSigned ofBigEndian)

/-- The failure is a `DecodeException`. -/
def Failure.IsDecode (failure : Failure) : Prop :=
  ∃ message, failure = .exception (decodeException message)

namespace Pointer

/-- The functions of a class of column values that decode, and those of `ColumnTrait` for it. -/
structure Class (α : Type) where
  /-- The value of a default constructed object. -/
  init : α
  /-- Reset to initial state. -/
  reset : α → α
  isNullable : Bool
  /-- Decode from a pointer and a size. -/
  decodeBody : Nat → Int → Scan Failure α Unit
  /-- Decode from a pointer that is moved, up to an end. -/
  decode : Nat → Scan Failure (α × Nat) Unit

variable {α : Type}

/-- The size that is in front of a column. -/
def announcedSize (memory : Memory) (ptr : Nat) : Int := toSigned 32 (ofBigEndian (slice memory ptr 4))

/-- Decode the body behind a size, if it is not negative. -/
def decodeFound (decodeBody : Nat → Int → Scan Failure α Unit)
    (onNull : Scan Failure (α × Nat) Unit) (stop ptr : Nat) (bodySize : Int) :
    Scan Failure (α × Nat) Unit :=
  if 0 ≤ bodySize then
    if stop < ptr ∨ (stop : Int) - ptr < 4 + bodySize then
      Scan.throw ColumnTrait.bodyNotEnough
    else do
      Scan.on Prod.fst (fun value s => (value, s.2))
        (Scan.inBody ⟨ptr + 4, bodySize.toNat⟩ (decodeBody (ptr + 4) bodySize))
      Scan.update fun s => (s.1, s.2 + (4 + bodySize.toNat))
  else
    onNull

/-- Read the size and decode the body. -/
def decodeSized (decodeBody : Nat → Int → Scan Failure α Unit)
    (onNull : Scan Failure (α × Nat) Unit) (stop : Nat) : Scan Failure (α × Nat) Unit := do
  let s ← Scan.get
  if stop < s.2 + 4 then
    Scan.throw ColumnTrait.sizeNotEnough
  else
    let bytes ← Scan.load s.2 4
    decodeFound decodeBody onNull stop s.2 (toSigned 32 (ofBigEndian bytes.1))

/-- A class for which `ColumnTrait` is not specialised. -/
def column (init : α) (reset : α → α) (decodeBody : Nat → Int → Scan Failure α Unit) :
    Class α where
  init := init
  reset := reset
  isNullable := false
  decodeBody := decodeBody
  decode := decodeSized decodeBody (Scan.throw ColumnTrait.notNullable)

/-! ## Nullable values -/

namespace Nullable

/-- Decode from a pointer and a size, which may be negative. -/
def decodeBody (c : Class α) (ptr : Nat) (size : Int) : Scan Failure (Nullable α) Unit :=
  if 0 ≤ size then do
    Scan.on Nullable.value (fun value nullable => { nullable with value }) (c.decodeBody ptr size)
    Scan.update fun nullable => { nullable with isNull := false }
  else
    Scan.update fun nullable => ⟨c.reset nullable.value, true⟩

/-- The size is negative. -/
def decodeNull (c : Class α) : Scan Failure (Nullable α × Nat) Unit :=
  Scan.update fun s => (⟨c.reset s.1.value, true⟩, s.2 + 4)

/-- A nullable class, with the specialisation of `ColumnTrait` for it. -/
def column (c : Class α) : Class (Nullable α) where
  init := ⟨c.init, true⟩
  reset nullable := ⟨c.reset nullable.value, true⟩
  isNullable := true
  decodeBody := decodeBody c
  decode := decodeSized (decodeBody c) (decodeNull c)

end Nullable

/-! ## Staying inside -/

/-- Bodies are decoded without looking outside, and with a round for each four bytes at most. -/
def Class.BodyInside (c : Class α) : Prop := ∀ ptr size, 0 ≤ size →
  (c.decodeBody ptr size).Bounded ⟨ptr, size.toNat⟩ (size.toNat / 4) Failure.IsDecode

/-- How far the pointer is moved: past the size and the body, or past the size of null. -/
def Class.Moves (c : Class α) (memory : Memory) (ptr ptr' : Nat) : Prop :=
  (0 ≤ announcedSize memory ptr ∧ ptr' = ptr + 4 + (announcedSize memory ptr).toNat) ∨
    (announcedSize memory ptr < 0 ∧ c.isNullable = true ∧ ptr' = ptr + 4)

/-- What decoding a column leaves. When the column was decoded, the pointer is moved past the size and
the body, not past the end, and all bytes that were inspected are those of the size and the body. When
a `DecodeException` was thrown, the pointer is not moved. -/
structure Class.Leaves (c : Class α) (memory : Memory) (stop ptr : Nat)
    (o : Math.Outcome Failure (α × Nat) Unit) : Prop where
  decoded : o.result = .ok () → c.Moves memory ptr o.state.2 ∧ o.state.2 ≤ stop ∧
    ∀ t ∈ o.trace, t.Inside ⟨ptr, o.state.2 - ptr⟩
  thrown : ∀ failure, o.result = .error failure → failure.IsDecode ∧ o.state.2 = ptr ∧
    ∀ t ∈ o.trace, t.Inside ⟨ptr, stop - ptr⟩
  /-- The rounds are those of the body. -/
  rounds_eq : rounds o.trace = 0

/-- Bodies and columns are decoded without looking outside. -/
structure Class.StaysInside (c : Class α) : Prop where
  body : c.BodyInside
  decode : ∀ memory stop value ptr, c.Leaves memory stop ptr (c.decode stop memory (value, ptr))

section Decode

variable {decodeBody : Nat → Int → Scan Failure α Unit} {onNull : Scan Failure (α × Nat) Unit}
  {memory : Memory} {stop ptr : Nat} {value : α}

theorem decodeSized_short (h : stop < ptr + 4) :
    decodeSized decodeBody onNull stop memory (value, ptr) =
      ⟨[], (value, ptr), .error ColumnTrait.sizeNotEnough⟩ := by
  rw [decodeSized, Scan.get_bind, if_pos h]
  rfl

/-- With four bytes, the size decides. -/
theorem decodeSized_long (h : ¬ stop < ptr + 4) :
    decodeSized decodeBody onNull stop memory (value, ptr) =
      (decodeFound decodeBody onNull stop ptr (announcedSize memory ptr) memory
        (value, ptr)).after (inspected ptr 4) := by
  rw [decodeSized, Scan.get_bind, if_neg h, Scan.load_bind, announcedSize]

/-- A body that was found is decoded, and the pointer is moved if it can be. -/
theorem decodeFound_body {bodySize : Int} (hnonneg : 0 ≤ bodySize)
    (hfits : ptr + 4 + bodySize.toNat ≤ stop) :
    decodeFound decodeBody onNull stop ptr bodySize memory (value, ptr) =
      let o := decodeBody (ptr + 4) bodySize memory value
      ⟨o.trace.map (Traced.push ⟨ptr + 4, bodySize.toNat⟩),
        (o.state, match o.result with
          | .ok _ => ptr + (4 + bodySize.toNat)
          | .error _ => ptr),
        o.result⟩ := by
  have hfound : ¬ (stop < ptr ∨ (stop : Int) - ptr < 4 + bodySize) := by omega
  rw [decodeFound, if_pos hnonneg, if_neg hfound]
  cases hresult : (decodeBody (ptr + 4) bodySize memory value).result with
  | ok _ =>
    rw [Scan.bind_ok (by exact hresult)]
    simp [Scan.update, Math.Outcome.after, Scan.on, Scan.inBody, hresult]
  | error failure =>
    rw [Scan.bind_error (by exact hresult)]
    simp [Scan.on, Scan.inBody, hresult]

variable {c : Class α}

/-- What null leaves. -/
def Class.NullLeaves (c : Class α) (onNull : Scan Failure (α × Nat) Unit) : Prop :=
  ∀ memory value ptr, (onNull memory (value, ptr)).trace = [] ∧
    (match (onNull memory (value, ptr)).result with
    | .ok _ => c.isNullable = true ∧ (onNull memory (value, ptr)).state.2 = ptr + 4
    | .error failure => failure.IsDecode ∧ (onNull memory (value, ptr)).state.2 = ptr)

theorem leaves_decodeFound (hbody : c.BodyInside) (hnull : c.NullLeaves onNull)
    (hlong : ptr + 4 ≤ stop) :
    c.Leaves memory stop ptr ((decodeFound c.decodeBody onNull stop ptr (announcedSize memory ptr)
      memory (value, ptr)).after (inspected ptr 4)) := by
  have hheader : ∀ n, 4 ≤ n → ∀ t ∈ inspected ptr 4, t.Inside ⟨ptr, n⟩ := fun n hn t ht =>
    Math.inside_of_mem_inspected ht le_rfl (Nat.add_le_add_left hn ptr)
  by_cases hnonneg : 0 ≤ announcedSize memory ptr
  · by_cases hfits : ptr + 4 + (announcedSize memory ptr).toNat ≤ stop
    · rw [decodeFound_body hnonneg hfits]
      have hbounded := hbody (ptr + 4) _ hnonneg
      have hpushed : ∀ n, 4 + (announcedSize memory ptr).toNat ≤ n →
          ∀ t ∈ inspected ptr 4 ++ (c.decodeBody (ptr + 4) (announcedSize memory ptr) memory
            value).trace.map (Traced.push ⟨ptr + 4, (announcedSize memory ptr).toNat⟩),
          t.Inside ⟨ptr, n⟩ := by
        intro n hn t ht
        rcases List.mem_append.mp ht with hmem | hmem
        · exact hheader n (by omega) t hmem
        · exact (hbounded.inBody.inside memory value t hmem).mono (by simp) (by simp; omega)
      refine ⟨fun hok => ?_, fun failure herror => ?_, ?_⟩
      · dsimp only [Math.Outcome.after] at hok ⊢
        rw [hok]
        refine ⟨.inl ⟨hnonneg, by dsimp only; omega⟩, by dsimp only; omega, ?_⟩
        exact hpushed _ (by dsimp only; omega)
      · dsimp only [Math.Outcome.after] at herror ⊢
        rw [herror]
        exact ⟨hbounded.error memory value failure herror, rfl, hpushed _ (by omega)⟩
      · simp [Math.Outcome.after]
    · have hshort : stop < ptr ∨ (stop : Int) - ptr < 4 + announcedSize memory ptr := by omega
      rw [decodeFound, if_pos hnonneg, if_pos hshort]
      refine ⟨fun h => (by cases h), ?_, by simp [Math.Outcome.after, Scan.throw]⟩
      rintro failure ⟨⟩
      refine ⟨⟨_, rfl⟩, rfl, fun t ht => ?_⟩
      simp only [Math.Outcome.after, Scan.throw, List.append_nil] at ht
      exact hheader _ (by omega) t ht
  · rw [decodeFound, if_neg hnonneg]
    obtain ⟨htrace, hresult⟩ := hnull memory value ptr
    refine ⟨fun hok => ?_, fun failure herror => ?_, by simp [Math.Outcome.after, htrace]⟩
    · rw [show (onNull memory (value, ptr)).result = .ok () from hok] at hresult
      obtain ⟨hnullable, hptr⟩ := hresult
      have hstate : (onNull memory (value, ptr)).state.2 = ptr + 4 := hptr
      simp only [Math.Outcome.after, htrace, List.append_nil, hstate]
      exact ⟨.inr ⟨by omega, hnullable, rfl⟩, hlong, hheader _ (by omega)⟩
    · rw [show (onNull memory (value, ptr)).result = .error failure from herror] at hresult
      simp only [Math.Outcome.after, htrace, List.append_nil]
      exact ⟨hresult.1, hresult.2, hheader _ (by omega)⟩

/-- With its size in front, a column stays inside if bodies do. -/
theorem Class.StaysInside.of_body (hdecode : c.decode = decodeSized c.decodeBody onNull)
    (hbody : c.BodyInside) (hnull : c.NullLeaves onNull) : c.StaysInside where
  body := hbody
  decode memory stop value ptr := by
    rw [hdecode]
    by_cases hshort : stop < ptr + 4
    · rw [decodeSized_short hshort]
      refine ⟨fun h => (by cases h), ?_, rfl⟩
      rintro failure ⟨⟩
      exact ⟨⟨_, rfl⟩, rfl, fun _ h => absurd h List.not_mem_nil⟩
    · rw [decodeSized_long hshort]
      exact leaves_decodeFound hbody hnull (by omega)

end Decode

variable {c : Class α} {init : α} {reset : α → α} {decodeBody : Nat → Int → Scan Failure α Unit}

theorem column_staysInside (hbody : (column init reset decodeBody).BodyInside) :
    (column init reset decodeBody).StaysInside :=
  .of_body rfl hbody fun _ _ _ => ⟨rfl, ⟨_, rfl⟩, rfl⟩

namespace Nullable

/-- A body that is not null is the body of the value. -/
theorem bodyInside (h : c.BodyInside) : (column c).BodyInside := by
  intro ptr size hnonneg
  show (decodeBody c ptr size).Bounded _ _ _
  rw [decodeBody, if_pos hnonneg]
  exact (h ptr size hnonneg).on.bind fun _ => .update _

theorem staysInside (h : c.StaysInside) : (column c).StaysInside :=
  .of_body rfl (bodyInside h.body) fun _ _ _ => ⟨rfl, rfl, rfl⟩

end Nullable

end Pointer

end CqlDriver
