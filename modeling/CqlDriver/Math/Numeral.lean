import Mathlib.Algebra.Field.Rat
import Mathlib.Algebra.Order.Ring.Nat

/-!
# Decimal numerals

A numeral is an optional minus sign, digits, and possibly a point with more digits after
it. Zeros may lead.

## Main definitions

* `readNumeral` — the number of a numeral and its digits after the point
* `writeNatural`, `writeInteger` — the shortest digits

## Main results

* `readUnsigned_point` — the digits on both sides of a point
* `readNumeral_signed` — a sign in front
-/

namespace CqlDriver.Math

/-- What a numeral denotes, and how many digits it has after the point. -/
structure Numeral where
  value : ℚ
  places : Nat
  deriving DecidableEq

/-- At least one digit, and nothing else. -/
def IsDigits (text : List Char) : Prop := text ≠ [] ∧ ∀ c ∈ text, c.isDigit = true

instance (text : List Char) : Decidable (IsDigits text) := inferInstanceAs (Decidable (_ ∧ _))

def readDigits (text : List Char) : Option Nat :=
  if IsDigits text then some (Nat.ofDigitChars 10 text 0) else none

/-- Digits, or digits on both sides of a point. -/
def readUnsigned (text : List Char) : Option Numeral :=
  match text.dropWhile (· != '.') with
  | [] => (readDigits text).map fun whole => ⟨whole, 0⟩
  | _ :: fraction => do
    let whole ← readDigits (text.takeWhile (· != '.'))
    let part ← readDigits fraction
    return ⟨whole + part / 10 ^ fraction.length, fraction.length⟩

def readNumeral (text : List Char) : Option Numeral :=
  match text with
  | '-' :: text => (readUnsigned text).map fun numeral => { numeral with value := -numeral.value }
  | _ => readUnsigned text

def writeNatural (n : Nat) : List Char := Nat.toDigits 10 n

def writeInteger (i : Int) : List Char :=
  (if i < 0 then ['-'] else []) ++ writeNatural i.natAbs

/-! ## Digits -/

section Digits

variable {text fraction : List Char} {n k : Nat}

theorem readDigits_of_isDigits (h : IsDigits text) :
    readDigits text = some (Nat.ofDigitChars 10 text 0) := if_pos h

theorem isDigits_writeNatural (n : Nat) : IsDigits (writeNatural n) :=
  ⟨Nat.toDigits_ne_nil, fun _ hmem => Nat.isDigit_of_mem_toDigits (by decide) (by decide) hmem⟩

theorem isDigit_of_mem_zeros {c : Char} (h : c ∈ List.replicate k '0') : c.isDigit = true := by
  rw [List.eq_of_mem_replicate h]
  rfl

/-- Zeros in front do not count. -/
theorem isDigits_zeros_append (h : IsDigits text) : IsDigits (List.replicate k '0' ++ text) := by
  refine ⟨by simp [h.1], fun c hmem => ?_⟩
  rcases List.mem_append.mp hmem with hzero | hdigit
  · exact isDigit_of_mem_zeros hzero
  · exact h.2 c hdigit

theorem ofDigitChars_zeros_append :
    Nat.ofDigitChars 10 (List.replicate k '0' ++ text) 0 = Nat.ofDigitChars 10 text 0 := by
  simp [Nat.ofDigitChars_append]

/-- Zeros behind are powers of ten. -/
theorem isDigits_append_zeros (h : IsDigits text) : IsDigits (text ++ List.replicate k '0') := by
  refine ⟨by simp [h.1], fun c hmem => ?_⟩
  rcases List.mem_append.mp hmem with hdigit | hzero
  · exact h.2 c hdigit
  · exact isDigit_of_mem_zeros hzero

theorem ofDigitChars_append_zeros :
    Nat.ofDigitChars 10 (text ++ List.replicate k '0') 0 = 10 ^ k * Nat.ofDigitChars 10 text 0 := by
  simp [Nat.ofDigitChars_append]

@[simp] theorem ofDigitChars_writeNatural : Nat.ofDigitChars 10 (writeNatural n) 0 = n :=
  Nat.ofDigitChars_ten_toDigits

theorem length_writeNatural_le (hk : 0 < k) (h : n < 10 ^ k) : (writeNatural n).length ≤ k :=
  (Nat.length_toDigits_le_iff (by decide) hk).mpr h

/-- No digit is a point or a sign. -/
theorem ne_point_of_isDigits (h : IsDigits text) : ∀ c ∈ text, (c != '.') = true := by
  intro c hmem
  rw [bne_iff_ne]
  rintro rfl
  exact absurd (h.2 _ hmem) (by decide)

end Digits

/-! ## Numerals -/

section Numerals

variable {text fraction : List Char}

theorem readUnsigned_digits (h : IsDigits text) :
    readUnsigned text = some ⟨Nat.ofDigitChars 10 text 0, 0⟩ := by
  have hall : text.dropWhile (· != '.') = [] := by
    have happend := @List.dropWhile_append_of_pos _ _ text [] (ne_point_of_isDigits h)
    rwa [List.append_nil] at happend
  simp [readUnsigned, hall, readDigits_of_isDigits h]

theorem readUnsigned_point (h : IsDigits text) (hfraction : IsDigits fraction) :
    readUnsigned (text ++ '.' :: fraction) = some
      ⟨Nat.ofDigitChars 10 text 0 + Nat.ofDigitChars 10 fraction 0 / 10 ^ fraction.length,
        fraction.length⟩ := by
  have hpoint := ne_point_of_isDigits h
  have hdrop : (text ++ '.' :: fraction).dropWhile (· != '.') = '.' :: fraction := by
    rw [List.dropWhile_append_of_pos hpoint]
    rfl
  have htake : (text ++ '.' :: fraction).takeWhile (· != '.') = text := by
    rw [List.takeWhile_append_of_pos hpoint]
    simp
  simp [readUnsigned, hdrop, htake, readDigits_of_isDigits h, readDigits_of_isDigits hfraction]

/-- A sign in front of something that starts with a digit. -/
theorem readNumeral_signed (negative : Prop) [Decidable negative] (h : IsDigits text)
    (rest : List Char) :
    readNumeral ((if negative then ['-'] else []) ++ (text ++ rest)) =
      (readUnsigned (text ++ rest)).map fun numeral =>
        { numeral with value := if negative then -numeral.value else numeral.value } := by
  by_cases hnegative : negative
  · simp [readNumeral, hnegative]
  · obtain ⟨c, tail, rfl⟩ := List.exists_cons_of_ne_nil h.1
    have hne : c ≠ '-' := by
      rintro rfl
      exact absurd (h.2 _ List.mem_cons_self) (by decide)
    simp [readNumeral, hnegative, hne]

/-- The magnitude of an integer with its sign. -/
theorem signed_natAbs (i : Int) :
    (if i < 0 then -(i.natAbs : ℚ) else i.natAbs) = i := by
  split
  · next hneg =>
    have hcast : (i.natAbs : Int) = -i := Int.ofNat_natAbs_of_nonpos hneg.le
    rw [← Int.cast_natCast, hcast, Int.cast_neg, neg_neg]
  · next hnonneg =>
    have hcast : (i.natAbs : Int) = i := Int.natAbs_of_nonneg (not_lt.mp hnonneg)
    rw [← Int.cast_natCast, hcast]

/-- An integer, and zeros behind it. -/
theorem readNumeral_integer_zeros (i : Int) (k : Nat) :
    readNumeral (writeInteger i ++ List.replicate k '0') = some ⟨i * 10 ^ k, 0⟩ := by
  have hdigits := isDigits_writeNatural i.natAbs
  rw [writeInteger, List.append_assoc, readNumeral_signed _ hdigits,
    readUnsigned_digits (isDigits_append_zeros hdigits), ofDigitChars_append_zeros,
    ofDigitChars_writeNatural, ← signed_natAbs i]
  by_cases hneg : i < 0
  · simp [hneg, mul_comm]
  · simp [hneg, mul_comm]

/-- A natural number, and another one after a point that is padded to `k` digits. -/
theorem readNumeral_point (negative : Prop) [Decidable negative] (whole : Nat) {part k : Nat}
    (hk : 0 < k) (hpart : part < 10 ^ k) :
    readNumeral ((if negative then ['-'] else []) ++ (writeNatural whole ++ '.' ::
        (List.replicate (k - (writeNatural part).length) '0' ++ writeNatural part))) =
      some ⟨if negative then -(whole + part / 10 ^ k) else whole + part / 10 ^ k, k⟩ := by
  have hlength := length_writeNatural_le hk hpart
  rw [readNumeral_signed _ (isDigits_writeNatural whole),
    readUnsigned_point (isDigits_writeNatural whole)
      (isDigits_zeros_append (isDigits_writeNatural part)),
    ofDigitChars_zeros_append, ofDigitChars_writeNatural, ofDigitChars_writeNatural,
    List.length_append, List.length_replicate, Nat.sub_add_cancel hlength]
  rfl

end Numerals

end CqlDriver.Math
