import Mathlib.Tactic.Linarith
import CqlDriver.Column.DecimalArithmetic

/-!
# Comparing decimals

The unscaled value of the smaller scale is multiplied by a power of ten before it is
compared. The product wraps, and the scale difference is taken in 32 bits, so a decimal
column can deliver two decimals that are compared wrongly.

A comparison is right as long as the product fits. When it wraps, it is right if the wrapped
product is still on the same side of the other value.

## Main definitions

* `Decimal.compareOperation` — the six operators
* `Decimal.ComparesRight` — all of them agree with the rational numbers
* `Decimal.ComparesSafely` — the decimals that are compared as they should be

## Main results

* `Decimal.exact_lt_iff`, `Decimal.exact_eq_iff` — the order of decimals on integers
* `Decimal.comparesRight_iff_comparesSafely` — the operators are right exactly then
* `Decimal.comparisons` — and on decimals that compare safely they are a total order
-/

namespace CqlDriver.Decimal

open Math (Decode Fits fits_toInt)

/-! ## The operators -/

/-- The comparison operators. -/
def compareOperation (op : BitVec 64 → BitVec 64 → Bool) (a b : DecimalDataType) : Bool :=
  let scaleDiff := a.1 - b.1
  if 0 < scaleDiff.toInt then
    op a.2 (b.2 * powerOfTen scaleDiff)
  else if scaleDiff.toInt < 0 then
    op (a.2 * powerOfTen (-scaleDiff)) b.2
  else
    op a.2 b.2

def eq (a b : DecimalDataType) : Bool := compareOperation (fun x y => x == y) a b

def ne (a b : DecimalDataType) : Bool := compareOperation (fun x y => x != y) a b

def gt (a b : DecimalDataType) : Bool := compareOperation (fun x y => y.slt x) a b

def lt (a b : DecimalDataType) : Bool := compareOperation (fun x y => x.slt y) a b

def ge (a b : DecimalDataType) : Bool := compareOperation (fun x y => y.sle x) a b

def le (a b : DecimalDataType) : Bool := compareOperation (fun x y => x.sle y) a b

/-- All operators agree with the comparison of the rational numbers. -/
structure ComparesRight (a b : DecimalDataType) : Prop where
  eq : Decimal.eq a b = true ↔ exact a = exact b
  ne : Decimal.ne a b = true ↔ exact a ≠ exact b
  lt : Decimal.lt a b = true ↔ exact a < exact b
  le : Decimal.le a b = true ↔ exact a ≤ exact b
  gt : Decimal.gt a b = true ↔ exact a > exact b
  ge : Decimal.ge a b = true ↔ exact a ≥ exact b

/-- A decimal that a column delivers. -/
def Delivered (x : DecimalDataType) : Prop :=
  ∃ body : Bytes, ∀ old, ∃ left, decodeBody ⟨old, body⟩ = .ok () ⟨x, left⟩

/-- Every scale and every unscaled value can be delivered. -/
theorem delivered (x : DecimalDataType) : Delivered x := by
  let value : Value := x
  have hlength : (encodeBody value []).length < 2 ^ 31 := by
    have hscale : (IntegerBase.toBytes value.1).length = 4 := IntegerBase.length_toBytes value.1
    have hunscaled : (IntegerBase.toBytes value.2).length = 8 := IntegerBase.length_toBytes value.2
    have htrim := VarInt.length_trim_le (IntegerBase.toBytes value.2)
    rw [encodeBody, VarInt.encodeBody, IntegerBase.encodeBody, List.length_append,
      List.length_append, List.length_nil]
    omega
  refine ⟨encodeBody value [], fun old => ?_⟩
  obtain ⟨stored, left, hdecode, rfl⟩ := bodyRoundTrip.decodeBody_encodeBody value trivial hlength old
  exact ⟨left, hdecode⟩

/-! ## Products that wrap -/

/-- A product `p` that fits, or is on the same side of `x` after it has wrapped. -/
def KeepsSide (x p : Int) : Prop :=
  Fits 64 p ∨ (2 ^ 63 ≤ p ∧ x < p.bmod (2 ^ 64)) ∨ (p < -2 ^ 63 ∧ p.bmod (2 ^ 64) < x)

/-- With a scale difference that wraps, the value `y` of the larger scale is multiplied, to
`p`, instead of the value `x` of the smaller scale, against which it vanishes. -/
def KeepsSideOfLarge (x y p : Int) : Prop :=
  (x = 0 ∧ (p.bmod (2 ^ 64) < 0 ↔ y < 0) ∧ (p.bmod (2 ^ 64) = 0 ↔ y = 0)) ∨
    (0 < x ∧ p.bmod (2 ^ 64) < x) ∨ (x < 0 ∧ x < p.bmod (2 ^ 64))

instance (x p : Int) : Decidable (KeepsSide x p) := inferInstanceAs (Decidable (_ ∨ _))

instance (x y p : Int) : Decidable (KeepsSideOfLarge x y p) :=
  inferInstanceAs (Decidable (_ ∨ _))

/-- The decimals that are compared as they should be. -/
def ComparesSafely (a b : DecimalDataType) : Prop :=
  let d := a.1.toInt - b.1.toInt
  if 2 ^ 31 ≤ d then
    KeepsSideOfLarge b.2.toInt a.2.toInt (a.2.toInt * 10 ^ (2 ^ 32 - d).toNat)
  else if d < -2 ^ 31 then
    KeepsSideOfLarge a.2.toInt b.2.toInt (b.2.toInt * 10 ^ (2 ^ 32 + d).toNat)
  else if 0 ≤ d then KeepsSide a.2.toInt (b.2.toInt * 10 ^ d.toNat)
  else KeepsSide b.2.toInt (a.2.toInt * 10 ^ (-d).toNat)

/-- The order of two integers is that of two others. -/
def SameOrder (l r m n : Int) : Prop := (l < r ↔ m < n) ∧ (l = r ↔ m = n)

theorem sameOrder_iff_keepsSide (x : BitVec 64) (p : Int) :
    SameOrder x.toInt (p.bmod (2 ^ 64)) x.toInt p ↔ KeepsSide x.toInt p := by
  obtain ⟨hge, hlt⟩ := fits_toInt x
  rw [SameOrder, KeepsSide]
  by_cases hfits : Fits 64 p
  · rw [Math.bmod_of_fits (by decide) hfits]
    simp [hfits]
  · simp only [hfits, false_or]
    rw [Fits] at hfits
    generalize p.bmod (2 ^ 64) = wrapped
    omega

theorem sameOrder_swap {l r m n : Int} : SameOrder l r m n ↔ SameOrder r l n m := by
  rw [SameOrder, SameOrder]
  omega

/-- Against a power that is above all values only the sign of the other value counts. -/
theorem sameOrder_iff_keepsSideOfLarge (x y : BitVec 64) (p : Int) {e : Nat} (he : 20 ≤ e) :
    SameOrder (p.bmod (2 ^ 64)) x.toInt y.toInt (x.toInt * 10 ^ e) ↔
      KeepsSideOfLarge x.toInt y.toInt p := by
  obtain ⟨hx, hx'⟩ := fits_toInt x
  obtain ⟨hy, hy'⟩ := fits_toInt y
  have hlarge : (2 : Int) ^ 64 < 10 ^ e := by exact_mod_cast Math.lt_tenPow he
  rw [SameOrder, KeepsSideOfLarge]
  generalize p.bmod (2 ^ 64) = wrapped
  rcases lt_trichotomy x.toInt 0 with hneg | hzero | hpos
  · have hproduct : x.toInt * 10 ^ e ≤ -10 ^ e := by nlinarith
    omega
  · rw [hzero, Int.zero_mul]
    omega
  · have hproduct : (10 : Int) ^ e ≤ x.toInt * 10 ^ e := by nlinarith
    omega

/-! ## When the operators are right -/

variable {a b : DecimalDataType}

/-- The decimals as integers at the larger scale. -/
def atLargerScale (a b : DecimalDataType) : Int × Int :=
  (a.2.toInt * 10 ^ (max a.1.toInt b.1.toInt - a.1.toInt).toNat,
    b.2.toInt * 10 ^ (max a.1.toInt b.1.toInt - b.1.toInt).toNat)

theorem exact_lt_iff : exact a < exact b ↔ (atLargerScale a b).1 < (atLargerScale a b).2 := by
  have hpow : (0 : ℚ) < 10 ^ (-max a.1.toInt b.1.toInt) := zpow_pos (by norm_num) _
  rw [exact_at (le_max_left a.1.toInt b.1.toInt), exact_at (le_max_right a.1.toInt b.1.toInt),
    mul_lt_mul_iff_left₀ hpow, Int.cast_lt]
  rfl

theorem exact_eq_iff : exact a = exact b ↔ (atLargerScale a b).1 = (atLargerScale a b).2 := by
  have hpow : (10 : ℚ) ^ (-max a.1.toInt b.1.toInt) ≠ 0 := zpow_ne_zero _ (by norm_num)
  rw [exact_at (le_max_left a.1.toInt b.1.toInt), exact_at (le_max_right a.1.toInt b.1.toInt),
    mul_left_inj' hpow, Int.cast_inj]
  rfl

/-- The values that the operators are applied to. -/
def compared (a b : DecimalDataType) : BitVec 64 × BitVec 64 :=
  let scaleDiff := a.1 - b.1
  if 0 < scaleDiff.toInt then (a.2, b.2 * powerOfTen scaleDiff)
  else if scaleDiff.toInt < 0 then (a.2 * powerOfTen (-scaleDiff), b.2)
  else (a.2, b.2)

theorem compareOperation_eq (op : BitVec 64 → BitVec 64 → Bool) :
    compareOperation op a b = op (compared a b).1 (compared a b).2 := by
  rw [compareOperation, compared]
  split
  · rfl
  split
  · rfl
  · rfl

theorem exact_le_iff : exact a ≤ exact b ↔ (atLargerScale a b).1 ≤ (atLargerScale a b).2 := by
  rw [le_iff_lt_or_eq, exact_lt_iff, exact_eq_iff, ← le_iff_lt_or_eq]

/-- All operators are right when the values they are applied to are in the right order. -/
theorem comparesRight_iff_sameOrder : ComparesRight a b ↔
    SameOrder (compared a b).1.toInt (compared a b).2.toInt (atLargerScale a b).1
      (atLargerScale a b).2 := by
  have heq : Decimal.eq a b = true ↔ (compared a b).1.toInt = (compared a b).2.toInt := by
    rw [Decimal.eq, compareOperation_eq, beq_iff_eq, BitVec.toInt_inj]
  have hlt : Decimal.lt a b = true ↔ (compared a b).1.toInt < (compared a b).2.toInt := by
    rw [Decimal.lt, compareOperation_eq, BitVec.slt_iff_toInt_lt]
  constructor
  · intro hright
    exact ⟨by rw [← hlt, hright.lt, exact_lt_iff], by rw [← heq, hright.eq, exact_eq_iff]⟩
  · rintro ⟨hless, hsame⟩
    have hle : Decimal.le a b = true ↔ (compared a b).1.toInt ≤ (compared a b).2.toInt := by
      rw [Decimal.le, compareOperation_eq, BitVec.sle_iff_toInt_le]
    have hne : Decimal.ne a b = true ↔ (compared a b).1.toInt ≠ (compared a b).2.toInt := by
      rw [Decimal.ne, compareOperation_eq, bne_iff_ne, Ne, ← BitVec.toInt_inj]
    have hgt : Decimal.gt a b = true ↔ (compared a b).2.toInt < (compared a b).1.toInt := by
      rw [Decimal.gt, compareOperation_eq, BitVec.slt_iff_toInt_lt]
    have hge : Decimal.ge a b = true ↔ (compared a b).2.toInt ≤ (compared a b).1.toInt := by
      rw [Decimal.ge, compareOperation_eq, BitVec.sle_iff_toInt_le]
    have hnotLess := not_congr hless
    refine ⟨?_, ?_, ?_, ?_, ?_, ?_⟩
    · rw [heq, hsame, exact_eq_iff]
    · rw [hne, Ne, hsame, ← exact_eq_iff]
    · rw [hlt, hless, exact_lt_iff]
    · rw [hle, le_iff_lt_or_eq, hless, hsame, exact_le_iff, ← le_iff_lt_or_eq]
    · rw [hgt, gt_iff_lt, ← not_le, ← not_le, exact_le_iff, le_iff_lt_or_eq, hless, hsame,
        ← le_iff_lt_or_eq]
    · rw [hge, ge_iff_le, ← not_lt, ← not_lt, exact_lt_iff, hless]

/-- The product of a comparison, as it wraps. -/
theorem compared_of_pos (h : 0 < (a.1 - b.1).toInt) : (compared a b).1.toInt = a.2.toInt ∧
    (compared a b).2.toInt = (b.2.toInt * 10 ^ (a.1 - b.1).toInt.toNat).bmod (2 ^ 64) := by
  simp only [compared, if_pos h, powerOfTen_of_pos h, ← Math.toInt_intCast, true_and]
  push_cast
  rw [Math.intCast_toInt]

theorem compared_of_neg (h : (a.1 - b.1).toInt < 0) : (compared a b).1.toInt =
      (a.2.toInt * 10 ^ (-(a.1 - b.1).toInt).toNat).bmod (2 ^ 64) ∧
    (compared a b).2.toInt = b.2.toInt := by
  simp only [compared, if_neg (not_lt.mpr h.le), if_pos h, powerOfTen_neg h, ← Math.toInt_intCast,
    and_true]
  push_cast
  rw [Math.intCast_toInt]

/-- At one scale nothing is multiplied, which is a product by one. -/
theorem compared_of_nonneg (h : 0 ≤ (a.1 - b.1).toInt) : (compared a b).1.toInt = a.2.toInt ∧
    (compared a b).2.toInt = (b.2.toInt * 10 ^ (a.1 - b.1).toInt.toNat).bmod (2 ^ 64) := by
  by_cases hpos : 0 < (a.1 - b.1).toInt
  · exact compared_of_pos hpos
  · have hzero : (a.1 - b.1).toInt = 0 := by omega
    rw [hzero, Int.toNat_zero, pow_zero, mul_one,
      Math.bmod_of_fits (by decide) (fits_toInt b.2)]
    simp only [compared, hzero, lt_irrefl, if_false, and_self]

/-- The operators are right exactly for the decimals that compare safely. -/
theorem comparesRight_iff_comparesSafely (a b : DecimalDataType) :
    ComparesRight a b ↔ ComparesSafely a b := by
  have hdiff := toInt_sub_scales a.1 b.1
  obtain ⟨ha, ha'⟩ := fits_toInt a.1
  obtain ⟨hb, hb'⟩ := fits_toInt b.1
  rw [comparesRight_iff_sameOrder, ComparesSafely, atLargerScale]
  by_cases hlarge : 2 ^ 31 ≤ a.1.toInt - b.1.toInt
  · -- the difference becomes negative
    rw [if_pos hlarge] at hdiff
    have hmax : max a.1.toInt b.1.toInt = a.1.toInt := max_eq_left (by omega)
    have hexp : -(a.1 - b.1).toInt = 2 ^ 32 - (a.1.toInt - b.1.toInt) := by omega
    obtain ⟨hleft, hright⟩ := compared_of_neg (a := a) (b := b) (by omega)
    rw [if_pos hlarge, hleft, hright, hexp, hmax, Int.sub_self, Int.toNat_zero, pow_zero, mul_one]
    exact sameOrder_iff_keepsSideOfLarge b.2 a.2 _ (by omega)
  rw [if_neg hlarge] at hdiff ⊢
  by_cases hsmall : a.1.toInt - b.1.toInt < -2 ^ 31
  · -- the difference becomes positive
    rw [if_pos hsmall] at hdiff
    have hmax : max a.1.toInt b.1.toInt = b.1.toInt := max_eq_right (by omega)
    have hexp : (a.1 - b.1).toInt = 2 ^ 32 + (a.1.toInt - b.1.toInt) := by omega
    obtain ⟨hleft, hright⟩ := compared_of_pos (a := a) (b := b) (by omega)
    rw [if_pos hsmall, hleft, hright, hexp, hmax, Int.sub_self, Int.toNat_zero, pow_zero, mul_one,
      sameOrder_swap]
    exact sameOrder_iff_keepsSideOfLarge a.2 b.2 _ (by omega)
  rw [if_neg hsmall] at hdiff ⊢
  by_cases hnonneg : 0 ≤ a.1.toInt - b.1.toInt
  · have hmax : max a.1.toInt b.1.toInt = a.1.toInt := max_eq_left (by omega)
    obtain ⟨hleft, hright⟩ := compared_of_nonneg (a := a) (b := b) (by omega)
    rw [if_pos hnonneg, ← sameOrder_iff_keepsSide, hleft, hright, hdiff, hmax, Int.sub_self,
      Int.toNat_zero, pow_zero, mul_one]
  · have hmax : max a.1.toInt b.1.toInt = b.1.toInt := max_eq_right (by omega)
    have hexp : b.1.toInt - a.1.toInt = -(a.1.toInt - b.1.toInt) := by omega
    obtain ⟨hleft, hright⟩ := compared_of_neg (a := a) (b := b) (by omega)
    rw [if_neg hnonneg, ← sameOrder_iff_keepsSide, sameOrder_swap, hleft, hright, hdiff, hmax, hexp,
      Int.sub_self, Int.toNat_zero, pow_zero, mul_one]

/-! ## The order -/

/-- On these decimals `==` is an equivalence, and `<` a strict total order up to it. -/
structure TotallyOrdered (S : Set DecimalDataType) : Prop where
  refl : ∀ a ∈ S, eq a a = true
  symm : ∀ a ∈ S, ∀ b ∈ S, eq a b = true → eq b a = true
  trans : ∀ a ∈ S, ∀ b ∈ S, ∀ c ∈ S, eq a b = true → eq b c = true → eq a c = true
  irrefl : ∀ a ∈ S, ∀ b ∈ S, eq a b = true → lt a b = false
  asymm : ∀ a ∈ S, ∀ b ∈ S, lt a b = true → lt b a = false
  lt_trans : ∀ a ∈ S, ∀ b ∈ S, ∀ c ∈ S, lt a b = true → lt b c = true → lt a c = true
  total : ∀ a ∈ S, ∀ b ∈ S, lt a b = true ∨ eq a b = true ∨ lt b a = true

/-- An order that agrees with the rational numbers is as total as theirs. -/
theorem totallyOrdered_of_comparesRight {S : Set DecimalDataType}
    (hright : ∀ a ∈ S, ∀ b ∈ S, ComparesRight a b) : TotallyOrdered S where
  refl a ha := (hright a ha a ha).eq.mpr rfl
  symm a ha b hb hab := (hright b hb a ha).eq.mpr ((hright a ha b hb).eq.mp hab).symm
  trans a ha b hb c hc hab hbc :=
    (hright a ha c hc).eq.mpr (((hright a ha b hb).eq.mp hab).trans ((hright b hb c hc).eq.mp hbc))
  irrefl a ha b hb hab := by
    rw [← Bool.not_eq_true, (hright a ha b hb).lt, (hright a ha b hb).eq.mp hab]
    exact lt_irrefl _
  asymm a ha b hb hab := by
    rw [← Bool.not_eq_true, (hright b hb a ha).lt]
    exact lt_asymm ((hright a ha b hb).lt.mp hab)
  lt_trans a ha b hb c hc hab hbc :=
    (hright a ha c hc).lt.mpr (((hright a ha b hb).lt.mp hab).trans ((hright b hb c hc).lt.mp hbc))
  total a ha b hb := by
    rw [(hright a ha b hb).lt, (hright a ha b hb).eq, (hright b hb a ha).lt]
    exact lt_trichotomy (exact a) (exact b)

/-- The operators are right for all pairs, and so they order these decimals. -/
structure OrdersRight (S : Set DecimalDataType) : Prop where
  comparesRight : ∀ a ∈ S, ∀ b ∈ S, ComparesRight a b
  totallyOrdered : TotallyOrdered S

/-- Two decimals are compared right, and a set of decimals is ordered right, exactly when they
compare safely. -/
theorem comparisons (a b : DecimalDataType) (S : Set DecimalDataType) :
    (ComparesRight a b ↔ ComparesSafely a b) ∧
      (OrdersRight S ↔ ∀ x ∈ S, ∀ y ∈ S, ComparesSafely x y) := by
  refine ⟨comparesRight_iff_comparesSafely a b, ?_, ?_⟩
  · intro hright x hx y hy
    exact (comparesRight_iff_comparesSafely x y).mp (hright.comparesRight x hx y hy)
  · intro hsafe
    have hright : ∀ x ∈ S, ∀ y ∈ S, ComparesRight x y := fun x hx y hy =>
      (comparesRight_iff_comparesSafely x y).mpr (hsafe x hx y hy)
    exact ⟨hright, totallyOrdered_of_comparesRight hright⟩

/-- 1E-19 is below 1, and is not compared so: 10^19 becomes negative. -/
theorem not_comparesRight_wrapped : Delivered (19, 1) ∧ Delivered (0, 1) ∧
    Decimal.lt (19, 1) (0, 1) = false ∧ ¬ ComparesRight (19, 1) (0, 1) := by
  refine ⟨delivered _, delivered _, by decide, ?_⟩
  rw [comparesRight_iff_comparesSafely, ComparesSafely]
  decide

end CqlDriver.Decimal
