import CqlDriver.Column.DecimalArithmetic
import CqlDriver.Math.Truncate

/-!
# Scaling and dividing decimals

`scale` to a smaller scale and `/=` with a negative scale divide the unscaled value by a
power of ten. The power is unsigned, so a negative value is converted before it is divided;
and it is held modulo 2^64, so from 10^20 on it is another number and from 10^64 on it is
zero.

## Main definitions

* `Decimal.ScalesRight`, `Decimal.DividesRight` — what scaling and dividing should do
* `Decimal.ScalesSafely`, `Decimal.DividesSafely` — when they do it

## Main results

* `Decimal.scalesRight_and_dividesRight` — they do it exactly then
-/

namespace CqlDriver.Decimal

open Math (Fits fits_toInt truncate)

variable {x a b : DecimalDataType} {t : BitVec 32}

/-- To a smaller scale the unscaled value is truncated toward zero, to a larger one it is
exact when it fits, and nothing is divided by zero. -/
structure ScalesRight (x : DecimalDataType) (t : BitVec 32) : Prop where
  noZeroDivision : scale x t ≠ .error .divisionByZero
  smaller (_ : t.toInt ≤ x.1.toInt) : ∃ u, scale x t = .ok (t, u) ∧
    u.toInt = truncate (x.2.toInt / 10 ^ (x.1.toInt - t.toInt).toNat)
  larger (_ : x.1.toInt ≤ t.toInt) (_ : Fits 64 (x.2.toInt * 10 ^ (t.toInt - x.1.toInt).toNat)) :
    ∃ u, scale x t = .ok (t, u) ∧ u.toInt = x.2.toInt * 10 ^ (t.toInt - x.1.toInt).toNat

/-- The quotient is at the scale of `a` and truncated toward zero when the adjusted
unscaled value fits, and nothing is divided by zero. -/
structure DividesRight (a b : DecimalDataType) : Prop where
  noZeroDivision : div a b ≠ .error .divisionByZero
  quotient (_ : 0 ≤ b.1.toInt → Fits 64 (a.2.toInt * 10 ^ b.1.toInt.toNat)) :
    ∃ u, div a b = .ok (a.1, u) ∧ u.toInt = truncate (exact a / exact b * 10 ^ a.1.toInt)

/-- The scales and values that `scale` handles. -/
def ScalesSafely (x : DecimalDataType) (t : BitVec 32) : Prop :=
  let d := x.1.toInt - t.toInt
  if 2 ^ 31 ≤ d then (2 ^ 64 : Int) ∣ x.2.toInt * 10 ^ (2 ^ 32 - d).toNat
  else if 0 < d then
    (0 ≤ x.2.toInt ∧ d ≤ 19) ∨ x.2.toNat < 10 ^ d.toNat % 2 ^ 64
  else -2 ^ 31 ≤ d ∨ d + 2 ^ 32 < 64

/-- The operands that `/` handles. -/
def DividesSafely (a b : DecimalDataType) : Prop :=
  if 0 ≤ b.1.toInt then ¬ (a.2.toInt * 10 ^ b.1.toInt.toNat = -2 ^ 63 ∧ b.2.toInt = -1)
  else (0 ≤ a.2.toInt ∧ -b.1.toInt ≤ 19) ∨
    a.2.toNat < b.2.toInt.natAbs * (10 ^ (-b.1.toInt).toNat % 2 ^ 64)

/-! ## Divisions by a power of ten -/

/-- A power that was lost. -/
theorem divUnsigned_eq_error {u p : BitVec 64} {e : Nat} (hp : p.toNat = 10 ^ e % 2 ^ 64)
    (he : 64 ≤ e) : divUnsigned u p = .error .divisionByZero := by
  have hzero : p = 0 := by
    apply BitVec.eq_of_toNat_eq
    rw [hp, Math.mod_tenPow_eq_zero_iff.mpr he]
    rfl
  exact if_pos hzero

/-- The quotient is below half of the range, so it is not negative. -/
theorem divUnsigned_eq_ok {u p : BitVec 64} {e : Nat} (hp : p.toNat = 10 ^ e % 2 ^ 64)
    (hpos : 0 < e) (he : e < 64) :
    ∃ q, divUnsigned u p = .ok q ∧ q.toInt = (u.toNat / (10 ^ e % 2 ^ 64) : Nat) := by
  have hpower := Math.mod_tenPow_pos he
  have hne : p ≠ 0 := by
    rintro rfl
    have hzero : (0 : BitVec 64).toNat = 0 := rfl
    omega
  have htwo : 2 ≤ 10 ^ e % 2 ^ 64 := by
    have hdvd : 2 ∣ 10 ^ e % 2 ^ 64 :=
      (dvd_pow_self 2 hpos.ne').trans (Math.twoPow_dvd_mod_tenPow he.le)
    exact Nat.le_of_dvd hpower hdvd
  have hquotient : (u / p).toNat = u.toNat / (10 ^ e % 2 ^ 64) := by
    rw [BitVec.toNat_udiv, hp]
  have hsmall : u.toNat / (10 ^ e % 2 ^ 64) < 2 ^ 63 := by
    have hlt := u.isLt
    rw [Nat.div_lt_iff_lt_mul hpower]
    omega
  refine ⟨u / p, if_neg hne, ?_⟩
  rw [BitVec.toInt_eq_toNat_cond, hquotient, if_pos (by omega)]

/-! ## Scaling -/

theorem truncate_div_tenPow (u : Int) (e : Nat) :
    truncate ((u : ℚ) / 10 ^ e) = u.tdiv (10 ^ e) := by
  rw [← Math.truncate_div]
  push_cast
  rfl

/-- The division of `scale`. -/
theorem scale_of_pos (h : 0 < (x.1 - t).toInt) :
    scale x t = (divUnsigned x.2 (powerOfTen (x.1 - t))).map fun u => (t, u) := by
  rw [scale]
  simp only [if_pos h]
  cases divUnsigned x.2 (powerOfTen (x.1 - t)) with
  | ok u => rfl
  | error trap => rfl

/-- The product of `scale`. -/
theorem scale_of_neg (h : (x.1 - t).toInt < 0) :
    scale x t = .ok (t, ((x.2.toInt * 10 ^ (-(x.1 - t).toInt).toNat : Int) : BitVec 64)) := by
  rw [scale]
  simp only [if_neg (not_lt.mpr h.le), if_pos h]
  rw [powerOfTen_neg h]
  push_cast
  rw [Math.intCast_toInt]

/-- A magnitude of 64 bits is below a power that does not fit. -/
theorem tdiv_large {u : BitVec 64} {e : Nat} (h : 20 ≤ e) : u.toInt.tdiv (10 ^ e) = 0 := by
  obtain ⟨hge, hlt⟩ := fits_toInt u
  have hlarge := Math.lt_tenPow h
  have hsize : ((10 : Int) ^ e).natAbs = 10 ^ e := Int.natAbs_pow 10 e
  rw [Math.tdiv_eq_zero_iff (pow_ne_zero _ (by decide)), hsize]
  omega

theorem unsigned_eq_tdiv_iff {u : BitVec 64} {e : Nat} (he : e < 64) :
    ((u.toNat / (10 ^ e % 2 ^ 64) : Nat) : Int) = u.toInt.tdiv (10 ^ e) ↔
      (0 ≤ u.toInt ∧ e ≤ 19) ∨ u.toNat < 10 ^ e % 2 ^ 64 := by
  have hone := Math.unsigned_tdiv_iff (u := u) he one_ne_zero
  rw [Int.tdiv_one, one_mul, Int.natAbs_one, one_mul] at hone
  exact hone

/-- A value whose product with a large power fits is zero. -/
theorem eq_zero_of_fits {u : Int} {e : Nat} (h : 20 ≤ e) (hfits : Fits 64 (u * 10 ^ e)) : u = 0 := by
  obtain ⟨hge, hlt⟩ := hfits
  have hlarge : (2 : Int) ^ 64 < 10 ^ e := by exact_mod_cast Math.lt_tenPow h
  rcases lt_trichotomy u 0 with hneg | hzero | hpos
  · have hle : u * 10 ^ e ≤ -10 ^ e := by nlinarith
    omega
  · exact hzero
  · have hle : (10 : Int) ^ e ≤ u * 10 ^ e := by nlinarith
    omega

/-- The difference becomes negative, and the value is multiplied. -/
theorem scalesRight_iff_of_large (h : 2 ^ 31 ≤ x.1.toInt - t.toInt) : ScalesRight x t ↔
    (2 ^ 64 : Int) ∣ x.2.toInt * 10 ^ (2 ^ 32 - (x.1.toInt - t.toInt)).toNat := by
  have hdiff := toInt_sub_scales x.1 t
  rw [if_pos h] at hdiff
  have hs := (fits_toInt x.1).2
  have ht := (fits_toInt t).1
  have hscale := scale_of_neg (x := x) (t := t) (by omega)
  have hexp : -(x.1 - t).toInt = 2 ^ 32 - (x.1.toInt - t.toInt) := by omega
  have hzero : truncate (x.2.toInt / 10 ^ (x.1.toInt - t.toInt).toNat) = 0 := by
    rw [truncate_div_tenPow, tdiv_large (by omega)]
  rw [hexp] at hscale
  rw [← Math.intCast_eq_zero_iff]
  constructor
  · intro hright
    obtain ⟨u, hu, hvalue⟩ := hright.smaller (by omega)
    rw [hzero] at hvalue
    rw [hscale, BitVec.toInt_inj.mp (hvalue.trans rfl : u.toInt = (0 : BitVec 64).toInt)] at hu
    exact congrArg Prod.snd (Except.ok.inj hu)
  · intro hlost
    refine ⟨?_, fun _ => ⟨_, hscale, ?_⟩, fun hle => ?_⟩
    · rw [hscale]
      rintro ⟨⟩
    · rw [hzero, hlost]
      rfl
    · omega

/-- The value is divided as an unsigned one. -/
theorem scalesRight_iff_of_pos (h : 0 < x.1.toInt - t.toInt) (hlt : x.1.toInt - t.toInt < 2 ^ 31) :
    ScalesRight x t ↔ (0 ≤ x.2.toInt ∧ x.1.toInt - t.toInt ≤ 19) ∨
      x.2.toNat < 10 ^ (x.1.toInt - t.toInt).toNat % 2 ^ 64 := by
  have hdiff := toInt_sub_scales x.1 t
  rw [if_neg (by omega), if_neg (by omega)] at hdiff
  have hscale := scale_of_pos (x := x) (t := t) (by omega)
  have hpower := toNat_powerOfTen_of_pos (d := x.1 - t) (by omega)
  rw [hdiff] at hpower
  by_cases hexp : (x.1.toInt - t.toInt).toNat < 64
  · obtain ⟨q, hq, hvalue⟩ := divUnsigned_eq_ok (u := x.2) hpower (by omega) hexp
    rw [hq] at hscale
    have hcondition := unsigned_eq_tdiv_iff (u := x.2) hexp
    rw [← hvalue] at hcondition
    have hnineteen : (x.1.toInt - t.toInt).toNat ≤ 19 ↔ x.1.toInt - t.toInt ≤ 19 := by omega
    rw [← hnineteen, ← hcondition, ← truncate_div_tenPow]
    constructor
    · intro hright
      obtain ⟨u, hu, htruncated⟩ := hright.smaller (by omega)
      rw [hscale] at hu
      cases hu
      exact htruncated
    · intro htruncated
      refine ⟨?_, fun _ => ⟨q, hscale, htruncated⟩, fun hle => ?_⟩
      · rw [hscale]
        rintro ⟨⟩
      · omega
  · -- the power is zero
    rw [divUnsigned_eq_error hpower (by omega)] at hscale
    rw [Math.mod_tenPow_eq_zero_iff.mpr (by omega)]
    constructor
    · intro hright
      exact absurd hscale hright.noZeroDivision
    · rintro (⟨-, hle⟩ | hlt)
      · omega
      · omega

/-- The value is multiplied, or left alone. -/
theorem scalesRight_of_nonpos (h : x.1.toInt - t.toInt ≤ 0) (hge : -2 ^ 31 ≤ x.1.toInt - t.toInt) :
    ScalesRight x t := by
  have hdiff := toInt_sub_scales x.1 t
  rw [if_neg (by omega), if_neg (by omega)] at hdiff
  by_cases hzero : x.1.toInt - t.toInt = 0
  · have hsame : x.1 = t := BitVec.toInt_inj.mp (by omega)
    have hscale : scale x t = .ok (t, x.2) := by
      rw [scale]
      simp only [hdiff, hzero, lt_irrefl, if_false]
      rw [← hsame]
    refine ⟨?_, fun _ => ⟨x.2, hscale, ?_⟩, fun _ _ => ⟨x.2, hscale, ?_⟩⟩
    · rw [hscale]
      rintro ⟨⟩
    · rw [hzero, truncate_div_tenPow]
      simp
    · rw [hsame, Int.sub_self]
      simp
  · have hscale := scale_of_neg (x := x) (t := t) (by omega)
    have hexp : -(x.1 - t).toInt = t.toInt - x.1.toInt := by omega
    rw [hexp] at hscale
    refine ⟨?_, fun hle => ?_, fun _ hfits => ⟨_, hscale, ?_⟩⟩
    · rw [hscale]
      rintro ⟨⟩
    · omega
    · exact Math.toInt_intCast_of_fits (by decide) hfits

/-- The difference becomes positive, and the value is divided. -/
theorem scalesRight_iff_of_small (h : x.1.toInt - t.toInt < -2 ^ 31) :
    ScalesRight x t ↔ x.1.toInt - t.toInt + 2 ^ 32 < 64 := by
  have hdiff := toInt_sub_scales x.1 t
  rw [if_neg (by omega), if_pos h] at hdiff
  have hs := (fits_toInt x.1).1
  have ht := (fits_toInt t).2
  have hscale := scale_of_pos (x := x) (t := t) (by omega)
  have hpower := toNat_powerOfTen_of_pos (d := x.1 - t) (by omega)
  rw [hdiff] at hpower
  by_cases hexp : x.1.toInt - t.toInt + 2 ^ 32 < 64
  · obtain ⟨q, hq, hvalue⟩ := divUnsigned_eq_ok (u := x.2) hpower (by omega) (by omega)
    rw [hq] at hscale
    refine iff_of_true ⟨?_, fun hle => ?_, fun _ hfits => ⟨q, hscale, ?_⟩⟩ hexp
    · rw [hscale]
      rintro ⟨⟩
    · omega
    · have hzero := eq_zero_of_fits (by omega) hfits
      have hnat : x.2.toNat = 0 := by
        have hunsigned := Math.toNat_eq_toInt x.2
        rw [hzero, if_neg (lt_irrefl 0)] at hunsigned
        omega
      rw [hvalue, hzero, hnat, Nat.zero_div, zero_mul]
      rfl
  · rw [divUnsigned_eq_error hpower (by omega)] at hscale
    exact iff_of_false (fun hright => hright.noZeroDivision hscale) hexp

/-- Scaling does what it should exactly for the scales and values it handles. -/
theorem scalesRight_iff_scalesSafely : ScalesRight x t ↔ ScalesSafely x t := by
  rw [ScalesSafely]
  split
  next hlarge => exact scalesRight_iff_of_large hlarge
  split
  next hpos => exact scalesRight_iff_of_pos hpos (by omega)
  next hnonpos =>
    by_cases hge : -2 ^ 31 ≤ x.1.toInt - t.toInt
    · exact iff_of_true (scalesRight_of_nonpos (by omega) hge) (Or.inl hge)
    · rw [scalesRight_iff_of_small (by omega)]
      simp only [hge, false_or]

/-! ## Dividing -/

/-- The unscaled value of `a` that is divided by the one of `b`. -/
def adjusted (a b : DecimalDataType) : Except DivisionTrap (BitVec 64) :=
  if 0 < b.1.toInt then .ok (a.2 * powerOfTen b.1)
  else if b.1.toInt < 0 then divUnsigned a.2 (powerOfTen (-b.1))
  else .ok a.2

theorem adjustForDiv_eq {ι : Type} [DecidableEq ι] (objects : Objects ι) (a b : ι) :
    adjustForDiv objects a b =
      (adjusted (objects a) (objects b)).map (setUnscaled objects a) := by
  have hkept : setUnscaled objects a (objects a).2 = objects := Function.update_eq_self _ _
  rw [adjustForDiv, adjusted]
  by_cases hpos : 0 < (objects b).1.toInt
  · rw [if_pos hpos, if_pos hpos]
    rfl
  rw [if_neg hpos, if_neg hpos]
  by_cases hneg : (objects b).1.toInt < 0
  · rw [if_pos hneg, if_pos hneg]
    cases divUnsigned (objects a).2 (powerOfTen (-(objects b).1)) with
    | ok u => rfl
    | error trap => rfl
  · rw [if_neg hneg, if_neg hneg]
    exact congrArg Except.ok hkept.symm

theorem div_eq (a b : DecimalDataType) : div a b =
    (adjusted a b).bind fun u => (divSigned u b.2).map fun q => (a.1, q) := by
  rw [div, divAssign, adjustForDiv_eq]
  change ((adjusted a b).map _ >>= _ >>= _) = _
  cases adjusted a b with
  | ok u =>
    have hresult : setUnscaled (copied a b) .result u .result = (a.1, u) := Function.update_self ..
    have hother : setUnscaled (copied a b) .result u .b = b := rfl
    simp only [Except.map, Except.bind, bind, hresult, hother]
    cases divSigned u b.2 with
    | ok q => rfl
    | error trap => rfl
  | error trap => rfl

/-- The exact quotient at the scale of `a`. -/
theorem exact_div_exact (a b : DecimalDataType) :
    exact a / exact b * 10 ^ a.1.toInt = a.2.toInt / b.2.toInt * 10 ^ b.1.toInt := by
  have hten : (10 : ℚ) ≠ 0 := by norm_num
  have hexp : -a.1.toInt - -b.1.toInt + a.1.toInt = b.1.toInt := by omega
  rw [exact, exact, mul_div_mul_comm, mul_assoc, ← zpow_sub₀ hten, ← zpow_add₀ hten, hexp]

/-- A division of signed integers that has a result. -/
theorem divSigned_eq_ok {u v : BitVec 64} (hv : v ≠ 0) (h : ¬ (u.toInt = -2 ^ 63 ∧ v.toInt = -1)) :
    ∃ q, divSigned u v = .ok q ∧ q.toInt = u.toInt.tdiv v.toInt := by
  have hmin : (BitVec.intMin 64).toInt = -2 ^ 63 := by decide
  have hone : (-1 : BitVec 64).toInt = -1 := by decide
  have hpair : ¬ (u = BitVec.intMin 64 ∧ v = -1) := by
    rintro ⟨rfl, rfl⟩
    exact h ⟨hmin, hone⟩
  refine ⟨u.sdiv v, by rw [divSigned, if_neg hv, if_neg hpair], ?_⟩
  exact BitVec.toInt_sdiv_of_ne_or_ne u v (by tauto)

/-- With a scale that is not negative the adjusted value is a product. -/
theorem adjusted_of_nonneg (h : 0 ≤ b.1.toInt) :
    adjusted a b = .ok ((a.2.toInt * 10 ^ b.1.toInt.toNat : Int) : BitVec 64) := by
  rw [adjusted]
  push_cast
  rw [Math.intCast_toInt]
  split
  next hpos =>
    rw [powerOfTen_of_pos hpos]
    push_cast
    rfl
  next hzero =>
    rw [if_neg (not_lt.mpr h), show b.1.toInt.toNat = 0 by omega, pow_zero, mul_one]

theorem dividesRight_iff_of_nonneg (hb : b.2 ≠ 0) (h : 0 ≤ b.1.toInt) : DividesRight a b ↔
    ¬ (a.2.toInt * 10 ^ b.1.toInt.toNat = -2 ^ 63 ∧ b.2.toInt = -1) := by
  have hdiv := div_eq a b
  rw [adjusted_of_nonneg h] at hdiv
  have hexact : truncate (exact a / exact b * 10 ^ a.1.toInt) =
      (a.2.toInt * 10 ^ b.1.toInt.toNat).tdiv b.2.toInt := by
    have hscale : b.1.toInt = (b.1.toInt.toNat : Int) := by omega
    rw [exact_div_exact, hscale, zpow_natCast, div_mul_eq_mul_div, ← Math.truncate_div]
    push_cast
    rfl
  by_cases hsafe : a.2.toInt * 10 ^ b.1.toInt.toNat = -2 ^ 63 ∧ b.2.toInt = -1
  · -- the quotient is 2^63
    obtain ⟨hmin, hone⟩ := hsafe
    have hdivisor : b.2 = -1 := BitVec.toInt_inj.mp (hone.trans rfl)
    have hfits : Fits 64 (a.2.toInt * 10 ^ b.1.toInt.toNat) := by
      rw [hmin]
      decide
    have htrap : div a b = .error .overflow := by
      rw [hdiv, hmin, hdivisor]
      rfl
    refine iff_of_false (fun hright => ?_) (not_not_intro ⟨hmin, hone⟩)
    obtain ⟨u, hu, -⟩ := hright.quotient fun _ => hfits
    rw [htrap] at hu
    cases hu
  · refine iff_of_true ⟨?_, fun hfits => ?_⟩ hsafe
    · rw [hdiv]
      intro htrap
      simp only [Except.bind, divSigned, if_neg hb] at htrap
      split at htrap
      · cases htrap
      · cases htrap
    · have hvalue := Math.toInt_intCast_of_fits (w := 64) (by decide) (hfits h)
      obtain ⟨q, hq, hquotient⟩ := divSigned_eq_ok (u := (_ : BitVec 64)) hb (hvalue.symm ▸ hsafe)
      refine ⟨q, ?_, ?_⟩
      · rw [hdiv]
        simp only [Except.bind, hq, Except.map]
      · rw [hquotient, hvalue, hexact]

/-- With a negative scale the value is divided as an unsigned one. -/
theorem dividesRight_iff_of_neg (hb : b.2 ≠ 0) (h : b.1.toInt < 0) : DividesRight a b ↔
    (0 ≤ a.2.toInt ∧ -b.1.toInt ≤ 19) ∨
      a.2.toNat < b.2.toInt.natAbs * (10 ^ (-b.1.toInt).toNat % 2 ^ 64) := by
  have hdiv := div_eq a b
  have hpower := toNat_powerOfTen_neg h
  have hdivisor : b.2.toInt ≠ 0 := fun hzero => hb (BitVec.toInt_inj.mp (hzero.trans rfl))
  rw [adjusted, if_neg (not_lt.mpr h.le), if_pos h] at hdiv
  by_cases hexp : (-b.1.toInt).toNat < 64
  · obtain ⟨u, hu, hvalue⟩ := divUnsigned_eq_ok (u := a.2) hpower (by omega) hexp
    have hnonneg : 0 ≤ u.toInt := hvalue ▸ Int.natCast_nonneg _
    obtain ⟨q, hq, hquotient⟩ := divSigned_eq_ok (u := u) hb fun hmin => by omega
    have hok : div a b = .ok (a.1, q) := by
      rw [hdiv, hu]
      simp only [Except.bind, hq, Except.map]
    have hexact : truncate (exact a / exact b * 10 ^ a.1.toInt) =
        a.2.toInt.tdiv (b.2.toInt * 10 ^ (-b.1.toInt).toNat) := by
      have hscale : b.1.toInt = -((-b.1.toInt).toNat : Int) := by omega
      rw [exact_div_exact, ← Math.truncate_div]
      conv_lhs => rw [hscale]
      rw [zpow_neg, zpow_natCast, ← div_eq_mul_inv, div_div]
      push_cast
      rfl
    have hcondition := Math.unsigned_tdiv_iff (u := a.2) hexp hdivisor
    rw [← hvalue, ← hquotient, ← hexact] at hcondition
    have hnineteen : (-b.1.toInt).toNat ≤ 19 ↔ -b.1.toInt ≤ 19 := by omega
    rw [← hnineteen, ← hcondition]
    constructor
    · intro hright
      obtain ⟨v, hv, htruncated⟩ := hright.quotient fun hnonneg => by omega
      rw [hok] at hv
      cases hv
      exact htruncated
    · intro htruncated
      refine ⟨?_, fun _ => ⟨q, hok, htruncated⟩⟩
      rw [hok]
      rintro ⟨⟩
  · -- the power is zero
    rw [divUnsigned_eq_error hpower (by omega)] at hdiv
    rw [Math.mod_tenPow_eq_zero_iff.mpr (by omega)]
    constructor
    · intro hright
      exact absurd hdiv hright.noZeroDivision
    · rintro (⟨-, hle⟩ | hlt)
      · omega
      · omega

theorem dividesRight_iff_dividesSafely (hb : b.2 ≠ 0) : DividesRight a b ↔ DividesSafely a b := by
  rw [DividesSafely]
  split
  next hnonneg => exact dividesRight_iff_of_nonneg hb hnonneg
  next hneg => exact dividesRight_iff_of_neg hb (not_le.mp hneg)

/-- Scaling and dividing do what they should exactly for the operands they handle. -/
theorem scalesRight_and_dividesRight (x a b : DecimalDataType) (t : BitVec 32) :
    (ScalesRight x t ↔ ScalesSafely x t) ∧
      (b.2 ≠ 0 → (DividesRight a b ↔ DividesSafely a b)) :=
  ⟨scalesRight_iff_scalesSafely, dividesRight_iff_dividesSafely⟩

theorem scalesRight_and_dividesRight_positive :
    ScalesRight (1, 25) 0 ∧ DividesRight (1, 25) (1, 2) := by
  constructor
  · refine (scalesRight_and_dividesRight (1, 25) 0 0 0).1.mpr ?_
    rw [ScalesSafely]
    decide
  · refine ((scalesRight_and_dividesRight 0 (1, 25) (1, 2) 0).2 (by decide)).mpr ?_
    rw [DividesSafely]
    decide

/-- -2.5 without digits after the point is not -2. -/
theorem not_scalesRight_negative :
    scale (1, -25) 0 = .ok (0, 1844674407370955159) ∧ ¬ ScalesRight (1, -25) 0 := by
  constructor
  · decide
  · rw [scalesRight_iff_scalesSafely, ScalesSafely]
    decide

/-- Digits that are all lost are a division by zero. -/
example : scale (64, 1) 0 = .error .divisionByZero := by decide

end CqlDriver.Decimal
