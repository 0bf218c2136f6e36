import CqlDriver.Column.DecimalArithmetic
import CqlDriver.Math.WhileLoop

/-!
# Trailing zeros of decimals

`Decimal::strip` divides the unscaled value by ten and lowers the scale, as long as the scale is
positive and the division leaves no remainder. A zero keeps its scale, although it could be
divided.

Two decimals with the same number differ by a power of ten. Where the loop stopped, the decimal
with the larger scale has a positive scale and is not a multiple of ten, so it has no larger scale.

## Main definitions

* `Decimal.stripRound` — one round of the loop
* `Decimal.strip` — the state in which the loop stops
* `Decimal.Stripped` — a decimal without trailing zeros

## Main results

* `Decimal.loopEnds_strip` — the loop stops
* `Decimal.stripped_unique` — a number has one decimal without trailing zeros
* `Decimal.canonicalForm` — the decimal that is left is a canonical form
-/

namespace CqlDriver.Decimal

open Math (LoopEnds loopRounds loopEnds_loopRounds fits_toInt)

/-- One round of the loop of `Decimal::strip`. -/
def stripRound (value : DecimalDataType) : Option DecimalDataType :=
  if 0 < value.1.toInt ∧ value.2 ≠ 0 ∧ value.2.srem 10 = 0 then
    some (value.1 - 1, value.2.sdiv 10)
  else none

/-- `Decimal::strip`; every round lowers the scale. -/
def strip (value : DecimalDataType) : DecimalDataType :=
  loopRounds stripRound value.1.toInt.toNat value

/-- No trailing zero can be removed. -/
def Stripped (value : DecimalDataType) : Prop :=
  0 < value.1.toInt → value.2 ≠ 0 → ¬ (10 : Int) ∣ value.2.toInt

variable {value next : DecimalDataType}

/-! ## One round -/

theorem srem_ten_eq_zero_iff (u : BitVec 64) : u.srem 10 = 0 ↔ (10 : Int) ∣ u.toInt := by
  have hten : (10 : BitVec 64).toInt = 10 := rfl
  have hzero : (0 : BitVec 64).toInt = 0 := rfl
  rw [← BitVec.toInt_inj, BitVec.toInt_srem, hten, hzero]
  exact Int.dvd_iff_tmod_eq_zero.symm

/-- The conditions under which a round is done, and what it leaves. -/
theorem stripRound_cases (h : stripRound value = some next) : 0 < value.1.toInt ∧ value.2 ≠ 0 ∧
    next.1.toInt = value.1.toInt - 1 ∧ value.2.toInt = 10 * next.2.toInt := by
  rw [stripRound] at h
  split at h
  next hround =>
    obtain ⟨hscale, hzero, hrem⟩ := hround
    cases h
    obtain ⟨_, hlt⟩ := fits_toInt value.1
    have hone : (1 : BitVec 32).toInt = 1 := rfl
    have hten : (10 : BitVec 64).toInt = 10 := rfl
    refine ⟨hscale, hzero, ?_, ?_⟩
    · rw [BitVec.toInt_sub, hone, Math.bmod_of_fits (by decide) ⟨by omega, by omega⟩]
    · have hdvd := (srem_ten_eq_zero_iff value.2).mp hrem
      have hne : (10 : BitVec 64) ≠ -1 := by decide
      rw [BitVec.toInt_sdiv_of_ne_or_ne _ _ (Or.inr hne), hten]
      exact (Int.mul_tdiv_cancel' hdvd).symm
  · cases h

theorem stripRound_eq_none_iff : stripRound value = none ↔ Stripped value := by
  rw [stripRound, Stripped, ← srem_ten_eq_zero_iff]
  split
  next hround =>
    refine iff_of_false (by simp) fun hstripped => ?_
    exact hstripped hround.1 hround.2.1 hround.2.2
  next hround =>
    refine iff_of_true rfl fun hscale hzero hdvd => ?_
    exact hround ⟨hscale, hzero, hdvd⟩

/-- A round keeps the number. -/
theorem exact_stripRound (h : stripRound value = some next) : exact next = exact value := by
  obtain ⟨_, _, hscale, hunscaled⟩ := stripRound_cases h
  have hexp : value.1.toInt - next.1.toInt = 1 := by omega
  rw [@exact_at next value.1.toInt (by omega), hexp, exact, hunscaled, mul_comm 10]
  rfl

/-! ## The loop -/

/-- The loop stops. -/
theorem loopEnds_strip (value : DecimalDataType) : LoopEnds stripRound value (strip value) := by
  refine loopEnds_loopRounds (fun value => value.1.toInt.toNat) ?_ le_rfl
  intro value next hround
  obtain ⟨hpos, _, hscale, _⟩ := stripRound_cases hround
  omega

theorem exact_strip (value : DecimalDataType) : exact (strip value) = exact value := by
  refine (loopEnds_strip value).invariant (fun result => exact result = exact value) ?_ rfl
  intro s t hround hs
  exact (exact_stripRound hround).trans hs

theorem stripped_strip (value : DecimalDataType) : Stripped (strip value) :=
  stripRound_eq_none_iff.mp (loopEnds_strip value).stopped

theorem strip_of_stripped (h : Stripped value) : strip value = value :=
  Math.loopRounds_of_stopped (stripRound_eq_none_iff.mpr h) _

/-- The scale stops at zero. -/
theorem scale_strip_nonneg (h : 0 ≤ value.1.toInt) : 0 ≤ (strip value).1.toInt := by
  refine (loopEnds_strip value).invariant (fun result => 0 ≤ result.1.toInt) ?_ h
  intro s t hround _
  obtain ⟨hpos, _, hscale, _⟩ := stripRound_cases hround
  omega

/-- The other scales are never changed. -/
theorem strip_of_nonpos (h : value.1.toInt ≤ 0) : strip value = value :=
  strip_of_stripped fun hpos => absurd hpos (by omega)

theorem exact_eq_zero_iff : exact value = 0 ↔ value.2 = 0 := by
  have hpow : (10 : ℚ) ^ (-value.1.toInt) ≠ 0 := zpow_ne_zero _ (by norm_num)
  have hzero : (0 : BitVec 64).toInt = 0 := rfl
  rw [exact, mul_eq_zero, or_iff_left hpow, Int.cast_eq_zero, ← BitVec.toInt_inj, hzero]

/-! ## The canonical form -/

variable {x y : DecimalDataType}

/-- Without trailing zeros, the scale is not larger than another one for the same number. -/
theorem Stripped.scale_le (hy : Stripped y) (hscale : 0 ≤ x.1.toInt) (hne : y.2 ≠ 0)
    (h : exact x = exact y) : y.1.toInt ≤ x.1.toInt := by
  by_contra hlt
  refine hy (by omega) hne ?_
  -- at the scale of y, the unscaled value of x is multiplied by a power of ten
  have hself : y.1.toInt - y.1.toInt = 0 := Int.sub_self _
  rw [@exact_at x y.1.toInt (by omega), @exact_at y y.1.toInt le_rfl, hself] at h
  have hunscaled := unscaled_unique h
  rw [Int.toNat_zero, pow_zero, mul_one] at hunscaled
  rw [← hunscaled]
  exact Dvd.dvd.mul_left (dvd_pow_self 10 (by omega)) _

/-- A number that is not zero has one decimal without trailing zeros. -/
theorem stripped_unique (hx : Stripped x) (hy : Stripped y) (hxscale : 0 ≤ x.1.toInt)
    (hyscale : 0 ≤ y.1.toInt) (hne : x.2 ≠ 0) (h : exact x = exact y) : x = y := by
  have hyne : y.2 ≠ 0 := by rwa [Ne, ← exact_eq_zero_iff, ← h, exact_eq_zero_iff]
  have hscale : x.1.toInt = y.1.toInt :=
    le_antisymm (hx.scale_le hyscale hne h.symm) (hy.scale_le hxscale hyne h)
  have hunscaled : x.2.toInt = y.2.toInt := by
    rw [exact, exact, hscale] at h
    exact unscaled_unique h
  exact Prod.ext (BitVec.toInt_inj.mp hscale) (BitVec.toInt_inj.mp hunscaled)

/-- What `Decimal::strip` leaves is a canonical form. -/
structure CanonicalForm : Prop where
  /-- The loop stops, in one state. -/
  terminates (value result : DecimalDataType) :
    LoopEnds stripRound value result ↔ result = strip value
  exact (value : DecimalDataType) : exact (strip value) = exact value
  idempotent (value : DecimalDataType) : strip (strip value) = strip value
  scale (value : DecimalDataType) (h : 0 < value.1.toInt) : 0 ≤ (strip value).1.toInt
  unique (x y : DecimalDataType) (hxscale : 0 ≤ x.1.toInt) (hyscale : 0 ≤ y.1.toInt) (hx : x.2 ≠ 0)
    (hy : y.2 ≠ 0) (h : Decimal.exact x = Decimal.exact y) : strip x = strip y

theorem canonicalForm : CanonicalForm where
  terminates value result := by
    constructor
    · intro hends
      exact hends.unique (loopEnds_strip value)
    · rintro rfl
      exact loopEnds_strip value
  exact := exact_strip
  idempotent value := strip_of_stripped (stripped_strip value)
  scale _ h := scale_strip_nonneg h.le
  unique x y hxscale hyscale hx _ h := by
    have hne : (strip x).2 ≠ 0 := by
      rwa [Ne, ← exact_eq_zero_iff, exact_strip, exact_eq_zero_iff]
    exact stripped_unique (stripped_strip x) (stripped_strip y) (scale_strip_nonneg hxscale)
      (scale_strip_nonneg hyscale) hne (by rw [exact_strip, exact_strip, h])

/-- 0.12300 and 0.1230. -/
theorem canonicalForm_zeros :
    0 ≤ (strip (5, 12300)).1.toInt ∧ strip (5, 12300) = strip (4, 1230) ∧
      strip (5, 12300) = (3, 123) := by
  refine ⟨canonicalForm.scale (5, 12300) (by decide),
    canonicalForm.unique (5, 12300) (4, 1230) (by decide) (by decide) (by decide) (by decide) ?_,
    by decide⟩
  have hfive : (5 : BitVec 32).toInt = 5 := rfl
  have hfour : (4 : BitVec 32).toInt = 4 := rfl
  have hvalue : (12300 : BitVec 64).toInt = 12300 := rfl
  have hother : (1230 : BitVec 64).toInt = 1230 := rfl
  norm_num [exact, hfive, hfour, hvalue, hother]

end CqlDriver.Decimal
