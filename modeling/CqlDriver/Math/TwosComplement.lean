import Mathlib.Algebra.Order.Ring.Int
import Mathlib.Tactic.Linarith
import Mathlib.Tactic.Ring
import CqlDriver.Math.BigEndian

/-!
# Two's complement bytes

Some bytes stand for a signed number, the most significant byte first and with its first bit for
the sign. A byte in front that repeats the sign changes nothing, and a number that needs
its first byte has no shorter bytes.

## Main definitions

* `ofTwosComplement` — the signed number of some bytes
* `Repeats` — a byte repeats the sign of the next one

## Main results

* `ofTwosComplement_of_repeats` — such a byte may be left out
* `length_le_of_not_repeats` — without such a byte there are no shorter bytes
-/

namespace CqlDriver.Math

/-- The signed number that some bytes stand for. -/
def ofTwosComplement (bytes : List UInt8) : Int := toSigned (8 * bytes.length) (ofBigEndian bytes)

/-- The first byte repeats the sign of the second one. -/
def Repeats (first second : UInt8) : Prop :=
  (first = 0 ∧ second.toNat < 128) ∨ (first = 0xff ∧ 128 ≤ second.toNat)

section Bytes

variable {first second : UInt8} {rest bytes other : List UInt8}

/-- The first byte carries the sign. -/
theorem ofTwosComplement_cons (first : UInt8) (rest : List UInt8) :
    ofTwosComplement (first :: rest) =
      (if first.toNat < 128 then (first.toNat : Int) else first.toNat - 256) * 256 ^ rest.length +
        ofBigEndian rest := by
  have hlt := ofBigEndian_lt rest
  have hpow : 2 ^ (8 * (rest.length + 1) - 1) = 128 * 256 ^ rest.length := by
    rw [show 8 * (rest.length + 1) - 1 = 7 + 8 * rest.length by omega, Nat.pow_add, Nat.pow_mul]
  have hpow' : (2 : Int) ^ (8 * (rest.length + 1)) = 256 * 256 ^ rest.length := by
    rw [show 8 * (rest.length + 1) = 8 + 8 * rest.length by omega, pow_add, pow_mul]
    rfl
  rw [ofTwosComplement, toSigned, List.length_cons, hpow, hpow', ofBigEndian]
  by_cases hsign : first.toNat < 128
  · have hsmall : first.toNat * 256 ^ rest.length + ofBigEndian rest < 128 * 256 ^ rest.length := by
      have hle := Nat.mul_le_mul_right (256 ^ rest.length) (Nat.succ_le_of_lt hsign)
      rw [Nat.succ_mul] at hle
      omega
    rw [if_pos hsign, if_pos hsmall]
    push_cast
    rfl
  · have hlarge : ¬ first.toNat * 256 ^ rest.length + ofBigEndian rest < 128 * 256 ^ rest.length := by
      have hle := Nat.mul_le_mul_right (256 ^ rest.length) (Nat.not_lt.mp hsign)
      omega
    rw [if_neg hsign, if_neg hlarge]
    push_cast
    linarith

/-- The numbers of some bytes. -/
theorem ofTwosComplement_bounds (first : UInt8) (rest : List UInt8) :
    -(128 * 256 ^ rest.length) ≤ ofTwosComplement (first :: rest) ∧
      ofTwosComplement (first :: rest) < 128 * 256 ^ rest.length := by
  have hlt : (ofBigEndian rest : Int) < 256 ^ rest.length := by exact_mod_cast ofBigEndian_lt rest
  have hbyte : (first.toNat : Int) < 256 := by exact_mod_cast first.toNat_lt
  have hpos : (0 : Int) < 256 ^ rest.length := pow_pos (by decide) _
  rw [ofTwosComplement_cons]
  split
  · constructor
    · nlinarith
    · nlinarith
  · constructor
    · nlinarith
    · nlinarith

/-- A byte that repeats the sign may be left out. -/
theorem ofTwosComplement_of_repeats (h : Repeats first second) :
    ofTwosComplement (first :: second :: rest) = ofTwosComplement (second :: rest) := by
  rw [ofTwosComplement_cons, ofTwosComplement_cons, List.length_cons, ofBigEndian, pow_succ]
  rcases h with ⟨rfl, hsign⟩ | ⟨rfl, hsign⟩
  · have hzero : (0 : UInt8).toNat = 0 := rfl
    rw [if_pos hsign, if_pos (by decide), hzero]
    push_cast
    ring
  · have hones : (0xff : UInt8).toNat = 255 := rfl
    rw [if_neg (not_lt.mpr hsign), if_neg (by decide), hones]
    push_cast
    ring

/-- A number that needs its first byte is not one of those without it. -/
theorem beyond_of_not_repeats (h : ¬ Repeats first second) :
    ofTwosComplement (first :: second :: rest) < -(128 * 256 ^ rest.length) ∨
      128 * 256 ^ rest.length ≤ ofTwosComplement (first :: second :: rest) := by
  have hlt : (ofBigEndian rest : Int) < 256 ^ rest.length := by exact_mod_cast ofBigEndian_lt rest
  have hsecond : (second.toNat : Int) < 256 := by exact_mod_cast second.toNat_lt
  have hfirst : (first.toNat : Int) < 256 := by exact_mod_cast first.toNat_lt
  have hpos : (0 : Int) < 256 ^ rest.length := pow_pos (by decide) _
  rw [ofTwosComplement_cons, List.length_cons, ofBigEndian, pow_succ]
  push_cast
  simp only [Repeats, not_or, not_and, not_lt, not_le] at h
  split
  · next hsign =>
    right
    by_cases hzero : first.toNat = 0
    · have hlarge : (128 : Int) ≤ second.toNat := by
        exact_mod_cast h.1 (UInt8.toNat_inj.mp hzero)
      rw [hzero]
      nlinarith
    · have hone : (1 : Int) ≤ first.toNat := by exact_mod_cast Nat.one_le_iff_ne_zero.mpr hzero
      nlinarith
  · next hsign =>
    left
    by_cases hones : first.toNat = 255
    · have hsmall : (second.toNat : Int) + 1 ≤ 128 := by
        exact_mod_cast h.2 (UInt8.toNat_inj.mp hones)
      rw [hones]
      push_cast
      nlinarith
    · have hless : (first.toNat : Int) + 2 ≤ 256 := by
        have hbyte := first.toNat_lt
        omega
      nlinarith

/-- Without a byte that repeats the sign there are no shorter bytes for a number. -/
theorem length_le_of_not_repeats (h : ¬ Repeats first second) (hne : other ≠ [])
    (hvalue : ofTwosComplement other = ofTwosComplement (first :: second :: rest)) :
    (first :: second :: rest).length ≤ other.length := by
  obtain ⟨c, tail, rfl⟩ := List.exists_cons_of_ne_nil hne
  have hbounds := ofTwosComplement_bounds c tail
  have hbeyond := @beyond_of_not_repeats first second rest h
  rw [hvalue] at hbounds
  by_contra hshort
  simp only [List.length_cons, not_le] at hshort
  have hpow : (256 : Int) ^ tail.length ≤ 256 ^ rest.length :=
    pow_le_pow_right₀ (by decide) (by omega)
  rcases hbeyond with hless | hmore
  · linarith
  · linarith

end Bytes

end CqlDriver.Math
