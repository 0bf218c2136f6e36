import Mathlib.Algebra.Order.Ring.Nat

/-!
# Numbers in network byte order

A number is written with a fixed count of bytes, the most significant one first.

## Main definitions

* `bigEndian` — the bytes of a number
* `ofBigEndian` — the number of some bytes
* `toSigned`, `ofSigned` — two's complement

## Main results

* `ofBigEndian_bigEndian`, `bigEndian_ofBigEndian` — the two undo each other
-/

namespace CqlDriver.Math

/-- The last `width` bytes of a number, the most significant one first. -/
def bigEndian : Nat → Nat → List UInt8
  | 0, _ => []
  | width + 1, n => UInt8.ofNat (n / 256 ^ width) :: bigEndian width n

/-- The number that some bytes stand for. -/
def ofBigEndian : List UInt8 → Nat
  | [] => 0
  | byte :: rest => byte.toNat * 256 ^ rest.length + ofBigEndian rest

@[simp] theorem length_bigEndian (width n : Nat) : (bigEndian width n).length = width := by
  induction width with
  | zero => rfl
  | succ width ih => rw [bigEndian, List.length_cons, ih]

theorem ofBigEndian_bigEndian_mod (width n : Nat) :
    ofBigEndian (bigEndian width n) = n % 256 ^ width := by
  induction width with
  | zero => rw [bigEndian, ofBigEndian, Nat.pow_zero, Nat.mod_one]
  | succ width ih =>
    rw [bigEndian, ofBigEndian, length_bigEndian, ih, UInt8.toNat_ofNat', Nat.mul_comm,
      Nat.add_comm]
    exact Nat.mod_pow_succ.symm

/-- A number that fits is read back. -/
theorem ofBigEndian_bigEndian {width n : Nat} (h : n < 256 ^ width) :
    ofBigEndian (bigEndian width n) = n := by
  rw [ofBigEndian_bigEndian_mod, Nat.mod_eq_of_lt h]

theorem ofBigEndian_lt (bytes : List UInt8) : ofBigEndian bytes < 256 ^ bytes.length := by
  induction bytes with
  | nil => exact Nat.one_pos
  | cons byte rest ih =>
    have hbyte : byte.toNat + 1 ≤ 256 := byte.toNat_lt
    calc ofBigEndian (byte :: rest)
      _ < byte.toNat * 256 ^ rest.length + 256 ^ rest.length := Nat.add_lt_add_left ih _
      _ = (byte.toNat + 1) * 256 ^ rest.length := (Nat.succ_mul _ _).symm
      _ ≤ 256 * 256 ^ rest.length := Nat.mul_le_mul_right _ hbyte
      _ = 256 ^ (byte :: rest).length := by rw [List.length_cons, Nat.pow_succ, Nat.mul_comm]

/-- Adding a multiple of the next power leaves the written bytes alone. -/
theorem bigEndian_add_mul (width m n : Nat) :
    bigEndian width (m * 256 ^ width + n) = bigEndian width n := by
  induction width generalizing m with
  | zero => rfl
  | succ width ih =>
    have hpow : m * 256 ^ (width + 1) = m * 256 * 256 ^ width := by
      rw [Nat.pow_succ, Nat.mul_assoc, Nat.mul_comm 256]
    rw [bigEndian, bigEndian, hpow, ih, Nat.add_comm, Nat.add_mul_div_right _ _ (Nat.pow_pos (by decide))]
    congr 1
    apply UInt8.toNat_inj.mp
    rw [UInt8.toNat_ofNat', UInt8.toNat_ofNat', Nat.add_mul_mod_self_right]

/-- Bytes that were read are written again. -/
theorem bigEndian_ofBigEndian (bytes : List UInt8) :
    bigEndian bytes.length (ofBigEndian bytes) = bytes := by
  induction bytes with
  | nil => rfl
  | cons byte rest ih =>
    rw [List.length_cons, bigEndian, ofBigEndian, bigEndian_add_mul, ih]
    congr 1
    rw [Nat.add_comm, Nat.add_mul_div_right _ _ (Nat.pow_pos (by decide)), Nat.div_eq_of_lt (ofBigEndian_lt rest), Nat.zero_add]
    exact UInt8.ofNat_toNat

/-- A number in two parts is written part by part. -/
theorem bigEndian_append (m width : Nat) {high low : Nat} (h : low < 256 ^ width) :
    bigEndian (m + width) (high * 256 ^ width + low) = bigEndian m high ++ bigEndian width low := by
  induction m with
  | zero => rw [Nat.zero_add, bigEndian_add_mul, bigEndian, List.nil_append]
  | succ m ih =>
    have hfirst : (high * 256 ^ width + low) / 256 ^ (m + width) = high / 256 ^ m := by
      rw [Nat.add_comm m, Nat.pow_add, ← Nat.div_div_eq_div_mul, Nat.mul_comm high,
        Nat.mul_add_div (Nat.pow_pos (by decide)), Nat.div_eq_of_lt h, Nat.add_zero]
    rw [Nat.succ_add, bigEndian, bigEndian, hfirst, ih, List.cons_append]

/-- Without the zeros in front, the bytes are those of the smallest width. -/
theorem dropWhile_bigEndian {width n : Nat} (h : n < 256 ^ width) :
    ∃ count ≤ width, (bigEndian width n).dropWhile (· == 0) = bigEndian count n ∧
      n < 256 ^ count ∧ ∀ k, count = k + 1 → 256 ^ k ≤ n := by
  induction width with
  | zero =>
    refine ⟨0, Nat.le_refl 0, rfl, h, fun k hk => ?_⟩
    cases hk
  | succ width ih =>
    rw [bigEndian]
    by_cases hsmall : n < 256 ^ width
    · obtain ⟨count, hle, hdrop, hlt, hge⟩ := ih hsmall
      refine ⟨count, Nat.le_succ_of_le hle, ?_, hlt, hge⟩
      rw [Nat.div_eq_of_lt hsmall, List.dropWhile_cons_of_pos (by rfl), hdrop]
    · have hge : 256 ^ width ≤ n := Nat.not_lt.mp hsmall
      have hfirst : UInt8.ofNat (n / 256 ^ width) ≠ 0 := by
        have hpos : 0 < n / 256 ^ width := Nat.div_pos hge (Nat.pow_pos (by decide))
        have hlt : n / 256 ^ width < 256 := by
          rw [Nat.div_lt_iff_lt_mul (Nat.pow_pos (by decide)), Nat.mul_comm, ← Nat.pow_succ]
          exact h
        intro heq
        have hnat := congrArg UInt8.toNat heq
        rw [UInt8.toNat_ofNat', Nat.mod_eq_of_lt hlt, UInt8.toNat_zero] at hnat
        omega
      refine ⟨width + 1, Nat.le_refl _, ?_, h, fun k hk => ?_⟩
      · rw [List.dropWhile_cons_of_neg (by simpa using hfirst)]
        rfl
      · obtain rfl : width = k := Nat.succ.inj hk
        exact hge

/-- The signed number with the given two's complement representation of `bits` bits. -/
def toSigned (bits n : Nat) : Int := if n < 2 ^ (bits - 1) then n else n - 2 ^ bits

/-- The two's complement representation of a number with `bits` bits. -/
def ofSigned (bits : Nat) (i : Int) : Nat := (i % 2 ^ bits).toNat

end CqlDriver.Math
