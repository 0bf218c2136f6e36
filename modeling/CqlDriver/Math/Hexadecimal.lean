import Mathlib.Algebra.Order.Ring.Nat
import Mathlib.Tactic.Ring

/-!
# Hexadecimal digits

Digits are read in either case and written in upper case, a fixed count of them with
the most significant one first.

## Main definitions

* `hexValue`, `hexDigit` — one digit
* `readHex`, `writeHex` — digits behind digits that were read already

## Main results

* `readHex_writeHex` — what is written is read back
* `writeHex_of_readHex` — what was read is written in upper case
-/

namespace CqlDriver.Math

/-- The value of a digit of either case. -/
def hexValue (c : UInt8) : Option Nat :=
  if 48 ≤ c.toNat ∧ c.toNat ≤ 57 then some (c.toNat - 48)
  else if 97 ≤ c.toNat ∧ c.toNat ≤ 102 then some (c.toNat - 87)
  else if 65 ≤ c.toNat ∧ c.toNat ≤ 70 then some (c.toNat - 55)
  else none

/-- The upper case digit of a value. -/
def hexDigit (n : Nat) : UInt8 := UInt8.ofNat (if n < 10 then 48 + n else 55 + n)

def upperCase (c : UInt8) : UInt8 := if 97 ≤ c.toNat ∧ c.toNat ≤ 122 then c - 32 else c

/-- The number of some digits behind those of `n`. -/
def readHex : Nat → List UInt8 → Option Nat
  | n, [] => some n
  | n, c :: text => (hexValue c).bind fun digit => readHex (n * 16 + digit) text

/-- The last digits of a number. -/
def writeHex : Nat → Nat → List UInt8
  | 0, _ => []
  | width + 1, n => hexDigit (n / 16 ^ width % 16) :: writeHex width n

/-! ## One digit -/

section Digit

variable {c : UInt8} {digit : Nat}

theorem hexValue_hexDigit : ∀ n < 16, hexValue (hexDigit n) = some n := by decide

theorem hexValue_lt (h : hexValue c = some digit) : digit < 16 := by
  rw [hexValue] at h
  split_ifs at h with hdecimal hlower hupper
  · obtain rfl := Option.some.inj h
    omega
  · obtain rfl := Option.some.inj h
    omega
  · obtain rfl := Option.some.inj h
    omega

/-- A digit is written in upper case. -/
theorem hexDigit_of_hexValue (h : hexValue c = some digit) : hexDigit digit = upperCase c := by
  have hlt := c.toNat_lt
  have hlower : 97 ≤ c.toNat → (c - 32).toNat = c.toNat - 32 := by
    intro hge
    rw [UInt8.toNat_sub_of_le _ _ (UInt8.le_iff_toNat_le.mpr (by simp; omega))]
    rfl
  apply UInt8.toNat_inj.mp
  rw [hexDigit, UInt8.toNat_ofNat', upperCase]
  rw [hexValue] at h
  split_ifs at h
  all_goals
    obtain rfl := Option.some.inj h
    split_ifs
    all_goals omega

end Digit

/-! ## Digits -/

section Digits

variable {text : List UInt8} {n acc : Nat}

@[simp] theorem length_writeHex (width n : Nat) : (writeHex width n).length = width := by
  induction width with
  | zero => rfl
  | succ width ih => simp [writeHex, ih]

theorem readHex_isSome : (readHex acc text).isSome ↔ ∀ c ∈ text, (hexValue c).isSome := by
  induction text generalizing acc with
  | nil => simp [readHex]
  | cons c text ih =>
    rw [readHex, List.forall_mem_cons]
    cases hvalue : hexValue c with
    | none => simp
    | some digit => simp [ih]

/-- The digits in front stay in front. -/
theorem div_of_readHex (h : readHex acc text = some n) : n / 16 ^ text.length = acc := by
  induction text generalizing acc with
  | nil => simpa [readHex] using (Option.some.inj h).symm
  | cons c text ih =>
    obtain ⟨digit, hdigit, hrest⟩ := Option.bind_eq_some_iff.mp h
    have hlt := hexValue_lt hdigit
    rw [List.length_cons, pow_succ, ← Nat.div_div_eq_div_mul, ih hrest]
    omega

/-- Digits that were read are written in upper case. -/
theorem writeHex_of_readHex (h : readHex acc text = some n) :
    writeHex text.length n = text.map upperCase := by
  induction text generalizing acc with
  | nil => rfl
  | cons c text ih =>
    obtain ⟨digit, hdigit, hrest⟩ := Option.bind_eq_some_iff.mp h
    have hlt := hexValue_lt hdigit
    have hmod : (acc * 16 + digit) % 16 = digit := by omega
    rw [List.length_cons, writeHex, div_of_readHex hrest, hmod, hexDigit_of_hexValue hdigit,
      ih hrest, List.map_cons]

/-- Digits that were written are read back. -/
theorem readHex_writeHex (width n : Nat) :
    readHex acc (writeHex width n) = some (acc * 16 ^ width + n % 16 ^ width) := by
  induction width generalizing acc with
  | zero => simp [writeHex, readHex, Nat.mod_one]
  | succ width ih =>
    have hdigit := hexValue_hexDigit _ (Nat.mod_lt (n / 16 ^ width) (by decide : 0 < 16))
    rw [writeHex, readHex, hdigit, Option.bind_some, ih, Nat.mod_pow_succ]
    congr 1
    ring

/-- A number below the first power that is lost. -/
theorem lt_of_readHex (h : readHex 0 text = some n) : n < 16 ^ text.length := by
  have hdiv := div_of_readHex h
  rwa [Nat.div_eq_zero_iff_lt (pow_pos (by decide) _)] at hdiv

end Digits

end CqlDriver.Math
