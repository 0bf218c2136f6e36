import Mathlib.Algebra.Group.Basic
import Mathlib.Algebra.Order.Ring.Nat

/-!
# Powers by squaring

`powInteger` is a template, so it is modelled for everything that can be multiplied. Its
exponent is a `std::size_t`.

## Main definitions

* `powInteger` — the fast integer pow function

## Main results

* `powInteger_eq_pow` — it is the power, in every monoid
-/

namespace CqlDriver

section Definition

variable {α : Type} [Mul α]

/-- The loop of `powInteger`; an exponent of 64 bits is zero after as many rounds. -/
def powIntegerLoop : Nat → α → α → Nat → α
  | 0, result, _, _ => result
  | bits + 1, result, base, exponent =>
    if 0 < exponent then
      powIntegerLoop bits (if exponent &&& 1 ≠ 0 then result * base else result) (base * base)
        (exponent >>> 1)
    else result

/-- The fast integer pow function. -/
def powInteger [One α] (base : α) (exponent : Nat) : α := powIntegerLoop 64 1 base exponent

end Definition

section Power

variable {M : Type} [Monoid M] {base result : M} {bits exponent : Nat}

/-- What is left of the exponent is the power of the current base that is missing. -/
theorem powIntegerLoop_eq (h : exponent < 2 ^ bits) :
    powIntegerLoop bits result base exponent = result * base ^ exponent := by
  induction bits generalizing result base exponent with
  | zero =>
    obtain rfl : exponent = 0 := by omega
    rw [powIntegerLoop, pow_zero, mul_one]
  | succ bits ih =>
    rw [powIntegerLoop]
    by_cases hpos : 0 < exponent
    · have hhalf : exponent >>> 1 = exponent / 2 := Nat.shiftRight_eq_div_pow exponent 1
      have hlt : exponent >>> 1 < 2 ^ bits := by
        rw [hhalf]
        omega
      have hsquare : (base * base) ^ (exponent >>> 1) = base ^ (2 * (exponent / 2)) := by
        rw [hhalf, pow_mul, sq]
      rw [if_pos hpos, ih hlt, hsquare, Nat.and_one_is_mod]
      by_cases hodd : exponent % 2 ≠ 0
      · -- an odd exponent takes one factor now
        have hsplit : exponent = 2 * (exponent / 2) + 1 := by omega
        rw [if_pos hodd, mul_assoc, ← pow_succ', ← hsplit]
      · have hsplit : exponent = 2 * (exponent / 2) := by omega
        rw [if_neg hodd, ← hsplit]
    · obtain rfl : exponent = 0 := by omega
      rw [if_neg hpos, pow_zero, mul_one]

theorem powInteger_eq_pow (h : exponent < 2 ^ 64) : powInteger base exponent = base ^ exponent := by
  rw [powInteger, powIntegerLoop_eq h, one_mul]

end Power

end CqlDriver
