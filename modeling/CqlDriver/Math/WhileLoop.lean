import Mathlib.Logic.Basic

/-!
# Loops

A loop is a partial step: the state after one more round, or nothing when its condition fails.
What a loop computes is a relation, which has no pair for a loop that does not stop. A measure
that every round makes smaller bounds the rounds, so the result can be computed.

## Main definitions

* `LoopEnds` — the loop stops, and in which state
* `loopRounds` — a bounded number of rounds

## Main results

* `loopEnds_loopRounds` — as many rounds as the measure are enough
* `LoopEnds.invariant` — what every round keeps holds at the end
-/

namespace CqlDriver.Math

variable {σ : Type*} {round : σ → Option σ} {s t u : σ}

/-- From the first state, the loop stops in the second one. -/
inductive LoopEnds (round : σ → Option σ) : σ → σ → Prop
  | stop {s : σ} (h : round s = none) : LoopEnds round s s
  | next {s t u : σ} (h : round s = some t) (rest : LoopEnds round t u) : LoopEnds round s u

/-- At most this many rounds. -/
def loopRounds (round : σ → Option σ) : Nat → σ → σ
  | 0, s => s
  | n + 1, s =>
    match round s with
    | none => s
    | some t => loopRounds round n t

namespace LoopEnds

/-- The loop has stopped. -/
theorem stopped (h : LoopEnds round s t) : round t = none := by
  induction h with
  | stop h => exact h
  | next _ _ ih => exact ih

/-- What every round keeps holds at the end. -/
theorem invariant (h : LoopEnds round s t) (inv : σ → Prop)
    (kept : ∀ s t, round s = some t → inv s → inv t) (hs : inv s) : inv t := by
  induction h with
  | stop => exact hs
  | next hround _ ih => exact ih (kept _ _ hround hs)

theorem unique (h : LoopEnds round s t) (h' : LoopEnds round s u) : t = u := by
  induction h with
  | stop hstop =>
    cases h' with
    | stop => rfl
    | next hround => exact absurd (hstop.symm.trans hround) (by simp)
  | next hround _ ih =>
    cases h' with
    | stop hstop => exact absurd (hstop.symm.trans hround) (by simp)
    | next hround' rest' =>
      obtain rfl := Option.some.inj (hround.symm.trans hround')
      exact ih rest'

end LoopEnds

/-- A loop whose rounds make a measure smaller stops within that many loopRounds. -/
theorem loopEnds_loopRounds (measure : σ → Nat)
    (decreases : ∀ s t, round s = some t → measure t < measure s) {n : Nat} (hn : measure s ≤ n) :
    LoopEnds round s (loopRounds round n s) := by
  induction n generalizing s with
  | zero =>
    -- no round is possible any more
    cases hround : round s with
    | none => exact .stop hround
    | some t =>
      have hless := decreases s t hround
      omega
  | succ n ih =>
    cases hround : round s with
    | none =>
      rw [loopRounds, hround]
      exact .stop hround
    | some t =>
      have hless := decreases s t hround
      rw [loopRounds, hround]
      exact .next hround (ih (by omega))

/-- A loop that is run again stops at once. -/
theorem loopRounds_of_stopped (h : round s = none) (n : Nat) : loopRounds round n s = s := by
  cases n with
  | zero => rfl
  | succ n => rw [loopRounds, h]

end CqlDriver.Math
