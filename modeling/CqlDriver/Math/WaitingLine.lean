import Mathlib.Algebra.Order.Group.Multiset
import Mathlib.Data.Multiset.Range
import CqlDriver.Math.Runs

/-!
# Waiting lines

Callers ask for something, and each gets one answer. A caller is answered at once or joins the end
of a line, which is served from the front. Callers are numbered in the order they come.

Whatever else the component does, if its steps move the line in these ways only, no caller is lost
or answered twice, and those who wait are answered in the order they came. How many callers a run
takes off the line is bounded from below by the number of its steps that serve somebody.

## Main definitions

* `WaitingLine` — who waits and who was answered
* `WaitingLine.Sound` — everybody who came is in one of the places, once
* `WaitingLine.Moves` — from one line to another, with so many callers taken off

## Main results

* `WaitingLine.Moves.sound` — nobody is lost or answered twice
* `WaitingLine.Moves.filter_waiting` — who waited before is served from the front
* `WaitingLine.exists_moves_of_run` — along a run
-/

namespace CqlDriver.Math

/-- Callers by number: those who wait, from the front, those who were answered, and the number of
the next one to come. -/
structure WaitingLine where
  waiting : List Nat
  answered : Multiset Nat
  next : Nat

namespace WaitingLine

/-- A caller that is in no place is answered. -/
def answer (l : WaitingLine) (caller : Nat) : WaitingLine :=
  { l with answered := caller ::ₘ l.answered }

@[simp] theorem waiting_answer (l : WaitingLine) (caller : Nat) :
    (l.answer caller).waiting = l.waiting := rfl

@[simp] theorem next_answer (l : WaitingLine) (caller : Nat) :
    (l.answer caller).next = l.next := rfl

variable {l m k : WaitingLine} {n j caller : Nat} {rest : List Nat}

/-- Everybody who came waits or was answered, once; the line is in the order of arrival. -/
structure Sound (l : WaitingLine) : Prop where
  once : (l.waiting : Multiset Nat) + l.answered = Multiset.range l.next
  ordered : l.waiting.Pairwise (· < ·)

/-- From `l` to the second line, `n` callers were taken off the front. To take one off an empty
line changes nothing. -/
inductive Moves (l : WaitingLine) : Nat → WaitingLine → Prop
  | refl : Moves l 0 l
  | serve {n : Nat} {m : WaitingLine} {caller : Nat} {rest : List Nat} (h : Moves l n m)
      (front : m.waiting = caller :: rest) :
      Moves l (n + 1) (answer { m with waiting := rest } caller)
  | idle {n : Nat} {m : WaitingLine} (h : Moves l n m) (nobody : m.waiting = []) :
      Moves l (n + 1) m
  | join {n : Nat} {m : WaitingLine} (h : Moves l n m) :
      Moves l n { m with waiting := m.waiting ++ [m.next], next := m.next + 1 }
  | pass {n : Nat} {m : WaitingLine} (h : Moves l n m) :
      Moves l n (answer { m with next := m.next + 1 } m.next)

theorem Sound.lt_next (h : l.Sound) (hmem : caller ∈ l.waiting) : caller < l.next := by
  have hrange : caller ∈ Multiset.range l.next := by
    rw [← h.once]
    exact Multiset.mem_add.mpr (.inl (Multiset.mem_coe.mpr hmem))
  exact Multiset.mem_range.mp hrange

namespace Moves

/-- Nobody is lost or answered twice. -/
theorem sound (h : l.Moves n m) (hsound : l.Sound) : m.Sound := by
  induction h with
  | refl => exact hsound
  | @serve n m caller rest h front ih =>
    obtain ⟨honce, hordered⟩ := ih
    rw [front] at honce hordered
    refine ⟨?_, hordered.of_cons⟩
    rw [waiting_answer, next_answer, answer, ← honce, ← Multiset.cons_coe, Multiset.cons_add,
      Multiset.add_cons]
  | idle h nobody ih => exact ih
  | @join n m h ih =>
    refine ⟨?_, ?_⟩
    · rw [Multiset.range_succ, ← ih.once, ← Multiset.coe_add, add_right_comm,
        Multiset.coe_singleton, add_comm _ ({m.next} : Multiset Nat), Multiset.singleton_add]
    · rw [List.pairwise_append]
      refine ⟨ih.ordered, List.pairwise_singleton _ _, fun caller hcaller new hnew => ?_⟩
      rw [List.mem_singleton.mp hnew]
      exact ih.lt_next hcaller
  | @pass n m h ih =>
    refine ⟨?_, ih.ordered⟩
    rw [waiting_answer, next_answer, answer, Multiset.range_succ, ← ih.once, Multiset.add_cons]

theorem next_le (h : l.Moves n m) : l.next ≤ m.next := by
  induction h with
  | refl => exact Nat.le_refl _
  | serve h front ih => exact ih
  | idle h nobody ih => exact ih
  | join h ih => exact Nat.le_succ_of_le ih
  | pass h ih => exact Nat.le_succ_of_le ih

/-- Of those who waited, the first have been taken off and the others wait in the same order,
whoever has come since. -/
theorem filter_waiting (h : l.Moves n m) (hsound : l.Sound) :
    m.waiting.filter (· < l.next) = l.waiting.drop n := by
  induction h with
  | refl =>
    rw [List.drop_zero, List.filter_eq_self]
    intro caller hcaller
    exact decide_eq_true (hsound.lt_next hcaller)
  | @serve n m caller rest h front ih =>
    have hordered := (h.sound hsound).ordered
    rw [front] at ih hordered
    rw [← List.drop_drop, ← ih, waiting_answer]
    by_cases hold : caller < l.next
    · rw [List.filter_cons_of_pos (by simpa using hold), List.drop_one, List.tail_cons]
    · -- behind somebody who has come since there are only others who have come since
      have hnone : rest.filter (· < l.next) = [] := by
        rw [List.filter_eq_nil_iff]
        intro other hother hbefore
        have hbehind := List.rel_of_pairwise_cons hordered hother
        have hlt : other < l.next := by simpa using hbefore
        omega
      rw [List.filter_cons_of_neg (by simpa using hold), hnone]
      rfl
  | idle h nobody ih =>
    rw [nobody] at ih ⊢
    rw [← List.drop_drop, ← ih]
    rfl
  | @join n m h ih =>
    have hnew : ¬ m.next < l.next := Nat.not_lt.mpr h.next_le
    simpa [List.filter_append, hnew] using ih
  | pass h ih => exact ih

theorem trans (h : l.Moves n m) (h' : m.Moves j k) : l.Moves (n + j) k := by
  induction h' with
  | refl => exact h
  | serve _ front ih => exact ih.serve front
  | idle _ nobody ih => exact ih.idle nobody
  | join _ ih => exact ih.join
  | pass _ ih => exact ih.pass

theorem length_le (h : l.Moves n m) : l.waiting.length ≤ m.waiting.length + n := by
  induction h with
  | refl => exact Nat.le_refl _
  | serve h front ih =>
    rw [front, List.length_cons] at ih
    rw [waiting_answer]
    dsimp only
    omega
  | idle h nobody ih => omega
  | join h ih =>
    rw [List.length_append]
    omega
  | pass h ih => exact ih

end Moves

/-- The whole line is served. -/
theorem moves_all (waiting : List Nat) (answered : Multiset Nat) (next : Nat) :
    Moves ⟨waiting, answered, next⟩ waiting.length ⟨[], waiting + answered, next⟩ := by
  induction waiting generalizing answered with
  | nil => simpa using Moves.refl
  | cons caller rest ih =>
    have hfirst : Moves ⟨caller :: rest, answered, next⟩ 1 ⟨rest, caller ::ₘ answered, next⟩ :=
      Moves.serve .refl rfl
    have hall := hfirst.trans (ih (caller ::ₘ answered))
    rw [List.length_cons, Nat.add_comm]
    simpa [← Multiset.cons_coe] using hall

variable {σ α : Type*} {T : TransitionSystem σ α} {line : σ → WaitingLine} {serves : α → Bool}
  {events : List α} {s t : σ}

/-- If every step moves the line, and some steps take somebody off, so does a run. -/
theorem exists_moves_of_run
    (hstep : ∀ s a t, T.Reachable s → T.step s a = some t →
      ∃ n, (serves a = true → 0 < n) ∧ (line s).Moves n (line t))
    (hs : T.Reachable s) (hrun : T.run s events = some t) :
    ∃ n, events.countP serves ≤ n ∧ (line s).Moves n (line t) := by
  induction events generalizing s with
  | nil =>
    cases hrun
    exact ⟨0, Nat.le_refl 0, .refl⟩
  | cons a events ih =>
    rw [TransitionSystem.run_cons] at hrun
    obtain ⟨u, hu, hrest⟩ := Option.bind_eq_some_iff.mp hrun
    obtain ⟨first, hfirst, hmoves⟩ := hstep s a u hs hu
    obtain ⟨others, hothers, hmoves'⟩ := ih (hs.of_step hu) hrest
    refine ⟨first + others, ?_, hmoves.trans hmoves'⟩
    rw [List.countP_cons]
    split
    next hserves =>
      have hpos := hfirst hserves
      omega
    · omega

end WaitingLine

end CqlDriver.Math
