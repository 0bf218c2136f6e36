import Mathlib.Data.List.Induction
import CqlDriver.Math.Transition

/-!
# What holds everywhere along a run

A property holds in all states of a run exactly when all steps of the run meet a condition, if
there is an invariant that implies the property, that steps keep if they meet the condition, and
from which the other steps lead to states without the property.

## Main definitions

* `TransitionSystem.Everywhere` — all states that a list of events passes
* `TransitionSystem.EachStep` — all steps that it takes

## Main results

* `TransitionSystem.everywhere_iff_eachStep`
* `TransitionSystem.ReachableWhen.of_run` — a run of events that are always allowed
* `TransitionSystem.countP_add_measure_le` — a bound on how often events happen
-/

namespace CqlDriver.Math.TransitionSystem

variable {σ α : Type*} {T : TransitionSystem σ α} {start : σ} {events : List α}
  {inv P : σ → Prop} {allowed : σ → α → Prop}

/-- All states that the events lead to one after another. -/
def Everywhere (T : TransitionSystem σ α) (start : σ) (events : List α) (P : σ → Prop) : Prop :=
  ∀ before, before <+: events → ∀ s, T.run start before = some s → P s

/-- All steps that the events take. -/
def EachStep (T : TransitionSystem σ α) (start : σ) (events : List α)
    (allowed : σ → α → Prop) : Prop :=
  ∀ before a, before ++ [a] <+: events →
    ∀ s t, T.run start before = some s → T.step s a = some t → allowed s a

@[simp] theorem run_nil (T : TransitionSystem σ α) (s : σ) : T.run s [] = some s := rfl

theorem run_cons (T : TransitionSystem σ α) (s : σ) (a : α) (events : List α) :
    T.run s (a :: events) = (T.step s a).bind fun t => T.run t events := by
  simp [run, runWhen]

/-- The last step of a run. -/
theorem run_concat (T : TransitionSystem σ α) (s : σ) (events : List α) (a : α) :
    T.run s (events ++ [a]) = (T.run s events).bind fun t => T.step t a := by
  induction events generalizing s with
  | nil => simp [run_cons]
  | cons b events ih =>
    rw [List.cons_append, run_cons, run_cons, Option.bind_assoc]
    congr 1
    funext t
    exact ih t

/-- Fewer steps may be allowed. -/
theorem ReachableWhen.mono {other : σ → α → Prop} {s : σ} (h : T.ReachableWhen allowed s)
    (hle : ∀ s a, allowed s a → other s a) : T.ReachableWhen other s := by
  induction h with
  | start hstart => exact .start hstart
  | step _ hallowed hstep ih => exact ih.step (hle _ _ hallowed) hstep

/-- A run of events that are allowed in every state is a run of allowed steps. -/
theorem ReachableWhen.of_run (hs : T.ReachableWhen allowed start)
    (hallowed : ∀ a ∈ events, ∀ s, allowed s a) {t : σ} (hrun : T.run start events = some t) :
    T.ReachableWhen allowed t := by
  induction events generalizing start with
  | nil =>
    cases hrun
    exact hs
  | cons a events ih =>
    rw [run_cons] at hrun
    obtain ⟨u, hstep, hrest⟩ := Option.bind_eq_some_iff.mp hrun
    apply ih (.step hs (hallowed a List.mem_cons_self start) hstep) _ hrest
    exact fun b hb => hallowed b (List.mem_cons_of_mem a hb)

/-- A measure that no step of a run makes larger and some events make smaller bounds how often
these events happen. -/
theorem countP_add_measure_le (measure : σ → Nat) (counts : α → Bool)
    (decreases : ∀ s a t, T.Reachable s → T.step s a = some t →
      (if counts a then 1 else 0) + measure t ≤ measure s)
    {s t : σ} (hs : T.Reachable s) (hrun : T.run s events = some t) :
    events.countP counts + measure t ≤ measure s := by
  induction events generalizing s with
  | nil =>
    cases hrun
    simp
  | cons a events ih =>
    rw [run_cons] at hrun
    obtain ⟨u, hstep, hrest⟩ := Option.bind_eq_some_iff.mp hrun
    have hothers := ih (hs.of_step hstep) hrest
    have hfirst := decreases s a u hs hstep
    rw [List.countP_cons]
    omega

/-- The length of a run of events that all make a measure smaller. -/
theorem length_add_measure_le_of_forall_mem (measure : σ → Nat) (counts : α → Prop)
    (decreases : ∀ s a t, counts a → T.step s a = some t → measure t < measure s)
    (hcounts : ∀ a ∈ events, counts a) {s t : σ} (hrun : T.run s events = some t) :
    events.length + measure t ≤ measure s := by
  induction events generalizing s with
  | nil =>
    cases hrun
    simp
  | cons a events ih =>
    rw [run_cons] at hrun
    obtain ⟨u, hstep, hrest⟩ := Option.bind_eq_some_iff.mp hrun
    obtain ⟨hfirst, hothers⟩ := List.forall_mem_cons.mp hcounts
    have hle := ih hothers hrest
    have hlt := decreases s a u hfirst hstep
    rw [List.length_cons]
    omega

/-- Steps that meet the condition keep the invariant. -/
theorem inv_of_eachStep (starts : inv start)
    (kept : ∀ s a t, inv s → allowed s a → T.step s a = some t → inv t)
    (hallowed : T.EachStep start events allowed) : T.Everywhere start events inv := by
  intro before hbefore
  induction before using List.reverseRecOn with
  | nil =>
    intro s hrun
    obtain rfl := Option.some.inj hrun
    exact starts
  | append_singleton before a ih =>
    intro t hrun
    rw [run_concat] at hrun
    obtain ⟨s, hs, hstep⟩ := Option.bind_eq_some_iff.mp hrun
    have hinv := ih ((List.prefix_append before [a]).trans hbefore) s hs
    exact kept s a t hinv (hallowed before a hbefore s t hs hstep) hstep

/-- Where a step that does not meet the condition breaks the property, the invariant holds as long
as the property does. -/
theorem inv_of_everywhere (starts : inv start)
    (kept : ∀ s a t, inv s → allowed s a → T.step s a = some t → inv t)
    (breaks : ∀ s a t, inv s → ¬ allowed s a → T.step s a = some t → ¬ P t)
    (heverywhere : T.Everywhere start events P) : T.Everywhere start events inv := by
  intro before hbefore
  induction before using List.reverseRecOn with
  | nil =>
    intro s hrun
    obtain rfl := Option.some.inj hrun
    exact starts
  | append_singleton before a ih =>
    intro t hrun
    have ht := heverywhere _ hbefore t hrun
    rw [run_concat] at hrun
    obtain ⟨s, hs, hstep⟩ := Option.bind_eq_some_iff.mp hrun
    have hinv := ih ((List.prefix_append before [a]).trans hbefore) s hs
    by_cases hallowed : allowed s a
    · exact kept s a t hinv hallowed hstep
    · exact absurd ht (breaks s a t hinv hallowed hstep)

/-- The property holds everywhere exactly when each step meets the condition. -/
theorem everywhere_iff_eachStep (starts : inv start) (implies : ∀ s, inv s → P s)
    (kept : ∀ s a t, inv s → allowed s a → T.step s a = some t → inv t)
    (breaks : ∀ s a t, inv s → ¬ allowed s a → T.step s a = some t → ¬ P t) :
    T.Everywhere start events P ↔ T.EachStep start events allowed := by
  constructor
  · intro heverywhere before a hbefore s t hs hstep
    have hinv := inv_of_everywhere starts kept breaks heverywhere before
      ((List.prefix_append before [a]).trans hbefore) s hs
    by_contra hnot
    refine breaks s a t hinv hnot hstep (heverywhere _ hbefore t ?_)
    rw [run_concat, hs]
    exact hstep
  · intro hallowed before hbefore s hs
    exact implies s (inv_of_eachStep starts kept hallowed before hbefore s hs)

end CqlDriver.Math.TransitionSystem
