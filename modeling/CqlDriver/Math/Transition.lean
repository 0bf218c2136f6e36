import Mathlib.Logic.Function.Basic

/-!
# Transition systems and the states their runs reach

A component that reacts to events is a start predicate and a partial step: an
event that is not possible in a state has no successor there. Everything proved
about such a component is proved along its runs.

A run may be restricted step by step. `ReachableWhen` keeps the restriction next
to the run, so that a property which needs well-behaved steps can be stated over
exactly the runs that have them, and `Reachable` is the unrestricted case.

## Main definitions

* `TransitionSystem` — start states and a partial step labelled by events
* `TransitionSystem.ReachableWhen` — states of the runs whose steps are allowed
* `TransitionSystem.Reachable` — states of all runs
* `TransitionSystem.startingFrom` — the runs that go on from one state
* `TransitionSystem.run`, `TransitionSystem.runWhen` — executable runs over a list
  of events

## Main results

* `ReachableWhen.invariant`, `Reachable.invariant` — the induction over a run
* `reachable_of_run`, `ReachableWhen.of_runWhen` — an executed run is a run
* `length_add_measure_le` — a measure that every step makes smaller bounds the runs
-/

namespace CqlDriver.Math

/-- A system driven by events: `step s a` is the state after event `a`, or
`none` when `a` cannot happen in `s`. -/
structure TransitionSystem (σ α : Type*) where
  /-- The states a run may start in. -/
  start : σ → Prop
  /-- One step. -/
  step : σ → α → Option σ

namespace TransitionSystem

variable {σ α : Type*} {T : TransitionSystem σ α} {s t : σ} {a : α}

/-- The states of the runs all of whose steps are `allowed`. -/
inductive ReachableWhen (T : TransitionSystem σ α) (allowed : σ → α → Prop) : σ → Prop
  | start {s : σ} : T.start s → ReachableWhen T allowed s
  | step {s t : σ} {a : α} :
      ReachableWhen T allowed s → allowed s a → T.step s a = some t →
        ReachableWhen T allowed t

/-- The states of all runs. -/
def Reachable (T : TransitionSystem σ α) : σ → Prop :=
  T.ReachableWhen fun _ _ => True

theorem Reachable.of_start (h : T.start s) : T.Reachable s := .start h

theorem Reachable.of_step (h : T.Reachable s) (hstep : T.step s a = some t) :
    T.Reachable t :=
  .step h trivial hstep

/-- A restricted run is a run. -/
theorem ReachableWhen.reachable {allowed : σ → α → Prop}
    (h : T.ReachableWhen allowed s) : T.Reachable s := by
  induction h with
  | start hstart => exact .of_start hstart
  | step _ _ hstep ih => exact ih.of_step hstep

/-- What holds at the start and is kept by every allowed step holds along every
run of allowed steps. -/
theorem ReachableWhen.invariant {allowed : σ → α → Prop} (inv : σ → Prop)
    (starts : ∀ s, T.start s → inv s)
    (kept : ∀ s a t, inv s → allowed s a → T.step s a = some t → inv t)
    (h : T.ReachableWhen allowed s) : inv s := by
  induction h with
  | start hstart => exact starts _ hstart
  | step _ hallowed hstep ih => exact kept _ _ _ ih hallowed hstep

/-- What holds at the start and is kept by every step holds along every run. -/
theorem Reachable.invariant (inv : σ → Prop)
    (starts : ∀ s, T.start s → inv s)
    (kept : ∀ s a t, inv s → T.step s a = some t → inv t)
    (h : T.Reachable s) : inv s :=
  ReachableWhen.invariant inv starts (fun s a t hs _ => kept s a t hs) h

/-- The same system from one state on. -/
def startingFrom (T : TransitionSystem σ α) (s : σ) : TransitionSystem σ α where
  start t := t = s
  step := T.step

/-- Execute a list of events, stopping at the first one that is impossible or not
allowed. -/
def runWhen (T : TransitionSystem σ α) (allowed : σ → α → Prop)
    [∀ s a, Decidable (allowed s a)] (s : σ) : List α → Option σ
  | [] => some s
  | a :: rest =>
    if allowed s a then (T.step s a).bind fun t => runWhen T allowed t rest else none

/-- Execute a list of events, stopping at the first impossible one. -/
def run (T : TransitionSystem σ α) (s : σ) (events : List α) : Option σ :=
  T.runWhen (fun _ _ => True) s events

/-- An executed run of allowed steps ends in a state of such a run. -/
theorem ReachableWhen.of_runWhen {allowed : σ → α → Prop} [∀ s a, Decidable (allowed s a)]
    {events : List α} (hs : T.ReachableWhen allowed s)
    (hrun : T.runWhen allowed s events = some t) : T.ReachableWhen allowed t := by
  induction events generalizing s with
  | nil =>
    cases hrun
    exact hs
  | cons a rest ih =>
    rw [runWhen] at hrun
    split at hrun
    next hallowed =>
      obtain ⟨u, hstep, hrest⟩ := Option.bind_eq_some_iff.mp hrun
      exact ih (.step hs hallowed hstep) hrest
    · cases hrun

/-- An executed run ends in a reachable state. -/
theorem reachable_of_run {events : List α} (hstart : T.start s)
    (hrun : T.run s events = some t) : T.Reachable t :=
  ReachableWhen.of_runWhen (.start hstart) hrun

/-- A run from a reachable state is no longer than a measure that every step of a run
makes smaller. -/
theorem length_add_measure_le (measure : σ → Nat)
    (decreases : ∀ s a t, T.Reachable s → T.step s a = some t → measure t < measure s)
    {events : List α} (hs : T.Reachable s) (hrun : T.run s events = some t) :
    events.length + measure t ≤ measure s := by
  induction events generalizing s with
  | nil =>
    cases hrun
    exact Nat.le_of_eq (Nat.zero_add _)
  | cons a rest ih =>
    rw [run, runWhen, if_pos trivial] at hrun
    obtain ⟨u, hstep, hrest⟩ := Option.bind_eq_some_iff.mp hrun
    have hle := ih (hs.of_step hstep) hrest
    have hlt := decreases s a u hs hstep
    rw [List.length_cons]
    omega

end TransitionSystem

end CqlDriver.Math
