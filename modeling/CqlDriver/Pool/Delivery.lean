import CqlDriver.Pool.Streams

/-!
# What callers of the pool receive

A search hands out ready connections only. `returnConnection` hands the returned
connection straight to a waiter and looks at the stream but not at `isReady()`: a
connection that a send or receive error closed while its stream was out reaches
the waiter closed. The stream itself is valid and unowned in every run.

## Main definitions

* `ConnectionPool.DeliversReady` — all pairs handed out so far were usable
* `ConnectionPool.ReturnsReady` — a returned connection is ready if anybody waits

## Main results

* `ConnectionPool.deliveries_unowned` — no stream is ever handed out twice
* `ConnectionPool.deliversReady_of_returnsReady` — where returned connections are
  ready, all deliveries are
* `ConnectionPool.not_forall_deliversReady` — a run that delivers a closed connection
-/

namespace CqlDriver.ConnectionPool

variable {nodeConfiguration : Nat → NodeConfiguration} {config : SessionConfiguration}
  {p : ConnectionPool}

/-- Every pair handed out so far was, at that moment, a ready connection with a
valid stream that nobody else owned. -/
def DeliversReady (p : ConnectionPool) : Prop :=
  ∀ delivery ∈ p.deliveries, delivery.isReady = true ∧ delivery.IsUnowned

/-- A connection returned while somebody waits is still ready. -/
def ReturnsReady (p : ConnectionPool) : Event → Prop
  | .returnConnection id _ => p.waiters = [] ∨ p.isReady id = true
  | _ => True

instance : ∀ (p : ConnectionPool) (event : Event), Decidable (ReturnsReady p event)
  | p, .returnConnection id _ => inferInstanceAs (Decidable (p.waiters = [] ∨ p.isReady id = true))
  | _, .getConnection | _, .releaseStream _ _ | _, .closeConnection _ | _, .spawnChoose _
  | _, .spawnConnected _ | _, .spawnConnectFailed _ _ | _, .spawnFinally _ | _, .findIdleTick
  | _, .findIdleFinally | _, .dropIdleTick | _, .dropIdleFinally | _, .otherPool _ =>
    inferInstanceAs (Decidable True)

/-- In every run, a stream that is handed out was valid and unowned. -/
theorem deliveries_unowned (h : (system nodeConfiguration config).Reachable p) :
    ∀ delivery ∈ p.deliveries, delivery.IsUnowned := by
  have hsound : p.Sound Delivery.IsUnowned nodeConfiguration := by
    refine Math.TransitionSystem.Reachable.invariant
      (fun p => p.Sound Delivery.IsUnowned nodeConfiguration) (fun _ => Sound.of_start) ?_ h
    intro p event q hp hstep
    refine hp.step (fun _ _ hunowned => hunowned) ?_ hstep
    intro _ _ _ _ _ s hpositive
    exact ⟨hpositive, rfl⟩
  exact hsound.delivered

/-- In every run that returns only ready connections to a pool with waiters, all
deliveries are of ready connections with valid and unowned streams. -/
theorem deliversReady_of_returnsReady
    (h : (system nodeConfiguration config).ReachableWhen ReturnsReady p) : p.DeliversReady := by
  let P : Delivery → Prop := fun delivery => delivery.isReady = true ∧ delivery.IsUnowned
  have hsound : p.Sound P nodeConfiguration := by
    refine Math.TransitionSystem.ReachableWhen.invariant
      (fun p => p.Sound P nodeConfiguration) (fun _ => Sound.of_start) ?_ h
    intro p event q hp hallowed hstep
    refine hp.step (fun _ hready hunowned => ⟨hready, hunowned⟩) ?_ hstep
    rintro id stream rfl hwaiters caller s hpositive
    -- the only delivery that does not look at the flag
    exact ⟨hallowed.resolve_left hwaiters, hpositive, rfl⟩
  exact hsound.delivered

/-- The second caller waits for the stream of the first one and gets it after it
was returned. -/
theorem deliversReady_of_returnsReady_run :
    ∃ p, (system oneStream ⟨0, 1, 100⟩).ReachableWhen ReturnsReady p ∧
      p.deliveries.length = 2 ∧ p.DeliversReady := by
  have hrun : ((system oneStream ⟨0, 1, 100⟩).runWhen ReturnsReady (create oneNode)
      [.getConnection, .spawnConnected 0, .spawnFinally 0, .getConnection,
        .returnConnection 0 1]).map (·.deliveries) =
      some [⟨1, 0, 1, true, false⟩, ⟨0, 0, 1, true, false⟩] := by decide
  obtain ⟨p, hp, hdeliveries⟩ := Option.map_eq_some_iff.mp hrun
  have hreach : (system oneStream ⟨0, 1, 100⟩).ReachableWhen ReturnsReady p :=
    .of_runWhen (.start ⟨oneNode, oneNode_reachable, rfl⟩) hp
  exact ⟨p, hreach, by rw [hdeliveries]; rfl, deliversReady_of_returnsReady hreach⟩

/-- The same run with a receive error before the stream is returned: the second
caller gets a closed connection. -/
theorem not_forall_deliversReady :
    ¬ ∀ p, (system oneStream ⟨0, 1, 100⟩).Reachable p → p.DeliversReady := by
  intro hall
  have hrun : ((system oneStream ⟨0, 1, 100⟩).run (create oneNode)
      [.getConnection, .spawnConnected 0, .spawnFinally 0, .getConnection, .closeConnection 0,
        .returnConnection 0 1]).map (·.deliveries) =
      some [⟨1, 0, 1, false, false⟩, ⟨0, 0, 1, true, false⟩] := by decide
  obtain ⟨p, hp, hdeliveries⟩ := Option.map_eq_some_iff.mp hrun
  have hready := hall p
    (Math.TransitionSystem.reachable_of_run ⟨oneNode, oneNode_reachable, rfl⟩ hp)
  rw [DeliversReady, hdeliveries] at hready
  cases (hready _ List.mem_cons_self).1

end CqlDriver.ConnectionPool
