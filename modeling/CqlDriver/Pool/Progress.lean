import CqlDriver.Pool.Waiters

/-!
# What a tick of the find-idle timer achieves

A tick feeds the waiters and, if some are left, spawns a connection when the pool
is below its minimum, "to prevent waiting indefinitely". With a minimum of zero it
never is below: after the last connection of the pool has been closed, the timer
goes on ticking over an empty pool. With any minimum, a loop that has already added
its connection or given up counts in `connectingCount_` until its `finally`, and a
tick that comes in between takes it for a connection that is being made.

## Main definitions

* `ConnectionPool.Progress` — the tick served somebody, or a spawn loop is still
  trying, or a ready connection is in the pool
* `ConnectionPool.Counted` — `connectingCount_` counts the loops before their `finally`

## Main results

* `ConnectionPool.findIdleTick_progress_iff` — exactly when a tick with waiters
  makes progress
* `ConnectionPool.not_forall_progress` — a run whose tick makes none
-/

namespace CqlDriver

/-- The loop is still counted by `connectingCount_`. -/
def SpawnLoop.inProgress (loop : SpawnLoop) : Bool := decide (loop.phase ≠ .finished)

namespace ConnectionPool

variable {nodeConfiguration : Nat → NodeConfiguration} {config : SessionConfiguration}
  {p q : ConnectionPool} {id stream i count node : Nat}

/-- A spawn loop is still making a connection. -/
def HasSpawn (p : ConnectionPool) : Prop := ∃ loop ∈ p.spawns, loop.isAttempting = true

/-- What a tick from `before` to `after` has to achieve. -/
def Progress (before after : ConnectionPool) : Prop :=
  before.deliveries.length < after.deliveries.length ∨ after.HasSpawn ∨ after.HasReady

/-- `connectingCount_` counts the spawn loops whose `finally` has not run. -/
def Counted (p : ConnectionPool) : Prop :=
  p.connectingCount = p.spawns.countP SpawnLoop.inProgress

namespace Counted

theorem frame (h : p.Counted) (hcount : q.connectingCount = p.connectingCount)
    (hspawns : q.spawns = p.spawns) : q.Counted := by
  rw [Counted, hcount, hspawns]
  exact h

theorem of_sameLoops (h : p.Counted) (hsame : p.SameLoops q) : q.Counted :=
  h.frame hsame.connectingCount hsame.spawns

/-- A loop that moves on to an unfinished phase. -/
theorem setSpawn (h : p.Counted) {loop : SpawnLoop} (new : SpawnLoop)
    (hspawn : p.spawns[i]? = some loop) (hloop : loop.inProgress = true)
    (hnew : new.inProgress = true) (hcount : q.connectingCount = p.connectingCount)
    (hspawns : q.spawns = p.spawns.set i new) : q.Counted := by
  rw [Counted, hcount, hspawns, Math.countP_set_of_eq new hspawn (hnew.trans hloop.symm)]
  exact h

theorem chooseNode (h : p.Counted)
    (hspawn : p.spawns[i]? = some (SpawnLoop.mk count .choosing)) :
    (p.chooseNode nodeConfiguration i count).Counted := by
  rw [ConnectionPool.chooseNode]
  split
  next node next hchoose =>
    exact h.setSpawn ⟨count, .connecting node p.connections.length⟩ hspawn rfl rfl rfl rfl
  next hthrown =>
    exact h.setSpawn ⟨count, .finishing⟩ hspawn rfl rfl rfl rfl

theorem spawnConnection (h : p.Counted) : (p.spawnConnection nodeConfiguration).Counted := by
  rw [ConnectionPool.spawnConnection]
  apply chooseNode
  · rw [Counted] at h
    rw [Counted, List.countP_append, h]
    rfl
  · simp

theorem connectFailed (h : p.Counted)
    (hspawn : p.spawns[i]? = some (SpawnLoop.mk count (.connecting node id))) (ex : Exception) :
    (p.connectFailed i count node ex).Counted := by
  rw [ConnectionPool.connectFailed]
  split
  · split
    · exact h.setSpawn ⟨count + 1, .finishing⟩ hspawn rfl rfl rfl rfl
    · exact h.setSpawn ⟨count + 1, .choosing⟩ hspawn rfl rfl rfl rfl
  · exact h.setSpawn ⟨count, .finishing⟩ hspawn rfl rfl rfl rfl

theorem connected (h : p.Counted)
    (hspawn : p.spawns[i]? = some (SpawnLoop.mk count (.connecting node id))) :
    (p.connected i count node id).Counted := by
  have hready : (p.setReady id true).Counted := h.frame rfl rfl
  rw [ConnectionPool.connected]
  split
  · refine of_sameLoops ?_ (feedWaiters_sameLoops _)
    exact h.setSpawn ⟨count, .finishing⟩ hspawn rfl rfl rfl rfl
  · exact hready.connectFailed hspawn _

theorem addWaiter (h : p.Counted) (caller : Nat) : (p.addWaiter caller).Counted := by
  rw [ConnectionPool.addWaiter]
  split
  · exact h.frame rfl rfl
  · exact h.frame rfl rfl

theorem findIdleConnectionTimer (h : p.Counted) : p.findIdleConnectionTimer.Counted := by
  rw [ConnectionPool.findIdleConnectionTimer]
  split
  · exact h.frame rfl rfl
  · exact h

theorem dropIdleConnectionTimer (h : p.Counted) : p.dropIdleConnectionTimer.Counted := by
  rw [ConnectionPool.dropIdleConnectionTimer]
  split
  · exact h.frame rfl rfl
  · exact h

theorem getConnection (h : p.Counted) : (p.getConnection nodeConfiguration config).Counted := by
  have hnext : ({ p with nextCaller := p.nextCaller + 1 } : ConnectionPool).Counted := h.frame rfl rfl
  simp only [ConnectionPool.getConnection]
  split
  · split
    · exact (hnext.addWaiter _).spawnConnection
    · exact (hnext.addWaiter _).findIdleConnectionTimer
  · have hlookup := tryGetConnection_spec { p with nextCaller := p.nextCaller + 1 }
    split
    next id stream found hfound =>
      rw [hfound] at hlookup
      exact (hnext.of_sameLoops hlookup.sameLoops).frame rfl rfl
    next searched hsearched =>
      rw [hsearched] at hlookup
      have hmissing : searched.Counted := hnext.of_sameLoops hlookup.sameLoops
      split
      · exact hmissing.frame rfl rfl
      · split
        · exact (hmissing.addWaiter _).spawnConnection.dropIdleConnectionTimer
        · exact (hmissing.addWaiter _).findIdleConnectionTimer

theorem returnConnection (h : p.Counted) : (p.returnConnection id stream).Counted := by
  rw [ConnectionPool.returnConnection]
  split
  · exact h.frame rfl rfl
  · rw [openStream]
    split
    next opened heq =>
      split at heq
      · rw [Prod.mk.injEq] at heq
        rw [← heq.2]
        exact h.frame rfl rfl
      · cases heq
    next opened heq =>
      split at heq
      · rw [Prod.mk.injEq] at heq
        rw [← heq.2]
        exact h.frame rfl rfl
      · rw [Prod.mk.injEq] at heq
        rw [← heq.2]
        exact h.frame rfl rfl

theorem findIdleTick (h : p.Counted) : (p.findIdleTick nodeConfiguration config).Counted := by
  have hfed := h.of_sameLoops (feedWaiters_sameLoops p)
  simp only [ConnectionPool.findIdleTick]
  split
  · exact hfed.frame rfl rfl
  · split
    · exact hfed.spawnConnection
    · exact hfed

theorem findIdleFinally (h : p.Counted) : p.findIdleFinally.Counted := by
  have hoff : ({ p with findIdleTimer := .off } : ConnectionPool).Counted := h.frame rfl rfl
  simp only [ConnectionPool.findIdleFinally]
  split
  · exact hoff
  · exact hoff.findIdleConnectionTimer

theorem dropIdleTick (h : p.Counted) : (p.dropIdleTick nodeConfiguration config).Counted := by
  simp only [ConnectionPool.dropIdleTick]
  split
  · exact h.frame rfl rfl
  · exact h.frame rfl rfl

/-- A step keeps the count. -/
theorem step {event : Event} (h : p.Counted)
    (hstep : ConnectionPool.step nodeConfiguration config p event = some q) : q.Counted := by
  cases stepTo hstep with
  | getConnection => exact h.getConnection
  | returnConnection held => exact h.returnConnection
  | releaseStream held => exact h.frame rfl rfl
  | closeConnection => exact h.frame rfl rfl
  | spawnChoose spawn => exact h.chooseNode spawn
  | spawnConnected spawn => exact h.connected spawn
  | spawnConnectFailed spawn => exact h.connectFailed spawn _
  | @spawnFinally i count spawn =>
    -- the only step that takes a loop off the count
    have hcount := Math.countP_set_add_one (f := SpawnLoop.inProgress) ⟨count, .finished⟩
      spawn rfl rfl
    rw [Counted] at h ⊢
    simp only
    omega
  | findIdleTick sleeping => exact h.findIdleTick
  | findIdleFinally stopping => exact h.findIdleFinally
  | dropIdleTick sleeping => exact h.dropIdleTick
  | dropIdleFinally stopping => exact h.frame rfl rfl
  | otherPool called => exact h.frame rfl rfl

end Counted

theorem counted_of_reachable (h : (system nodeConfiguration config).Reachable p) : p.Counted := by
  refine Math.TransitionSystem.Reachable.invariant Counted ?_ (fun _ _ _ hp => hp.step) h
  rintro p ⟨c, -, rfl⟩
  rfl

/-! ## The tick -/

/-- A spawn loop just started is still trying: choosing a node does not fail. -/
theorem Intact.hasSpawn_spawnConnection (h : p.Intact nodeConfiguration) :
    (p.spawnConnection nodeConfiguration).HasSpawn := by
  obtain ⟨j, node, next, -, hchoose, -⟩ := NodeCollectionImpl.chooseOneNode_spec h.collection
  rw [spawnConnection, chooseNode, hchoose]
  exact ⟨⟨0, .connecting node p.connections.length⟩, by simp, rfl⟩

theorem spawnConnection_deliveries (p : ConnectionPool) :
    (p.spawnConnection nodeConfiguration).deliveries = p.deliveries := by
  rw [spawnConnection, chooseNode]
  split
  · rfl
  · rfl

/-- A search in vain leaves a ready connection in the pool exactly if one was there. -/
theorem Lookup.hasReady_iff (h : p.Lookup (none, q)) : q.HasReady ↔ p.HasReady := by
  cases h with
  | missing swept busy stopped =>
    constructor
    · rintro ⟨id, hmem, hready⟩
      exact ⟨id, swept.sublist.subset hmem, hready⟩
    · rintro ⟨id, hmem, hready⟩
      rcases swept.closed id hmem with hleft | hclosed
      · exact ⟨id, hleft, hready⟩
      · rw [hready] at hclosed
        cases hclosed

/-- A search in vain through a pool without a ready connection empties the pool. -/
theorem Lookup.allConnections_eq_nil (h : p.Lookup (none, q)) (hready : ¬ p.HasReady) :
    q.allConnections = [] := by
  cases h with
  | missing swept busy stopped =>
    refine stopped.resolve_right ?_
    rintro ⟨id, hmem, hid⟩
    exact hready ⟨id, swept.sublist.subset hmem, hid⟩

/-- In every reachable state, a tick with somebody waiting makes progress exactly
if a connection of the pool is ready, or a spawn loop is still trying, or
`connectingCount_` is below the minimum size. -/
theorem findIdleTick_progress_iff (h : (system nodeConfiguration config).Reachable p)
    (hwaiters : p.waiters ≠ [])
    (hstep : (system nodeConfiguration config).step p .findIdleTick = some q) :
    Progress p q ↔ p.HasReady ∨ p.HasSpawn ∨ p.connectingCount < config.minPoolSize := by
  have htick : StepTo nodeConfiguration config p .findIdleTick q := stepTo hstep
  cases htick
  have hsame := feedWaiters_sameLoops p
  have hspawns : p.feedWaiters.HasSpawn ↔ p.HasSpawn := by
    rw [HasSpawn, HasSpawn, hsame.spawns]
  rcases feedWaiters_cases hwaiters with ⟨hready, hserved⟩ | hmissing
  · -- somebody was served, by a connection that was ready
    refine iff_of_true (.inl ?_) (.inl hready)
    simp only [findIdleTick]
    split
    · exact hserved
    · split
      · rwa [spawnConnection_deliveries]
      · exact hserved
  · have hleft : p.feedWaiters.waiters.isEmpty = false := by
      rw [hmissing.waiters_eq, List.isEmpty_eq_false_iff]
      exact hwaiters
    have hunserved : ¬ p.deliveries.length < p.feedWaiters.deliveries.length := by
      rw [hmissing.deliveries_eq]
      exact lt_irrefl _
    simp only [findIdleTick, hleft, Bool.false_eq_true, if_false]
    split
    next hbelow =>
      have hfed : p.feedWaiters.Intact nodeConfiguration :=
        (intact_and_covered_of_reachable h).1.feedWaiters fun _ _ _ => trivial
      have hcount : p.connectingCount < config.minPoolSize := by
        rw [← hsame.connectingCount]
        exact (Nat.le_add_left _ _).trans_lt hbelow
      exact iff_of_true (.inr (.inl hfed.hasSpawn_spawnConnection)) (.inr (.inr hcount))
    next henough =>
      rw [Progress, or_iff_right hunserved, hspawns, hmissing.hasReady_iff]
      constructor
      · rintro (hspawn | hready)
        · exact .inr (.inl hspawn)
        · exact .inl hready
      · rintro (hready | hspawn | hcount)
        · exact .inr hready
        · exact .inl hspawn
        · -- with nothing ready the pool is empty now, and only the loops are counted
          by_contra hnone
          rw [not_or] at hnone
          have hpool := hmissing.allConnections_eq_nil hnone.2
          rw [hpool, hsame.connectingCount, List.length_nil, Nat.zero_add] at henough
          exact henough hcount

/-- Between the end of a spawn loop and its `finally`, a minimum of one does not help:
the first connection has been closed, and the loop that made it is still counted. -/
example : ((system oneStream ⟨1, 1, 100⟩).run (create oneNode)
    [.getConnection, .spawnConnected 0, .getConnection, .closeConnection 0,
      .findIdleTick]).map (fun p => (p.waiters, p.allConnections, p.spawns)) =
        some ([1], [], [⟨0, .finishing⟩]) := by decide

/-- With a minimum size of one, a tick over a pool whose only connection was closed
spawns another. -/
theorem findIdleTick_progress_run :
    ∃ p q, (system oneStream ⟨1, 1, 100⟩).Reachable p ∧ ¬ p.HasReady ∧
      (system oneStream ⟨1, 1, 100⟩).step p .findIdleTick = some q ∧ Progress p q := by
  have hrun : ((system oneStream ⟨1, 1, 100⟩).run (create oneNode)
      [.getConnection, .spawnConnected 0, .spawnFinally 0, .getConnection,
        .closeConnection 0]).map (fun p => (p.waiters, p.findIdleTimer,
          p.allConnections.any p.isReady, p.connectingCount)) =
            some ([1], .sleeping, false, 0) := by decide
  obtain ⟨p, hp, hview⟩ := Option.map_eq_some_iff.mp hrun
  simp only [Prod.mk.injEq, List.any_eq_false] at hview
  obtain ⟨hwaiters, hsleeping, hclosed, hcount⟩ := hview
  have hbelow : p.connectingCount < 1 := by
    rw [hcount]
    exact Nat.one_pos
  have hreach : (system oneStream ⟨1, 1, 100⟩).Reachable p :=
    Math.TransitionSystem.reachable_of_run ⟨oneNode, oneNode_reachable, rfl⟩ hp
  have htick : (system oneStream ⟨1, 1, 100⟩).step p .findIdleTick =
      some (p.findIdleTick oneStream ⟨1, 1, 100⟩) := if_pos hsleeping
  have hne : p.waiters ≠ [] := by
    rw [hwaiters]
    exact List.cons_ne_nil _ _
  refine ⟨p, _, hreach, ?_, htick, (findIdleTick_progress_iff hreach hne htick).mpr (.inr (.inr hbelow))⟩
  rintro ⟨id, hmem, hready⟩
  exact hclosed id hmem hready

/-- With a minimum size of zero the tick after the same calls finds an empty pool
and leaves it empty: the second caller keeps waiting although a connection could be
made. -/
theorem not_forall_progress :
    ¬ ∀ p q, (system oneStream ⟨0, 1, 100⟩).Reachable p → p.waiters ≠ [] →
      (system oneStream ⟨0, 1, 100⟩).step p .findIdleTick = some q → Progress p q := by
  intro hall
  let tick := findIdleTick oneStream ⟨0, 1, 100⟩
  have hrun : ((system oneStream ⟨0, 1, 100⟩).run (create oneNode)
      [.getConnection, .spawnConnected 0, .spawnFinally 0, .getConnection,
        .closeConnection 0]).map (fun p => ((p.waiters, p.findIdleTimer),
          ((tick p).deliveries.length - p.deliveries.length, (tick p).spawns),
            (tick p).allConnections)) =
              some (([1], .sleeping), (0, [⟨0, .finished⟩]), []) := by decide
  obtain ⟨p, hp, hview⟩ := Option.map_eq_some_iff.mp hrun
  simp only [Prod.mk.injEq] at hview
  obtain ⟨⟨hwaiters, hsleeping⟩, ⟨hserved, hspawns⟩, hpool⟩ := hview
  have hne : p.waiters ≠ [] := by
    rw [hwaiters]
    exact List.cons_ne_nil _ _
  have hprogress := hall p (tick p)
    (Math.TransitionSystem.reachable_of_run ⟨oneNode, oneNode_reachable, rfl⟩ hp) hne
    (if_pos hsleeping)
  rcases hprogress with hmore | ⟨loop, hmem, hloop⟩ | ⟨id, hmem, -⟩
  · omega
  · rw [hspawns, List.mem_singleton] at hmem
    rw [hmem] at hloop
    cases hloop
  · rw [hpool] at hmem
    cases hmem

end ConnectionPool

end CqlDriver
