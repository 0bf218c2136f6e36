import CqlDriver.Pool.Progress

/-!
# How large the pool grows

Three callers start spawn loops: `getConnection` below the minimum, `getConnection`
below the maximum, and the find-idle timer below the minimum. Each of them compares
`allConnections_.size() + connectingCount_` with its limit. A loop is counted by
`connectingCount_` until its `finally`, so for a while a new connection is counted
twice. This only makes the tests stricter: what matters are the loops that may
still add a connection.

## Main definitions

* `ConnectionPool.size` — the connections of the pool and the loops that are still
  trying

## Main results

* `ConnectionPool.Counted.spawnConnection_size_le` — a spawn below a limit stays
  within it
* `ConnectionPool.size_le_max` — the pool never grows beyond its larger limit
-/

namespace CqlDriver

theorem SpawnLoop.inProgress_of_isAttempting {loop : SpawnLoop} (h : loop.isAttempting = true) :
    loop.inProgress = true := by
  obtain ⟨count, phase⟩ := loop
  cases phase with
  | choosing | connecting | finishing => rfl
  | finished => cases h

namespace ConnectionPool

variable {nodeConfiguration : Nat → NodeConfiguration} {config : SessionConfiguration}
  {p q : ConnectionPool} {id stream i count node limit : Nat}

/-- The connections of the pool and those that spawn loops may still add. -/
def size (p : ConnectionPool) : Nat :=
  p.allConnections.length + p.attempting

/-! ## What changes the size -/

/-- Nothing but a spawn loop adds to the size. -/
theorem size_le_of_spawns (hpool : q.allConnections.length ≤ p.allConnections.length)
    (hspawns : q.spawns = p.spawns) : q.size ≤ p.size := by
  rw [size, size, attempting_eq hspawns]
  exact Nat.add_le_add_right hpool _

/-- A spawn loop that moves on pays for the connection it adds. -/
theorem size_setSpawn_le {loop : SpawnLoop} (new : SpawnLoop) (hspawn : p.spawns[i]? = some loop)
    (hpool : q.allConnections.length + (if new.isAttempting then 1 else 0) ≤
      p.allConnections.length + (if loop.isAttempting then 1 else 0))
    (hspawns : q.spawns = p.spawns.set i new) : q.size ≤ p.size := by
  have hcount := Math.countP_set_add (f := SpawnLoop.isAttempting) new hspawn
  rw [size, size, attempting, attempting, hspawns]
  omega

theorem Lookup.size_le {result : Option (Nat × Nat) × ConnectionPool} (h : p.Lookup result) :
    result.2.size ≤ p.size := by
  cases h with
  | found swept _ _ _ _ _ => exact size_le_of_spawns swept.sublist.length_le rfl
  | missing swept _ _ => exact size_le_of_spawns swept.sublist.length_le rfl

theorem feedWaiters_size_le (p : ConnectionPool) : p.feedWaiters.size ≤ p.size := by
  apply feedWaiters_induction (fun q => q.size ≤ p.size)
  · intro r q h hlookup
    exact hlookup.size_le.trans h
  · intro r q caller rest id stream h _ hlookup
    exact hlookup.size_le.trans h
  · exact le_rfl

theorem chooseNode_size_le (hspawn : p.spawns[i]? = some (SpawnLoop.mk count .choosing)) :
    (p.chooseNode nodeConfiguration i count).size ≤ p.size := by
  rw [chooseNode]
  split
  next node next _ =>
    exact size_setSpawn_le ⟨count, .connecting node p.connections.length⟩ hspawn le_rfl rfl
  · exact size_setSpawn_le ⟨count, .finishing⟩ hspawn (Nat.le_succ _) rfl

/-- Starting a spawn loop adds one. -/
theorem spawnConnection_size_le (p : ConnectionPool) :
    (p.spawnConnection nodeConfiguration).size ≤ p.size + 1 := by
  rw [spawnConnection]
  apply (chooseNode_size_le (by simp)).trans
  rw [size, size, attempting, attempting, List.countP_append]
  exact le_rfl

theorem connectFailed_size_le
    (hspawn : p.spawns[i]? = some (SpawnLoop.mk count (.connecting node id))) (ex : Exception) :
    (p.connectFailed i count node ex).size ≤ p.size := by
  rw [connectFailed]
  split
  · split
    · exact size_setSpawn_le ⟨count + 1, .finishing⟩ hspawn (Nat.le_succ _) rfl
    · exact size_setSpawn_le ⟨count + 1, .choosing⟩ hspawn le_rfl rfl
  · exact size_setSpawn_le ⟨count, .finishing⟩ hspawn (Nat.le_succ _) rfl

/-- The connection takes the place of its loop. -/
theorem connected_size_le
    (hspawn : p.spawns[i]? = some (SpawnLoop.mk count (.connecting node id))) :
    (p.connected i count node id).size ≤ p.size := by
  rw [connected]
  split
  · apply (feedWaiters_size_le _).trans
    refine size_setSpawn_le ⟨count, .finishing⟩ hspawn ?_ rfl
    rw [List.length_append]
    exact le_rfl
  · have hready : (p.setReady id true).spawns[i]? =
        some (SpawnLoop.mk count (.connecting node id)) := hspawn
    exact connectFailed_size_le hready _

theorem addWaiter_size_le (p : ConnectionPool) (caller : Nat) :
    (p.addWaiter caller).size ≤ p.size := by
  rw [addWaiter]
  split
  · exact size_le_of_spawns le_rfl rfl
  · exact size_le_of_spawns le_rfl rfl

theorem findIdleConnectionTimer_size_le (p : ConnectionPool) :
    p.findIdleConnectionTimer.size ≤ p.size := by
  rw [findIdleConnectionTimer]
  split
  · exact size_le_of_spawns le_rfl rfl
  · exact le_rfl

theorem dropIdleConnectionTimer_size_le (p : ConnectionPool) :
    p.dropIdleConnectionTimer.size ≤ p.size := by
  rw [dropIdleConnectionTimer]
  split
  · exact size_le_of_spawns le_rfl rfl
  · exact le_rfl

theorem returnConnection_size_le (p : ConnectionPool) :
    (p.returnConnection id stream).size ≤ p.size := by
  simp only [returnConnection]
  split
  · exact size_le_of_spawns le_rfl rfl
  next caller rest _ =>
    have hopened : ∀ r : ConnectionPool, (r.openStream id).2.size ≤ r.size := by
      intro r
      rw [openStream]
      split
      · exact size_le_of_spawns le_rfl rfl
      · exact le_rfl
    have hsize := hopened { p.closeStream id stream with waiters := rest }
    split
    next heq => rw [heq] at hsize; exact hsize
    next heq => rw [heq] at hsize; exact hsize

theorem findIdleFinally_size_le (p : ConnectionPool) : p.findIdleFinally.size ≤ p.size := by
  simp only [findIdleFinally]
  split
  · exact size_le_of_spawns le_rfl rfl
  · exact (findIdleConnectionTimer_size_le _).trans (size_le_of_spawns le_rfl rfl)

theorem dropIdleTick_size_le (p : ConnectionPool) :
    (p.dropIdleTick nodeConfiguration config).size ≤ p.size := by
  simp only [dropIdleTick]
  split
  · exact size_le_of_spawns le_rfl rfl
  · exact size_le_of_spawns (removeIdle_sublist _ _).length_le rfl

/-! ## Spawns below a limit -/

/-- The tests count every loop that may still add a connection. -/
theorem Counted.size_le (h : p.Counted) :
    p.size ≤ p.allConnections.length + p.connectingCount := by
  rw [size, attempting, h]
  apply Nat.add_le_add_left
  exact List.countP_mono_left fun loop _ => SpawnLoop.inProgress_of_isAttempting

/-- A spawn that is started below a limit stays within it. -/
theorem Counted.spawnConnection_size_le (h : p.Counted)
    (hbelow : p.allConnections.length + p.connectingCount < limit) :
    (p.spawnConnection nodeConfiguration).size ≤ limit :=
  (ConnectionPool.spawnConnection_size_le p).trans
    (Nat.succ_le_of_lt (Nat.lt_of_le_of_lt h.size_le hbelow))

/-- The size is within the larger limit. -/
def WithinLimits (config : SessionConfiguration) (p : ConnectionPool) : Prop :=
  p.size ≤ max config.minPoolSize config.maxPoolSize

theorem WithinLimits.mono (h : p.WithinLimits config) (hsize : q.size ≤ p.size) :
    q.WithinLimits config :=
  hsize.trans h

theorem getConnection_withinLimits (hcounted : p.Counted) (h : p.WithinLimits config) :
    (p.getConnection nodeConfiguration config).WithinLimits config := by
  have hnext : ({ p with nextCaller := p.nextCaller + 1 } : ConnectionPool).Counted :=
    hcounted.frame rfl rfl
  have hstart : ({ p with nextCaller := p.nextCaller + 1 } : ConnectionPool).WithinLimits config :=
    h.mono (size_le_of_spawns le_rfl rfl)
  simp only [getConnection]
  split
  · have hwaiter := hnext.addWaiter p.nextCaller
    split
    next hbelow => exact (hwaiter.spawnConnection_size_le hbelow).trans (Nat.le_max_left _ _)
    · exact hstart.mono ((findIdleConnectionTimer_size_le _).trans (addWaiter_size_le _ _))
  · have hlookup := tryGetConnection_spec { p with nextCaller := p.nextCaller + 1 }
    split
    next id stream found hfound =>
      rw [hfound] at hlookup
      exact hstart.mono (hlookup.size_le.trans' (size_le_of_spawns le_rfl rfl))
    next searched hsearched =>
      rw [hsearched] at hlookup
      have hmissing : searched.Counted := hnext.of_sameLoops hlookup.sameLoops
      have hsearch : searched.WithinLimits config := hstart.mono hlookup.size_le
      split
      · exact hsearch.mono (size_le_of_spawns le_rfl rfl)
      · split
        next hbelow =>
          -- adding the waiter changes neither of the two numbers that were compared
          have hroom : (searched.addWaiter p.nextCaller).allConnections.length +
              (searched.addWaiter p.nextCaller).connectingCount < config.maxPoolSize := by
            rw [addWaiter]
            split
            · exact Nat.lt_of_not_le hbelow
            · exact Nat.lt_of_not_le hbelow
          have hspawned : ((searched.addWaiter p.nextCaller).spawnConnection
              nodeConfiguration).size ≤ config.maxPoolSize :=
            (hmissing.addWaiter p.nextCaller).spawnConnection_size_le hroom
          exact ((dropIdleConnectionTimer_size_le _).trans hspawned).trans (Nat.le_max_right _ _)
        · exact hsearch.mono ((findIdleConnectionTimer_size_le _).trans (addWaiter_size_le _ _))

theorem findIdleTick_withinLimits (hcounted : p.Counted) (h : p.WithinLimits config) :
    (p.findIdleTick nodeConfiguration config).WithinLimits config := by
  have hfed : p.feedWaiters.WithinLimits config := h.mono (feedWaiters_size_le p)
  have hfedCounted := hcounted.of_sameLoops (feedWaiters_sameLoops p)
  simp only [findIdleTick]
  split
  · exact hfed.mono (size_le_of_spawns le_rfl rfl)
  · split
    next hbelow =>
      exact (hfedCounted.spawnConnection_size_le hbelow).trans (Nat.le_max_left _ _)
    · exact hfed

/-- A step stays within the limits. -/
theorem WithinLimits.step {event : Event} (h : p.WithinLimits config) (hcounted : p.Counted)
    (hstep : ConnectionPool.step nodeConfiguration config p event = some q) :
    q.WithinLimits config := by
  cases stepTo hstep with
  | getConnection => exact getConnection_withinLimits hcounted h
  | returnConnection held => exact h.mono (returnConnection_size_le p)
  | releaseStream held => exact h.mono (size_le_of_spawns le_rfl rfl)
  | closeConnection => exact h.mono (size_le_of_spawns le_rfl rfl)
  | spawnChoose spawn => exact h.mono (chooseNode_size_le spawn)
  | spawnConnected spawn => exact h.mono (connected_size_le spawn)
  | spawnConnectFailed spawn => exact h.mono (connectFailed_size_le spawn _)
  | @spawnFinally i count spawn =>
    exact h.mono (size_setSpawn_le ⟨count, .finished⟩ spawn le_rfl rfl)
  | findIdleTick sleeping => exact findIdleTick_withinLimits hcounted h
  | findIdleFinally stopping => exact h.mono (findIdleFinally_size_le p)
  | dropIdleTick sleeping => exact h.mono (dropIdleTick_size_le p)
  | dropIdleFinally stopping => exact h.mono (size_le_of_spawns le_rfl rfl)
  | otherPool called => exact h.mono (size_le_of_spawns le_rfl rfl)

/-- In every reachable state the connections of the pool and the spawn loops that
have neither added a connection nor given up are at most as many as the larger of
the two limits. -/
theorem size_le_max (h : (system nodeConfiguration config).Reachable p) :
    p.allConnections.length + p.spawns.countP SpawnLoop.isAttempting ≤
      max config.minPoolSize config.maxPoolSize := by
  have hboth : p.Counted ∧ p.WithinLimits config := by
    refine Math.TransitionSystem.Reachable.invariant
      (fun p => p.Counted ∧ p.WithinLimits config) ?_ ?_ h
    · rintro p ⟨c, -, rfl⟩
      exact ⟨rfl, Nat.zero_le _⟩
    · rintro p event q ⟨hcounted, hwithin⟩ hstep
      exact ⟨hcounted.step hstep, hwithin.step hcounted hstep⟩
  exact hboth.2

/-- A pool that reaches its limit while a loop still counts its own connection. -/
theorem size_le_max_run :
    ∃ p, (system oneStream ⟨1, 2, 100⟩).Reachable p ∧
      (p.allConnections.length = 2 ∧ p.connectingCount = 1) ∧
        p.allConnections.length + p.spawns.countP SpawnLoop.isAttempting ≤ max 1 2 := by
  have hrun : ((system oneStream ⟨1, 2, 100⟩).run (create oneNode)
      [.getConnection, .spawnConnected 0, .spawnFinally 0, .getConnection, .spawnConnected 1,
        .getConnection]).map (fun p => (p.allConnections.length, p.connectingCount)) =
          some (2, 1) := by decide
  obtain ⟨p, hp, hview⟩ := Option.map_eq_some_iff.mp hrun
  have hreach : (system oneStream ⟨1, 2, 100⟩).Reachable p :=
    Math.TransitionSystem.reachable_of_run ⟨oneNode, oneNode_reachable, rfl⟩ hp
  exact ⟨p, hreach, Prod.mk.injEq _ _ _ _ ▸ hview, size_le_max hreach⟩

end ConnectionPool

end CqlDriver
