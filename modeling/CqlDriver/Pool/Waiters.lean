import CqlDriver.Pool.Streams

/-!
# No waiter is stranded

While the find-idle timer is off, the waiters are covered by the spawn loops that
are still trying: each loop was started for one waiter, a loop that connects
serves at least one, since its new connection has a free stream, and a loop that
gives up fails them all. The other branches of `getConnection` start the timer,
which stops only after it has seen an empty queue and looks again in `finally`.

## Main definitions

* `ConnectionPool.attempting` — the number of spawn loops that are still trying
* `ConnectionPool.Covered` — with the timer off there are no more waiters than that

## Main results

* `ConnectionPool.intact_and_covered_of_reachable` — the count holds in every run
* `ConnectionPool.waiter_not_stranded` — whoever waits, waits for the timer or for
  a spawn loop
-/

namespace CqlDriver

/-- The loop has neither added its connection nor given up. -/
def SpawnLoop.isAttempting (loop : SpawnLoop) : Bool :=
  match loop.phase with
  | .choosing => true
  | .connecting _ _ => true
  | .finishing => false
  | .finished => false

namespace ConnectionPool

variable {nodeConfiguration : Nat → NodeConfiguration} {config : SessionConfiguration}
  {p q : ConnectionPool} {id stream i count node : Nat}

/-- The number of spawn loops that are still trying. -/
def attempting (p : ConnectionPool) : Nat := p.spawns.countP SpawnLoop.isAttempting

/-- The invariant of the pool's heap without a condition on deliveries. -/
abbrev Intact (nodeConfiguration : Nat → NodeConfiguration) (p : ConnectionPool) : Prop :=
  p.Sound (fun _ => True) nodeConfiguration

/-- While the find-idle timer is off, the waiters are covered by spawn loops. -/
def Covered (p : ConnectionPool) : Prop :=
  p.findIdleTimer = .off → p.waiters.length ≤ p.attempting

theorem Covered.of_timer (h : p.findIdleTimer ≠ .off) : p.Covered := fun hoff => absurd hoff h

/-- Fewer waiters and more loops. -/
theorem Covered.mono (h : p.Covered) (htimer : q.findIdleTimer = p.findIdleTimer)
    (hwaiters : q.waiters.length ≤ p.waiters.length) (hattempting : p.attempting ≤ q.attempting) :
    q.Covered := by
  intro hoff
  rw [htimer] at hoff
  exact hwaiters.trans ((h hoff).trans hattempting)

theorem attempting_eq (h : q.spawns = p.spawns) : q.attempting = p.attempting := by
  rw [attempting, attempting, h]

/-- A loop that moves on without ending its attempt, or after having ended it. -/
theorem Covered.setSpawn (h : p.Covered) {loop : SpawnLoop} (new : SpawnLoop)
    (hspawn : p.spawns[i]? = some loop) (hsame : new.isAttempting = loop.isAttempting)
    (htimer : q.findIdleTimer = p.findIdleTimer)
    (hwaiters : q.waiters = p.waiters)
    (hspawns : q.spawns = p.spawns.set i new) : q.Covered := by
  refine h.mono htimer (by rw [hwaiters]) ?_
  rw [attempting, attempting, hspawns, Math.countP_set_of_eq new hspawn hsame]

/-! ## The operations -/

theorem addWaiter_eq (p : ConnectionPool) (caller : Nat) :
    (p.addWaiter caller).findIdleTimer = p.findIdleTimer ∧
      (p.addWaiter caller).spawns = p.spawns ∧
        (p.addWaiter caller).waiters.length ≤ p.waiters.length + 1 := by
  rw [addWaiter]
  split
  · exact ⟨rfl, rfl, by rw [List.length_append, List.length_singleton]⟩
  · exact ⟨rfl, rfl, Nat.le_succ _⟩

theorem findIdleConnectionTimer_ne_off (p : ConnectionPool) :
    p.findIdleConnectionTimer.findIdleTimer ≠ .off := by
  rw [findIdleConnectionTimer]
  split
  · exact Timer.noConfusion
  · assumption

/-- A new spawn loop is one more attempt: choosing a node does not fail. -/
theorem Intact.spawnConnection_eq (h : p.Intact nodeConfiguration) :
    (p.spawnConnection nodeConfiguration).findIdleTimer = p.findIdleTimer ∧
      (p.spawnConnection nodeConfiguration).waiters = p.waiters ∧
        (p.spawnConnection nodeConfiguration).attempting = p.attempting + 1 := by
  obtain ⟨j, node, next, -, hchoose, -⟩ := NodeCollectionImpl.chooseOneNode_spec h.collection
  rw [spawnConnection, chooseNode, hchoose]
  refine ⟨rfl, rfl, ?_⟩
  simp [attempting, SpawnLoop.isAttempting]

theorem Covered.addWaiter_spawn (h : p.Covered) (hintact : p.Intact nodeConfiguration)
    (caller : Nat) : ((p.addWaiter caller).spawnConnection nodeConfiguration).Covered := by
  obtain ⟨htimer, hspawns, hwaiters⟩ := p.addWaiter_eq caller
  obtain ⟨htimer', hwaiters', hattempting⟩ :=
    Intact.spawnConnection_eq (hintact.addWaiter caller)
  intro hoff
  rw [htimer', htimer] at hoff
  have hcovered := h hoff
  rw [hwaiters', hattempting, attempting_eq hspawns]
  omega

theorem dropIdleConnectionTimer_eq (p : ConnectionPool) :
    p.dropIdleConnectionTimer.findIdleTimer = p.findIdleTimer ∧
      p.dropIdleConnectionTimer.waiters = p.waiters ∧
        p.dropIdleConnectionTimer.spawns = p.spawns := by
  rw [dropIdleConnectionTimer]
  split
  · exact ⟨rfl, rfl, rfl⟩
  · exact ⟨rfl, rfl, rfl⟩

theorem Covered.dropIdleConnectionTimer (h : p.Covered) : p.dropIdleConnectionTimer.Covered := by
  obtain ⟨htimer, hwaiters, hspawns⟩ := p.dropIdleConnectionTimer_eq
  exact h.mono htimer (by rw [hwaiters]) (attempting_eq hspawns).ge

theorem Covered.getConnection (h : p.Covered) (hintact : p.Intact nodeConfiguration) :
    (p.getConnection nodeConfiguration config).Covered := by
  have hcovered : ({ p with nextCaller := p.nextCaller + 1 } : ConnectionPool).Covered := h
  have hnext : ({ p with nextCaller := p.nextCaller + 1 } : ConnectionPool).Intact
      nodeConfiguration := hintact.frame rfl
  simp only [ConnectionPool.getConnection]
  split
  · split
    · exact hcovered.addWaiter_spawn hnext _
    · exact .of_timer (findIdleConnectionTimer_ne_off _)
  · have hlookup := tryGetConnection_spec { p with nextCaller := p.nextCaller + 1 }
    split
    next id stream found hfound =>
      rw [hfound] at hlookup
      exact hcovered.mono hlookup.sameLoops.findIdleTimer (Nat.le_of_eq
        (congrArg List.length hlookup.waiters_eq)) (attempting_eq hlookup.sameLoops.spawns).ge
    next searched hsearched =>
      rw [hsearched] at hlookup
      have hmissing : searched.Covered := hcovered.mono hlookup.sameLoops.findIdleTimer
        (Nat.le_of_eq (congrArg List.length hlookup.waiters_eq))
        (attempting_eq hlookup.sameLoops.spawns).ge
      split
      · exact hmissing
      · split
        · exact (hmissing.addWaiter_spawn (hnext.lookup_missing hlookup) _).dropIdleConnectionTimer
        · exact .of_timer (findIdleConnectionTimer_ne_off _)

theorem openStream_eq (p : ConnectionPool) (id : Nat) :
    (p.openStream id).2.findIdleTimer = p.findIdleTimer ∧
      (p.openStream id).2.waiters = p.waiters ∧ (p.openStream id).2.spawns = p.spawns := by
  rw [openStream]
  split
  · exact ⟨rfl, rfl, rfl⟩
  · exact ⟨rfl, rfl, rfl⟩

theorem Covered.returnConnection (h : p.Covered) : (p.returnConnection id stream).Covered := by
  rw [ConnectionPool.returnConnection]
  split
  · exact h
  next caller rest hwaiters =>
    have hshorter : rest.length ≤ p.waiters.length := by
      have hlength := congrArg List.length hwaiters
      rw [List.length_cons] at hlength
      exact (Nat.le_succ _).trans hlength.ge
    have hpopped : ({ p.closeStream id stream with waiters := rest } : ConnectionPool).Covered :=
      h.mono rfl hshorter le_rfl
    have hopened : ({ p.closeStream id stream with waiters := rest }.openStream id).2.Covered := by
      obtain ⟨htimer, hqueue, hspawns⟩ :=
        openStream_eq { p.closeStream id stream with waiters := rest } id
      exact hpopped.mono htimer (by rw [hqueue]) (attempting_eq hspawns).ge
    split
    next heq =>
      rw [heq] at hopened
      exact hopened
    next heq =>
      rw [heq] at hopened
      exact hopened

/-- A loop that gives up leaves no waiter, and one that goes on still counts. -/
theorem Covered.connectFailed (h : p.Covered) (hintact : p.Intact nodeConfiguration)
    (hspawn : p.spawns[i]? = some (SpawnLoop.mk count (.connecting node id))) (ex : Exception) :
    (p.connectFailed i count node ex).Covered := by
  obtain ⟨j, hj⟩ := (hintact.pending i node id ⟨count, hspawn⟩).managed
  obtain ⟨c, hreport, -⟩ := NodeCollectionImpl.reportFailure_spec hintact.collection hj
  rw [ConnectionPool.connectFailed, hreport]
  simp only
  split
  · exact fun _ => Nat.zero_le _
  · exact h.setSpawn ⟨count + 1, .choosing⟩ hspawn rfl rfl rfl rfl

/-- The streams of a connection that is still being initialised are all free. -/
theorem Intact.free_of_connecting (h : p.Intact nodeConfiguration)
    (hspawn : p.IsConnecting i node id) : 0 < p.getFreeStreamsCount id := by
  obtain ⟨hlt, -, hunheld, -⟩ := h.pending i node id hspawn
  have hheap := List.getElem?_eq_getElem hlt
  have hnone : Math.valuesOf p.held id = [] :=
    List.eq_nil_iff_forall_not_mem.mpr fun stream hmem => hunheld stream (Math.mem_valuesOf.mp hmem)
  have hlength := (h.streams id _ hheap).length_eq
  rw [hnone, List.append_nil, List.length_range'] at hlength
  have htwo := (nodeConfiguration p.connections[id].node).two_le_maxStreams
  simp only [getFreeStreamsCount, hheap, Connection.getFreeStreamsCount]
  omega

/-- A loop that connects serves somebody, if there is anybody left to serve. -/
theorem Covered.connected (h : p.Covered) (hintact : p.Intact nodeConfiguration)
    (hspawn : p.spawns[i]? = some (SpawnLoop.mk count (.connecting node id))) :
    (p.connected i count node id).Covered := by
  have hpending := hintact.pending i node id ⟨count, hspawn⟩
  obtain ⟨j, hj⟩ := hpending.managed
  obtain ⟨c, hreport, -⟩ := NodeCollectionImpl.reportSuccess_spec hintact.collection hj
  have hfree := Intact.free_of_connecting hintact ⟨count, hspawn⟩
  rw [ConnectionPool.connected, hreport]
  simp only
  generalize hadded : ({ p.setReady id true with
    nodeCollection := c
    allConnections := p.allConnections ++ [id]
    spawns := p.spawns.set i ⟨count, .finishing⟩ } : ConnectionPool) = added
  intro hoff
  have hsame := feedWaiters_sameLoops added
  rw [hsame.findIdleTimer, ← hadded] at hoff
  have hcovered : added.waiters.length ≤ added.attempting + 1 := by
    have hcount := Math.countP_set_add_one (f := SpawnLoop.isAttempting) ⟨count, .finishing⟩
      hspawn rfl rfl
    have hbefore : p.waiters.length ≤ p.attempting := h hoff
    rw [← hadded]
    exact hbefore.trans hcount.ge
  rw [attempting_eq hsame.spawns]
  by_cases hwaiters : added.waiters = []
  · rw [feedWaiters_of_nil hwaiters, hwaiters]
    exact Nat.zero_le _
  · have hready : added.isReady id = true := by
      simp [← hadded, isReady, setReady, hpending.lt]
    have hsomefree : 0 < added.getFreeStreamsCount id := by
      simp only [getFreeStreamsCount, List.getElem?_eq_getElem hpending.lt,
        Connection.getFreeStreamsCount] at hfree
      simpa [← hadded, getFreeStreamsCount, setReady, hpending.lt, Connection.getFreeStreamsCount]
        using hfree
    have hserved := feedWaiters_serves hwaiters (by simp [← hadded]) hready hsomefree
    omega

theorem Covered.findIdleTick (hintact : p.Intact nodeConfiguration)
    (hsleeping : p.findIdleTimer = .sleeping) :
    (p.findIdleTick nodeConfiguration config).Covered := by
  have hfed : p.feedWaiters.findIdleTimer = .sleeping :=
    (feedWaiters_sameLoops p).findIdleTimer.trans hsleeping
  have hfedIntact : p.feedWaiters.Intact nodeConfiguration :=
    hintact.feedWaiters fun _ _ _ => trivial
  simp only [ConnectionPool.findIdleTick]
  split
  · exact .of_timer Timer.noConfusion
  · split
    · refine .of_timer ?_
      rw [(Intact.spawnConnection_eq hfedIntact).1, hfed]
      exact Timer.noConfusion
    · refine .of_timer ?_
      rw [hfed]
      exact Timer.noConfusion

/-- The timer's `finally` starts it again if somebody has come in the meantime. -/
theorem Covered.findIdleFinally (p : ConnectionPool) : p.findIdleFinally.Covered := by
  simp only [ConnectionPool.findIdleFinally]
  split
  next hempty =>
    intro _
    rw [List.isEmpty_iff.mp hempty]
    exact Nat.zero_le _
  · exact .of_timer (findIdleConnectionTimer_ne_off _)

theorem Covered.dropIdleTick (h : p.Covered) :
    (p.dropIdleTick nodeConfiguration config).Covered := by
  simp only [ConnectionPool.dropIdleTick]
  split
  · exact h
  · exact h

/-! ## Every run -/

/-- A step keeps the waiters covered. -/
theorem Covered.step {event : Event} (h : p.Covered) (hintact : p.Intact nodeConfiguration)
    (hstep : ConnectionPool.step nodeConfiguration config p event = some q) : q.Covered := by
  cases stepTo hstep with
  | getConnection => exact h.getConnection hintact
  | returnConnection held => exact h.returnConnection
  | releaseStream held => exact h
  | closeConnection => exact h
  | @spawnChoose i count spawn =>
    obtain ⟨j, node, next, -, hchoose, -⟩ :=
      NodeCollectionImpl.chooseOneNode_spec hintact.collection
    rw [chooseNode, hchoose]
    exact h.setSpawn ⟨count, .connecting node p.connections.length⟩ spawn rfl rfl rfl rfl
  | spawnConnected spawn => exact h.connected hintact spawn
  | @spawnConnectFailed i count node id ex spawn => exact h.connectFailed hintact spawn ex
  | @spawnFinally i count spawn =>
    exact h.setSpawn ⟨count, .finished⟩ spawn rfl rfl rfl rfl
  | findIdleTick sleeping => exact .findIdleTick hintact sleeping
  | findIdleFinally stopping => exact .findIdleFinally p
  | dropIdleTick sleeping => exact h.dropIdleTick
  | dropIdleFinally stopping => exact h
  | otherPool called => exact h

theorem intact_and_covered_of_reachable (h : (system nodeConfiguration config).Reachable p) :
    p.Intact nodeConfiguration ∧ p.Covered := by
  refine Math.TransitionSystem.Reachable.invariant
    (fun p => p.Intact nodeConfiguration ∧ p.Covered) ?_ ?_ h
  · intro p hstart
    refine ⟨Sound.of_start hstart, ?_⟩
    obtain ⟨c, -, rfl⟩ := hstart
    exact fun _ => Nat.zero_le _
  · intro p event q hp hstep
    exact ⟨hp.1.step (fun _ _ _ => trivial) (fun _ _ _ _ _ _ _ => trivial) hstep,
      hp.2.step hp.1 hstep⟩

/-- In every reachable state, if somebody waits then the find-idle timer is running
or a spawn loop is still trying. -/
theorem waiter_not_stranded (h : (system nodeConfiguration config).Reachable p)
    (hwaiters : p.waiters ≠ []) :
    p.findIdleTimer ≠ .off ∨ ∃ loop ∈ p.spawns, loop.isAttempting = true := by
  by_cases hoff : p.findIdleTimer = .off
  · right
    have hpos : 0 < p.attempting :=
      (List.length_pos_iff.mpr hwaiters).trans_le ((intact_and_covered_of_reachable h).2 hoff)
    exact List.countP_pos_iff.mp hpos
  · exact .inl hoff

/-- The first caller of a new pool waits for the spawn loop it started. -/
theorem waiter_not_stranded_run :
    ∃ p, (system oneStream ⟨0, 1, 100⟩).Reachable p ∧ p.waiters = [0] ∧
      (p.findIdleTimer ≠ .off ∨ ∃ loop ∈ p.spawns, loop.isAttempting = true) := by
  have hrun : ((system oneStream ⟨0, 1, 100⟩).run (create oneNode) [.getConnection]).map
      (·.waiters) = some [0] := by decide
  obtain ⟨p, hp, hwaiters⟩ := Option.map_eq_some_iff.mp hrun
  have hreach : (system oneStream ⟨0, 1, 100⟩).Reachable p :=
    Math.TransitionSystem.reachable_of_run ⟨oneNode, oneNode_reachable, rfl⟩ hp
  exact ⟨p, hreach, hwaiters, waiter_not_stranded hreach (by rw [hwaiters]; exact List.cons_ne_nil _ _)⟩

end ConnectionPool

end CqlDriver
