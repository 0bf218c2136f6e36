import CqlDriver.Math.WaitingLine
import CqlDriver.Pool.Waiters

/-!
# The line of callers

The callers of `getConnection` are a waiting line. Four parties take callers off it, two of them
one at least: a connection that is returned, and a spawn loop that connects. In every run a caller
is answered once at most, with a connection or an exception, and waits otherwise. Callers that find
a stream at once may pass those who wait; among those who wait nobody passes.

## Main definitions

* `ConnectionPool.line` — the callers of a pool
* `ConnectionPool.Event.serves` — the events that take somebody off the line

## Main results

* `ConnectionPool.callers_of_reachable` — every caller is answered once or waits
* `ConnectionPool.waiters_served_in_order` — how long a caller waits at most
-/

namespace CqlDriver.ConnectionPool

open Math (WaitingLine)

variable {nodeConfiguration : Nat → NodeConfiguration} {config : SessionConfiguration}
  {p q : ConnectionPool} {id stream i count node caller : Nat} {ex : Exception} {event : Event}

/-- The callers that wait, and those whose promise was resolved. -/
def line (p : ConnectionPool) : WaitingLine where
  waiting := p.waiters
  answered := (p.deliveries.map Delivery.caller : Multiset Nat) + p.failures.map Prod.fst
  next := p.nextCaller

/-- A connection is returned, or a new one is ready. -/
def Event.serves : Event → Bool
  | .returnConnection _ _ => true
  | .spawnConnected _ => true
  | .getConnection | .releaseStream _ _ | .closeConnection _ | .spawnChoose _
  | .spawnConnectFailed _ _ | .spawnFinally _ | .findIdleTick | .findIdleFinally
  | .dropIdleTick | .dropIdleFinally | .otherPool _ => false

/-! ## The operations -/

theorem line_deliver (p : ConnectionPool) (caller id stream : Nat) :
    (p.deliver caller id stream).line = p.line.answer caller := by
  simp [line, deliver, WaitingLine.answer, ← Multiset.cons_coe]

theorem line_fail (p : ConnectionPool) (caller : Nat) (ex : Exception) :
    (p.fail caller ex).line = p.line.answer caller := by
  simp [line, fail, WaitingLine.answer, ← Multiset.cons_coe]

theorem Lookup.line_eq {result : Option (Nat × Nat) × ConnectionPool} (h : p.Lookup result) :
    result.2.line = p.line := by
  cases h with
  | found => rfl
  | missing => rfl

theorem feedWaiters_line (p : ConnectionPool) : ∃ n, p.line.Moves n p.feedWaiters.line := by
  apply feedWaiters_induction (fun q => ∃ n, p.line.Moves n q.line)
  · intro r q hr hlookup
    rw [hlookup.line_eq]
    exact hr
  · intro r q caller rest id stream hr hwaiters hlookup
    obtain ⟨n, hmoves⟩ := hr
    have hsame : q.line = r.line := hlookup.line_eq
    -- the search left the line as it was
    have hserved := hmoves.serve hwaiters
    rw [← hsame] at hserved
    exact ⟨n + 1, line_deliver { q with waiters := rest } caller id stream ▸ hserved⟩
  · exact ⟨0, .refl⟩

theorem cleanWaiters_line (p : ConnectionPool) (ex : Exception) :
    p.line.Moves p.waiters.length (p.cleanWaiters ex).line := by
  have hall := WaitingLine.moves_all p.waiters p.line.answered p.nextCaller
  have hclean : (p.cleanWaiters ex).line = ⟨[], p.waiters + p.line.answered, p.nextCaller⟩ := by
    simp only [line, cleanWaiters, List.map_append, List.map_reverse, List.map_map,
      WaitingLine.mk.injEq, true_and, and_true]
    rw [← Multiset.coe_add, Multiset.coe_reverse, ← add_assoc, ← add_assoc,
      add_comm (p.waiters : Multiset Nat)]
    simp [Function.comp_def]
  rw [hclean]
  exact hall

/-- The pool when a caller has come and nothing was done for it. -/
def comes (p : ConnectionPool) : ConnectionPool := { p with nextCaller := p.nextCaller + 1 }

theorem comes_answer (p : ConnectionPool) : p.line.Moves 0 (p.comes.line.answer p.nextCaller) :=
  .pass .refl

theorem addWaiter_line (hsame : q.line = p.comes.line) :
    p.line.Moves 0 (q.addWaiter p.nextCaller).line := by
  rw [addWaiter]
  split
  · have hjoined : p.line.Moves 0 { q.line with waiting := q.line.waiting ++ [p.nextCaller] } := by
      rw [hsame]
      exact .join .refl
    exact hjoined
  · rw [line_fail, hsame]
    exact comes_answer p

theorem chooseNode_line (p : ConnectionPool) :
    (p.chooseNode nodeConfiguration i count).line = p.line := by
  rw [chooseNode]
  split
  · rfl
  · rfl

theorem spawnConnection_line (p : ConnectionPool) :
    (p.spawnConnection nodeConfiguration).line = p.line := by
  rw [spawnConnection, chooseNode_line]
  rfl

theorem findIdleConnectionTimer_line (p : ConnectionPool) :
    p.findIdleConnectionTimer.line = p.line := by
  rw [findIdleConnectionTimer]
  split
  · rfl
  · rfl

theorem dropIdleConnectionTimer_line (p : ConnectionPool) :
    p.dropIdleConnectionTimer.line = p.line := by
  rw [dropIdleConnectionTimer]
  split
  · rfl
  · rfl

/-- A new caller joins the line or is answered at once. -/
theorem getConnection_line (p : ConnectionPool) :
    p.line.Moves 0 (p.getConnection nodeConfiguration config).line := by
  simp only [getConnection]
  split
  · split
    · rw [spawnConnection_line]
      exact addWaiter_line rfl
    · rw [findIdleConnectionTimer_line]
      exact addWaiter_line rfl
  · have hlookup := tryGetConnection_spec { p with nextCaller := p.nextCaller + 1 }
    split
    next id stream found hfound =>
      rw [hfound] at hlookup
      have hsame : found.line = p.comes.line := hlookup.line_eq
      rw [line_deliver, hsame]
      exact comes_answer p
    next searched hsearched =>
      rw [hsearched] at hlookup
      have hsame : searched.line = p.comes.line := hlookup.line_eq
      split
      · rw [line_fail, hsame]
        exact comes_answer p
      · split
        · rw [dropIdleConnectionTimer_line, spawnConnection_line]
          exact addWaiter_line hsame
        · rw [findIdleConnectionTimer_line]
          exact addWaiter_line hsame

theorem openStream_line (p : ConnectionPool) (id : Nat) : (p.openStream id).2.line = p.line := by
  rw [openStream]
  split
  · rfl
  · rfl

/-- A returned connection takes the first waiter off the line. -/
theorem returnConnection_line (p : ConnectionPool) (id stream : Nat) :
    p.line.Moves 1 (p.returnConnection id stream).line := by
  rw [returnConnection]
  split
  next hnobody => exact .idle .refl hnobody
  next caller rest hwaiters =>
    have hserved : p.line.Moves 1 ({ p.line with waiting := rest }.answer caller) :=
      .serve .refl hwaiters
    have hopened := openStream_line { p.closeStream id stream with waiters := rest } id
    split
    next stream opened hresult =>
      rw [hresult] at hopened
      rw [line_deliver, hopened]
      exact hserved
    next opened hresult =>
      rw [hresult] at hopened
      rw [line_fail, hopened]
      exact hserved

theorem connectFailed_line (p : ConnectionPool) (i count node : Nat) (ex : Exception) :
    ∃ n, p.line.Moves n (p.connectFailed i count node ex).line := by
  rw [connectFailed]
  split
  next nodeCollection hreported =>
    split
    · exact ⟨_, cleanWaiters_line _ ex⟩
    · exact ⟨0, .refl⟩
  · exact ⟨0, .refl⟩

/-- A spawn loop that connects takes somebody off the line. -/
theorem connected_line (hintact : p.Intact nodeConfiguration)
    (hspawn : p.spawns[i]? = some (SpawnLoop.mk count (.connecting node id))) :
    ∃ n, 0 < n ∧ p.line.Moves n (p.connected i count node id).line := by
  have hpending := hintact.pending i node id ⟨count, hspawn⟩
  obtain ⟨j, hj⟩ := hpending.managed
  obtain ⟨c, hreport, -⟩ := NodeCollectionImpl.reportSuccess_spec hintact.collection hj
  have hfree := Intact.free_of_connecting hintact ⟨count, hspawn⟩
  rw [connected, hreport]
  simp only
  generalize hadded : ({ p.setReady id true with
    nodeCollection := c
    allConnections := p.allConnections ++ [id]
    spawns := p.spawns.set i ⟨count, .finishing⟩ } : ConnectionPool) = added
  have hline : added.line = p.line := by
    rw [← hadded]
    rfl
  obtain ⟨n, hmoves⟩ := feedWaiters_line added
  rw [hline] at hmoves
  by_cases hnobody : added.waiters = []
  · -- nobody waits
    have hempty : added.feedWaiters.line.waiting = [] := by
      rw [feedWaiters_of_nil hnobody]
      exact hnobody
    exact ⟨n + 1, Nat.succ_pos n, hmoves.idle hempty⟩
  · have hready : added.isReady id = true := by
      simp [← hadded, isReady, setReady, hpending.lt]
    have hsomefree : 0 < added.getFreeStreamsCount id := by
      simp only [getFreeStreamsCount, List.getElem?_eq_getElem hpending.lt,
        Connection.getFreeStreamsCount] at hfree
      simpa [← hadded, getFreeStreamsCount, setReady, hpending.lt, Connection.getFreeStreamsCount]
        using hfree
    have hserved := feedWaiters_serves hnobody (by simp [← hadded]) hready hsomefree
    have hlength : p.line.waiting.length ≤ added.feedWaiters.waiters.length + n := hmoves.length_le
    rw [← hline] at hlength
    have hwaiting : added.line.waiting.length = added.waiters.length := rfl
    exact ⟨n, by omega, hmoves⟩

theorem findIdleTick_line (p : ConnectionPool) :
    ∃ n, p.line.Moves n (p.findIdleTick nodeConfiguration config).line := by
  obtain ⟨n, hmoves⟩ := feedWaiters_line p
  refine ⟨n, ?_⟩
  simp only [findIdleTick]
  split
  · exact hmoves
  · split
    · rw [spawnConnection_line]
      exact hmoves
    · exact hmoves

theorem findIdleFinally_line (p : ConnectionPool) : p.findIdleFinally.line = p.line := by
  simp only [findIdleFinally]
  split
  · rfl
  · rw [findIdleConnectionTimer_line]
    rfl

theorem dropIdleTick_line (p : ConnectionPool) :
    (p.dropIdleTick nodeConfiguration config).line = p.line := by
  simp only [dropIdleTick]
  split
  · rfl
  · rfl

/-! ## Every run -/

/-- Every step moves the line, and the steps that serve take somebody off. -/
theorem step_line (hintact : p.Intact nodeConfiguration)
    (hstep : step nodeConfiguration config p event = some q) :
    ∃ n, (event.serves = true → 0 < n) ∧ p.line.Moves n q.line := by
  -- the other steps may leave everybody in line
  have hmoving : ∀ {r : ConnectionPool} {event : Event}, event.serves = false →
      (∃ n, p.line.Moves n r.line) →
        ∃ n, (event.serves = true → 0 < n) ∧ p.line.Moves n r.line := by
    rintro r event hserves ⟨n, hmoves⟩
    refine ⟨n, fun hserving => ?_, hmoves⟩
    rw [hserves] at hserving
    cases hserving
  have hsame : ∀ {r : ConnectionPool} {event : Event}, event.serves = false → r.line = p.line →
      ∃ n, (event.serves = true → 0 < n) ∧ p.line.Moves n r.line :=
    fun hserves heq => hmoving hserves ⟨0, heq ▸ .refl⟩
  cases stepTo hstep with
  | getConnection => exact hmoving rfl ⟨0, getConnection_line p⟩
  | returnConnection held => exact ⟨1, fun _ => Nat.one_pos, returnConnection_line p _ _⟩
  | releaseStream held => exact hsame rfl rfl
  | closeConnection => exact hsame rfl rfl
  | spawnChoose spawn => exact hsame rfl (chooseNode_line p)
  | spawnConnected spawn =>
    obtain ⟨n, hpos, hmoves⟩ := connected_line hintact spawn
    exact ⟨n, fun _ => hpos, hmoves⟩
  | spawnConnectFailed spawn => exact hmoving rfl (connectFailed_line p _ _ _ _)
  | spawnFinally spawn => exact hsame rfl rfl
  | findIdleTick sleeping => exact hmoving rfl (findIdleTick_line p)
  | findIdleFinally stopping => exact hsame rfl (findIdleFinally_line p)
  | dropIdleTick sleeping => exact hsame rfl (dropIdleTick_line p)
  | dropIdleFinally stopping => exact hsame rfl rfl
  | otherPool called => exact hsame rfl rfl

theorem line_sound_of_reachable (h : (system nodeConfiguration config).Reachable p) :
    p.line.Sound := by
  have hboth : p.Intact nodeConfiguration ∧ p.line.Sound := by
    apply h.invariant (fun p => p.Intact nodeConfiguration ∧ p.line.Sound)
    · intro p hstart
      refine ⟨Sound.of_start hstart, ?_⟩
      obtain ⟨c, -, rfl⟩ := hstart
      exact ⟨by simp [line, create], .nil⟩
    · intro p event q hp hstep
      obtain ⟨n, -, hmoves⟩ := step_line hp.1 hstep
      exact ⟨hp.1.step (fun _ _ _ => trivial) (fun _ _ _ _ _ _ _ => trivial) hstep,
        hmoves.sound hp.2⟩
  exact hboth.2

/-- In every run each caller waits, was given a connection or was given an exception, and only one
of these and once; those who wait are in the order of their calls. -/
theorem callers_of_reachable (h : (system nodeConfiguration config).Reachable p) :
    (p.waiters ++ p.deliveries.map Delivery.caller ++ p.failures.map Prod.fst).Perm
        (List.range p.nextCaller) ∧ p.waiters.Pairwise (· < ·) := by
  obtain ⟨honce, hordered⟩ := line_sound_of_reachable h
  refine ⟨Multiset.coe_eq_coe.mp ?_, hordered⟩
  rw [← Multiset.coe_add, ← Multiset.coe_add, add_assoc]
  exact honce

/-- The first caller has a stream, the others wait for it. -/
theorem callers_of_reachable_run :
    ∃ p, (system oneStream ⟨0, 1, 100⟩).Reachable p ∧ p.nextCaller = 3 ∧
      (p.waiters ++ p.deliveries.map Delivery.caller ++ p.failures.map Prod.fst).Perm
        (List.range p.nextCaller) ∧ p.waiters.Pairwise (· < ·) := by
  have hrun : ((system oneStream ⟨0, 1, 100⟩).run (create oneNode)
      [.getConnection, .spawnConnected 0, .spawnFinally 0, .getConnection, .getConnection]).map
        (·.nextCaller) = some 3 := by decide
  obtain ⟨p, hp, hcallers⟩ := Option.map_eq_some_iff.mp hrun
  have hreach : (system oneStream ⟨0, 1, 100⟩).Reachable p :=
    Math.TransitionSystem.reachable_of_run ⟨oneNode, oneNode_reachable, rfl⟩ hp
  exact ⟨p, hreach, hcallers, callers_of_reachable hreach⟩

/-- Whatever happens from a state on, those who wait there are served in the order of the line, one
at least for each connection that is returned and each spawn loop that connects. -/
theorem waiters_served_in_order {events : List Event}
    (h : (system nodeConfiguration config).Reachable p)
    (hrun : (system nodeConfiguration config).run p events = some q) :
    ∃ n, events.countP Event.serves ≤ n ∧
      q.waiters.filter (· < p.nextCaller) = p.waiters.drop n := by
  obtain ⟨n, hcount, hmoves⟩ := WaitingLine.exists_moves_of_run
    (fun s a t hs hstep => step_line (intact_and_covered_of_reachable hs).1 hstep) h hrun
  exact ⟨n, hcount, hmoves.filter_waiting (line_sound_of_reachable h)⟩

/-- One caller was served, two wait, one more comes, and the stream of the first is returned. -/
theorem waiters_served_in_order_run :
    ∃ (p q : ConnectionPool) (n : Nat), (system oneStream ⟨0, 1, 100⟩).Reachable p ∧
      p.waiters = [1, 2] ∧ 1 ≤ n ∧ q.waiters = [2, 3] ∧
        q.waiters.filter (· < p.nextCaller) = p.waiters.drop n := by
  have hbefore : ((system oneStream ⟨0, 1, 100⟩).run (create oneNode)
      [.getConnection, .spawnConnected 0, .spawnFinally 0, .getConnection, .getConnection]).map
        (fun p => (p.waiters, ((system oneStream ⟨0, 1, 100⟩).run p
          [.getConnection, .returnConnection 0 1]).map (·.waiters))) =
            some ([1, 2], some [2, 3]) := by decide
  obtain ⟨p, hp, hresult⟩ := Option.map_eq_some_iff.mp hbefore
  obtain ⟨hwaiters, hafter⟩ := Prod.mk.inj hresult
  obtain ⟨q, hq, hleft⟩ := Option.map_eq_some_iff.mp hafter
  have hreach : (system oneStream ⟨0, 1, 100⟩).Reachable p :=
    Math.TransitionSystem.reachable_of_run ⟨oneNode, oneNode_reachable, rfl⟩ hp
  obtain ⟨n, hcount, hserved⟩ := waiters_served_in_order hreach hq
  exact ⟨p, q, n, hreach, hwaiters, hcount, hleft, hserved⟩

end CqlDriver.ConnectionPool
