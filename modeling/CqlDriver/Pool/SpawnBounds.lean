import Mathlib.Algebra.Group.Action.Defs
import Mathlib.Algebra.Order.BigOperators.Group.List
import CqlDriver.Math.Runs
import CqlDriver.Pool.Waiters

/-!
# How much the spawn loops do

Spawn loops run between each other, callers, timers and the loops of other pools over the same
nodes. Each one makes one connection for a failed attempt and one to end with, gives up when it has
failed as often as there are nodes, and so ends after a number of steps that nobody else can make
larger. What it adds to the pool is a new connection, which was not there and does not come back.

## Main definitions

* `SpawnLoop.Step`, `ConnectionPool.SpawnStep` — what a step means for the loops
* `ConnectionPool.Economical` — the bounds

## Main results

* `ConnectionPool.economical_of_reachable`
* `ConnectionPool.spawn_steps_le` — every loop ends
-/

namespace CqlDriver

namespace SpawnLoop

/-- A step of a loop over `n` nodes, with the number of connections it makes and the connections it
adds to the pool. A connection that is made is named by `next`. -/
inductive Step (n next : Nat) : SpawnLoop → SpawnLoop → Nat → List Nat → Prop
  | choose (node : Nat) {count : Nat} :
      Step n next ⟨count, .choosing⟩ ⟨count, .connecting node next⟩ 1 []
  | connected {count node id : Nat} :
      Step n next ⟨count, .connecting node id⟩ ⟨count, .finishing⟩ 0 [id]
  | retry {count node id : Nat} (untried : count + 1 < n) :
      Step n next ⟨count, .connecting node id⟩ ⟨count + 1, .choosing⟩ 0 []
  | giveUp {count node id : Nat} (tried : n ≤ count + 1) :
      Step n next ⟨count, .connecting node id⟩ ⟨count + 1, .finishing⟩ 0 []
  | finish {count : Nat} : Step n next ⟨count, .finishing⟩ ⟨count, .finished⟩ 0 []

/-- The connections that a loop has made. -/
def attempts (n : Nat) (loop : SpawnLoop) : Nat :=
  match loop.phase with
  | .choosing => loop.count
  | .connecting _ _ => loop.count + 1
  | .finishing => min (loop.count + 1) n
  | .finished => min (loop.count + 1) n

/-- How many steps a loop has left at most. -/
def left (n : Nat) (loop : SpawnLoop) : Nat :=
  match loop.phase with
  | .choosing => 2 * (n - loop.count) + 1
  | .connecting _ _ => 2 * (n - loop.count)
  | .finishing => 1
  | .finished => 0

/-- A loop that tries has a node left, and no loop fails more often than there are nodes. -/
structure Within (n : Nat) (loop : SpawnLoop) : Prop where
  count_le : loop.count ≤ n
  count_lt : loop.isAttempting = true → loop.count < n

variable {n next made : Nat} {loop new : SpawnLoop} {pooled : List Nat}

theorem Step.within (h : loop.Step n next new made pooled) (hwithin : loop.Within n) :
    new.Within n := by
  cases h with
  | choose => exact ⟨hwithin.count_le, fun _ => hwithin.count_lt rfl⟩
  | connected => exact ⟨hwithin.count_le, fun htrying => by cases htrying⟩
  | retry untried => exact ⟨Nat.le_of_lt untried, fun _ => untried⟩
  | giveUp tried => exact ⟨hwithin.count_lt rfl, fun htrying => by cases htrying⟩
  | finish => exact ⟨hwithin.count_le, fun htrying => by cases htrying⟩

/-- A loop makes a connection for each attempt. -/
theorem Step.attempts_eq (h : loop.Step n next new made pooled) (hwithin : loop.Within n) :
    new.attempts n = loop.attempts n + made := by
  cases h with
  | choose => rfl
  | connected =>
    have hlt := hwithin.count_lt rfl
    simp only [attempts] at hlt ⊢
    omega
  | retry untried => rfl
  | giveUp tried =>
    have hlt := hwithin.count_lt rfl
    simp only [attempts] at hlt ⊢
    omega
  | finish => rfl

/-- A step takes one of the steps that are left. -/
theorem Step.left_lt (h : loop.Step n next new made pooled) (hwithin : loop.Within n) :
    1 + new.left n ≤ loop.left n := by
  cases h with
  | choose =>
    simp only [left]
    omega
  | connected =>
    have hlt := hwithin.count_lt rfl
    simp only [left] at hlt ⊢
    omega
  | retry untried =>
    simp only [left]
    omega
  | giveUp tried =>
    have hlt := hwithin.count_lt rfl
    simp only [left] at hlt ⊢
    omega
  | finish => exact Nat.le_refl 1

theorem Within.attempts_le (h : loop.Within n) : loop.attempts n ≤ n := by
  rw [attempts]
  split
  · exact h.count_le
  next hphase =>
    apply h.count_lt
    rw [isAttempting, hphase]
  · exact Nat.min_le_right _ _
  · exact Nat.min_le_right _ _

end SpawnLoop

namespace ConnectionPool

variable {nodeConfiguration : Nat → NodeConfiguration} {config : SessionConfiguration}
  {p q r : ConnectionPool} {id stream i count node made : Nat} {pooled : List Nat} {event : Event}
  {ex : Exception}

/-- The loop that an event is a step of. -/
def Event.spawn : Event → Option Nat
  | .spawnChoose i | .spawnConnected i | .spawnConnectFailed i _ | .spawnFinally i => some i
  | .getConnection | .returnConnection _ _ | .releaseStream _ _ | .closeConnection _
  | .findIdleTick | .findIdleFinally | .dropIdleTick | .dropIdleFinally | .otherPool _ => none

/-! ## What a step means for the loops -/

/-- Some connections were made, and at most the given ones were added to the pool. -/
structure Makes (p : ConnectionPool) (made : Nat) (pooled : List Nat) (q : ConnectionPool) :
    Prop where
  connections : q.connections.length = p.connections.length + made
  allConnections : q.allConnections.Sublist (p.allConnections ++ pooled)
  nodes : q.nodeCollection.getNodesCount = p.nodeCollection.getNodesCount

/-- The loops stay as they are, a loop starts, or one takes a step. -/
inductive SpawnStep (p : ConnectionPool) : Option Nat → ConnectionPool → Prop
  | still {q : ConnectionPool} (spawns : q.spawns = p.spawns) (makes : p.Makes 0 [] q) :
      SpawnStep p none q
  | starts {q : ConnectionPool} (node : Nat)
      (spawns : q.spawns = p.spawns ++ [⟨0, .connecting node p.connections.length⟩])
      (makes : p.Makes 1 [] q) : SpawnStep p none q
  | loop {q : ConnectionPool} {i made : Nat} {pooled : List Nat} {loop new : SpawnLoop}
      (spawn : p.spawns[i]? = some loop)
      (step : loop.Step p.nodeCollection.getNodesCount p.connections.length new made pooled)
      (spawns : q.spawns = p.spawns.set i new) (makes : p.Makes made pooled q) :
      SpawnStep p (some i) q

/-- Nothing is made or added. -/
theorem Makes.of_eq (hconnections : q.connections.length = p.connections.length)
    (hpool : q.allConnections.Sublist p.allConnections)
    (hnodes : q.nodeCollection.getNodesCount = p.nodeCollection.getNodesCount) :
    p.Makes 0 [] q :=
  ⟨hconnections, by rwa [List.append_nil], hnodes⟩

theorem Makes.refl (p : ConnectionPool) : p.Makes 0 [] p := .of_eq rfl (.refl _) rfl

/-- Before, nothing was made. -/
theorem Makes.of_still (h : p.Makes 0 [] q) (h' : q.Makes made pooled r) : p.Makes made pooled r where
  connections := by rw [h'.connections, h.connections, Nat.add_zero]
  allConnections := h'.allConnections.trans
    ((List.append_nil p.allConnections ▸ h.allConnections).append_right pooled)
  nodes := h'.nodes.trans h.nodes

/-- Afterwards, nothing is made. -/
theorem Makes.then_still (h : p.Makes made pooled q) (h' : q.Makes 0 [] r) :
    p.Makes made pooled r where
  connections := by rw [h'.connections, h.connections, Nat.add_zero]
  allConnections := by
    have hlast := h'.allConnections
    rw [List.append_nil] at hlast
    exact hlast.trans h.allConnections
  nodes := h'.nodes.trans h.nodes

theorem Lookup.makes {result : Option (Nat × Nat) × ConnectionPool} (h : p.Lookup result) :
    p.Makes 0 [] result.2 := by
  cases h with
  | found swept => exact .of_eq (by simp) swept.sublist rfl
  | missing swept => exact .of_eq rfl swept.sublist rfl

theorem feedWaiters_makes (p : ConnectionPool) : p.Makes 0 [] p.feedWaiters := by
  apply feedWaiters_induction (fun q => p.Makes 0 [] q)
  · intro r q hr hlookup
    exact hr.then_still hlookup.makes
  · intro r q caller rest id stream hr _ hlookup
    have hmakes := hr.then_still hlookup.makes
    exact ⟨hmakes.connections, hmakes.allConnections, hmakes.nodes⟩
  · exact .refl p

theorem SpawnStep.of_still {own : Option Nat} (hspawns : q.spawns = p.spawns)
    (hmakes : p.Makes 0 [] q) (hconnections : q.connections.length = p.connections.length)
    (h : q.SpawnStep own r) : p.SpawnStep own r := by
  cases h with
  | still spawns makes => exact .still (spawns.trans hspawns) (hmakes.of_still makes)
  | starts node spawns makes =>
    rw [hspawns, hconnections] at spawns
    exact .starts node spawns (hmakes.of_still makes)
  | loop spawn step spawns makes =>
    rw [hspawns] at spawn spawns
    rw [hconnections, hmakes.nodes] at step
    exact .loop spawn step spawns (hmakes.of_still makes)

theorem addWaiter_still (p : ConnectionPool) (caller : Nat) :
    (p.addWaiter caller).spawns = p.spawns ∧ p.Makes 0 [] (p.addWaiter caller) := by
  rw [addWaiter]
  split
  · exact ⟨rfl, .of_eq rfl (.refl _) rfl⟩
  · exact ⟨rfl, .of_eq rfl (.refl _) rfl⟩

theorem findIdleConnectionTimer_still (p : ConnectionPool) :
    p.findIdleConnectionTimer.spawns = p.spawns ∧ p.Makes 0 [] p.findIdleConnectionTimer := by
  rw [findIdleConnectionTimer]
  split
  · exact ⟨rfl, .of_eq rfl (.refl _) rfl⟩
  · exact ⟨rfl, .refl p⟩

theorem dropIdleConnectionTimer_still (p : ConnectionPool) :
    p.dropIdleConnectionTimer.spawns = p.spawns ∧ p.Makes 0 [] p.dropIdleConnectionTimer := by
  rw [dropIdleConnectionTimer]
  split
  · exact ⟨rfl, .of_eq rfl (.refl _) rfl⟩
  · exact ⟨rfl, .refl p⟩

/-- Choosing a node makes a connection. -/
theorem chooseNode_makes (hintact : p.Intact nodeConfiguration) (i count : Nat) :
    ∃ node, (p.chooseNode nodeConfiguration i count).spawns =
        p.spawns.set i ⟨count, .connecting node p.connections.length⟩ ∧
      p.Makes 1 [] (p.chooseNode nodeConfiguration i count) := by
  obtain ⟨j, node, next, -, hchoose, hstep⟩ := NodeCollectionImpl.chooseOneNode_spec hintact.collection
  rw [chooseNode, hchoose]
  refine ⟨node, rfl, ?_, ?_, hstep.getNodesCount_eq⟩
  · rw [List.length_append, List.length_singleton]
  · rw [List.append_nil]

theorem spawnConnection_starts (hintact : p.Intact nodeConfiguration) :
    p.SpawnStep none (p.spawnConnection nodeConfiguration) := by
  obtain ⟨node, hspawns, hmakes⟩ :=
    chooseNode_makes (hintact.pushSpawn) p.spawns.length 0
  rw [spawnConnection]
  refine .starts node ?_ ⟨hmakes.connections, hmakes.allConnections, hmakes.nodes⟩
  rw [hspawns]
  exact Math.set_concat

theorem openStream_still (p : ConnectionPool) (id : Nat) :
    (p.openStream id).2.spawns = p.spawns ∧ p.Makes 0 [] (p.openStream id).2 := by
  rw [openStream]
  split
  · exact ⟨rfl, .of_eq (by simp) (.refl _) rfl⟩
  · exact ⟨rfl, .refl p⟩

theorem returnConnection_still (p : ConnectionPool) (id stream : Nat) :
    (p.returnConnection id stream).spawns = p.spawns ∧
      p.Makes 0 [] (p.returnConnection id stream) := by
  have hclosed : p.Makes 0 [] (p.closeStream id stream) :=
    .of_eq (by simp [closeStream]) (.refl _) rfl
  rw [returnConnection]
  split
  · exact ⟨rfl, hclosed⟩
  next caller rest hwaiters =>
    obtain ⟨hspawns, hopened⟩ := openStream_still { p.closeStream id stream with waiters := rest } id
    have hmakes := hclosed.then_still
      ⟨hopened.connections, hopened.allConnections, hopened.nodes⟩
    split
    next stream opened hresult =>
      rw [hresult] at hspawns hmakes
      exact ⟨hspawns, hmakes.connections, hmakes.allConnections, hmakes.nodes⟩
    next opened hresult =>
      rw [hresult] at hspawns hmakes
      exact ⟨hspawns, hmakes.connections, hmakes.allConnections, hmakes.nodes⟩

/-- `getConnection` starts one loop at most. -/
theorem getConnection_spawnStep (hintact : p.Intact nodeConfiguration) :
    p.SpawnStep none (p.getConnection nodeConfiguration config) := by
  have hcomes : p.Makes 0 [] { p with nextCaller := p.nextCaller + 1 } := .of_eq rfl (.refl _) rfl
  have hintact' : ({ p with nextCaller := p.nextCaller + 1 } : ConnectionPool).Intact
      nodeConfiguration := hintact.frame rfl
  -- a caller that waits, with a new loop or with the timer
  have hspawning : ∀ {r : ConnectionPool}, r.spawns = p.spawns → p.Makes 0 [] r →
      r.Intact nodeConfiguration →
        p.SpawnStep none ((r.addWaiter p.nextCaller).spawnConnection nodeConfiguration) := by
    intro r hspawns hmakes hr
    obtain ⟨hsame, hadded⟩ := addWaiter_still r p.nextCaller
    have hboth := hmakes.then_still hadded
    exact .of_still (hsame.trans hspawns) hboth hboth.connections
      (spawnConnection_starts (hr.addWaiter p.nextCaller))
  have htiming : ∀ {r : ConnectionPool}, r.spawns = p.spawns → p.Makes 0 [] r →
      p.SpawnStep none (r.addWaiter p.nextCaller).findIdleConnectionTimer := by
    intro r hspawns hmakes
    obtain ⟨hsame, hadded⟩ := addWaiter_still r p.nextCaller
    obtain ⟨hsame', htimer⟩ := findIdleConnectionTimer_still (r.addWaiter p.nextCaller)
    exact .still (hsame'.trans (hsame.trans hspawns)) ((hmakes.then_still hadded).then_still htimer)
  simp only [getConnection]
  split
  · split
    · exact hspawning rfl hcomes hintact'
    · exact htiming rfl hcomes
  · have hlookup := tryGetConnection_spec { p with nextCaller := p.nextCaller + 1 }
    have hmakes := hcomes.then_still hlookup.makes
    have hspawns := hlookup.sameLoops.spawns
    split
    next id stream found hfound =>
      rw [hfound] at hmakes hspawns
      exact .still hspawns ⟨hmakes.connections, hmakes.allConnections, hmakes.nodes⟩
    next searched hsearched =>
      rw [hsearched] at hlookup hmakes hspawns
      split
      · exact .still hspawns ⟨hmakes.connections, hmakes.allConnections, hmakes.nodes⟩
      · split
        · obtain ⟨hsame, htimer⟩ := dropIdleConnectionTimer_still
            ((searched.addWaiter p.nextCaller).spawnConnection nodeConfiguration)
          cases hspawning hspawns hmakes (hintact'.lookup_missing hlookup) with
          | still spawns makes => exact .still (hsame.trans spawns) (makes.then_still htimer)
          | starts node spawns makes =>
            exact .starts node (hsame.trans spawns) (makes.then_still htimer)
        · exact htiming hspawns hmakes

theorem findIdleTick_spawnStep (hintact : p.Intact nodeConfiguration) :
    p.SpawnStep none (p.findIdleTick nodeConfiguration config) := by
  have hfed := feedWaiters_makes p
  have hspawns := (feedWaiters_sameLoops p).spawns
  simp only [findIdleTick]
  split
  · exact .still hspawns ⟨hfed.connections, hfed.allConnections, hfed.nodes⟩
  · split
    · exact .of_still hspawns hfed hfed.connections
        (spawnConnection_starts (hintact.feedWaiters fun _ _ _ => trivial))
    · exact .still hspawns hfed

theorem findIdleFinally_still (p : ConnectionPool) :
    p.findIdleFinally.spawns = p.spawns ∧ p.Makes 0 [] p.findIdleFinally := by
  simp only [findIdleFinally]
  split
  · exact ⟨rfl, .of_eq rfl (.refl _) rfl⟩
  · obtain ⟨hspawns, hmakes⟩ := findIdleConnectionTimer_still { p with findIdleTimer := .off }
    exact ⟨hspawns, hmakes.connections, hmakes.allConnections, hmakes.nodes⟩

theorem dropIdleTick_still (p : ConnectionPool) :
    (p.dropIdleTick nodeConfiguration config).spawns = p.spawns ∧
      p.Makes 0 [] (p.dropIdleTick nodeConfiguration config) := by
  simp only [dropIdleTick]
  split
  · exact ⟨rfl, .of_eq rfl (.refl _) rfl⟩
  · exact ⟨rfl, .of_eq rfl (removeIdle_sublist _ _) rfl⟩

/-- A loop whose attempt failed goes on as long as it has failed less often than there are nodes. -/
theorem connectFailed_spawnStep (hintact : p.Intact nodeConfiguration)
    (hspawn : p.spawns[i]? = some (SpawnLoop.mk count (.connecting node id))) (ex : Exception) :
    p.SpawnStep (some i) (p.connectFailed i count node ex) := by
  obtain ⟨j, hj⟩ := (hintact.pending i node id ⟨count, hspawn⟩).managed
  obtain ⟨c, hreport, hstep⟩ := NodeCollectionImpl.reportFailure_spec hintact.collection hj
  rw [connectFailed, hreport]
  dsimp only
  rw [hstep.getNodesCount_eq]
  split
  next htried => exact .loop hspawn (.giveUp htried) rfl (.of_eq rfl (.refl _) hstep.getNodesCount_eq)
  next huntried =>
    exact .loop hspawn (.retry (Nat.lt_of_not_le huntried)) rfl
      (.of_eq rfl (.refl _) hstep.getNodesCount_eq)

theorem connected_spawnStep (hintact : p.Intact nodeConfiguration)
    (hspawn : p.spawns[i]? = some (SpawnLoop.mk count (.connecting node id))) :
    p.SpawnStep (some i) (p.connected i count node id) := by
  obtain ⟨j, hj⟩ := (hintact.pending i node id ⟨count, hspawn⟩).managed
  obtain ⟨c, hreport, hstep⟩ := NodeCollectionImpl.reportSuccess_spec hintact.collection hj
  rw [connected, hreport]
  dsimp only
  refine .loop hspawn .connected (feedWaiters_sameLoops _).spawns
    (Makes.then_still ?_ (feedWaiters_makes _))
  exact ⟨by simp [setReady], .refl _, hstep.getNodesCount_eq⟩

/-- Every step is one of the three. -/
theorem spawnStep (hintact : p.Intact nodeConfiguration)
    (hstep : step nodeConfiguration config p event = some q) : p.SpawnStep event.spawn q := by
  cases stepTo hstep with
  | getConnection => exact getConnection_spawnStep hintact
  | returnConnection held =>
    obtain ⟨hspawns, hmakes⟩ := returnConnection_still p _ _
    exact .still hspawns hmakes
  | releaseStream held => exact .still rfl (.of_eq (by simp [closeStream]) (.refl _) rfl)
  | closeConnection => exact .still rfl (.of_eq (by simp [setReady]) (.refl _) rfl)
  | spawnChoose spawn =>
    obtain ⟨node, hspawns, hmakes⟩ := chooseNode_makes hintact _ _
    exact .loop spawn (.choose node) hspawns hmakes
  | spawnConnected spawn => exact connected_spawnStep hintact spawn
  | spawnConnectFailed spawn => exact connectFailed_spawnStep hintact spawn _
  | spawnFinally spawn => exact .loop spawn .finish rfl (.of_eq rfl (.refl _) rfl)
  | findIdleTick sleeping => exact findIdleTick_spawnStep hintact
  | findIdleFinally stopping =>
    obtain ⟨hspawns, hmakes⟩ := findIdleFinally_still p
    exact .still hspawns hmakes
  | dropIdleTick sleeping =>
    obtain ⟨hspawns, hmakes⟩ := dropIdleTick_still p
    exact .still hspawns hmakes
  | dropIdleFinally stopping => exact .still rfl (.of_eq rfl (.refl _) rfl)
  | otherPool called =>
    exact .still rfl (.of_eq rfl (.refl _) (NodeCollectionImpl.getNodesCount_of_call hintact.collection called))

/-! ## Every run -/

/-- No loop fails more often than there are nodes, the connections are those that the loops have
made, and none of them is in the pool twice. -/
structure Economical (p : ConnectionPool) : Prop where
  within : ∀ loop ∈ p.spawns, loop.Within p.nodeCollection.getNodesCount
  connections : p.connections.length =
    (p.spawns.map (SpawnLoop.attempts p.nodeCollection.getNodesCount)).sum
  pooled : p.allConnections.Nodup

theorem Economical.spawnStep {own : Option Nat} (h : p.Economical)
    (hintact : p.Intact nodeConfiguration) (hstep : p.SpawnStep own q) : q.Economical := by
  cases hstep with
  | still spawns makes =>
    refine ⟨?_, ?_, ?_⟩
    · rw [spawns, makes.nodes]
      exact h.within
    · rw [spawns, makes.nodes, makes.connections]
      exact h.connections
    · exact (List.append_nil p.allConnections ▸ makes.allConnections).nodup h.pooled
  | starts node spawns makes =>
    have hsome : 0 < p.nodeCollection.getNodesCount := hintact.collection.nonempty
    refine ⟨?_, ?_, ?_⟩
    · rw [spawns, makes.nodes]
      intro loop hloop
      rcases List.mem_append.mp hloop with hold | hnew
      · exact h.within loop hold
      · rw [List.mem_singleton.mp hnew]
        exact ⟨Nat.zero_le _, fun _ => hsome⟩
    · rw [spawns, makes.nodes, makes.connections, h.connections]
      simp [SpawnLoop.attempts]
    · exact (List.append_nil p.allConnections ▸ makes.allConnections).nodup h.pooled
  | @loop _ i made pooled loop new spawn step spawns makes =>
    have hwithin := h.within loop (List.mem_of_getElem? spawn)
    refine ⟨?_, ?_, makes.allConnections.nodup ?_⟩
    · rw [spawns, makes.nodes]
      intro other hother
      rcases List.mem_or_eq_of_mem_set hother with hold | rfl
      · exact h.within other hold
      · exact step.within hwithin
    · have hsum := Math.sum_map_set_add
        (SpawnLoop.attempts p.nodeCollection.getNodesCount) new spawn
      have hmade := step.attempts_eq hwithin
      have hbefore := h.connections
      rw [spawns, makes.nodes, makes.connections]
      omega
    · -- a connection that is being made is not in the pool
      cases step with
      | @connected count node id =>
        have hunpooled := (hintact.pending i node id ⟨count, spawn⟩).unpooled
        rw [List.nodup_append]
        refine ⟨h.pooled, List.nodup_singleton _, fun other hother new hnew => ?_⟩
        rintro rfl
        rw [List.mem_singleton.mp hnew] at hother
        exact hunpooled hother
      | choose | retry | giveUp | finish =>
        rw [List.append_nil]
        exact h.pooled

theorem intact_and_economical_of_reachable (h : (system nodeConfiguration config).Reachable p) :
    p.Intact nodeConfiguration ∧ p.Economical := by
  apply h.invariant (fun p => p.Intact nodeConfiguration ∧ p.Economical)
  · intro p hstart
    refine ⟨Sound.of_start hstart, ?_⟩
    obtain ⟨c, -, rfl⟩ := hstart
    exact ⟨fun _ hloop => (by cases hloop), rfl, .nil⟩
  · intro p event q hp hstep
    exact ⟨hp.1.step (fun _ _ _ => trivial) (fun _ _ _ _ _ _ _ => trivial) hstep,
      hp.2.spawnStep hp.1 (spawnStep hp.1 hstep)⟩

/-- In every run, over any interleaving, the loops have made one connection for each attempt, each
loop at most as many as there are nodes, and the pool has no connection twice. -/
theorem economical_of_reachable (h : (system nodeConfiguration config).Reachable p) :
    p.Economical ∧
      p.connections.length ≤ p.nodeCollection.getNodesCount * p.spawns.length := by
  obtain ⟨-, heconomical⟩ := intact_and_economical_of_reachable h
  refine ⟨heconomical, ?_⟩
  have hle := List.sum_le_card_nsmul
    (p.spawns.map (SpawnLoop.attempts p.nodeCollection.getNodesCount))
    p.nodeCollection.getNodesCount
    (List.forall_mem_map.mpr fun loop hloop => (heconomical.within loop hloop).attempts_le)
  rw [heconomical.connections]
  rwa [List.length_map, smul_eq_mul, Nat.mul_comm] at hle

/-- One loop gives up after its only node has failed, the next one connects. -/
theorem economical_of_reachable_run : ∃ p, (system oneStream ⟨0, 1, 100⟩).Reachable p ∧
    (p.spawns.length, p.connections.length, p.allConnections) = (2, 2, [1]) ∧ p.Economical ∧
      p.connections.length ≤ p.nodeCollection.getNodesCount * p.spawns.length := by
  have hrun : ((system oneStream ⟨0, 1, 100⟩).run (create oneNode)
      [.getConnection, .spawnConnectFailed 0 ⟨.network, "connection refused"⟩, .spawnFinally 0,
        .getConnection, .spawnConnected 1]).map
          (fun p => (p.spawns.length, p.connections.length, p.allConnections)) =
            some (2, 2, [1]) := by decide
  obtain ⟨p, hp, hcounts⟩ := Option.map_eq_some_iff.mp hrun
  have hreach : (system oneStream ⟨0, 1, 100⟩).Reachable p :=
    Math.TransitionSystem.reachable_of_run ⟨oneNode, oneNode_reachable, rfl⟩ hp
  exact ⟨p, hreach, hcounts, economical_of_reachable hreach⟩

/-- How many steps the loop at an index has left at most, before it starts as well. -/
def stepsLeft (i : Nat) (p : ConnectionPool) : Nat :=
  match p.spawns[i]? with
  | none => 2 * p.nodeCollection.getNodesCount
  | some loop => loop.left p.nodeCollection.getNodesCount

theorem stepsLeft_of_step (i : Nat) (h : (system nodeConfiguration config).Reachable p)
    (hstep : step nodeConfiguration config p event = some q) :
    (if event.spawn = some i then 1 else 0) + q.stepsLeft i ≤ p.stepsLeft i := by
  obtain ⟨hintact, heconomical⟩ := intact_and_economical_of_reachable h
  have hmoves := spawnStep hintact hstep
  generalize event.spawn = own at hmoves
  rw [stepsLeft, stepsLeft]
  cases hmoves with
  | still spawns makes => simp [spawns, makes.nodes]
  | starts node spawns makes =>
    rw [spawns, makes.nodes]
    rcases Nat.lt_trichotomy i p.spawns.length with hlt | rfl | hgt
    · simp [List.getElem?_append_left hlt]
    · simp [SpawnLoop.left]
    · have hnew : (p.spawns ++ [(⟨0, .connecting node p.connections.length⟩ : SpawnLoop)])[i]? =
          none := by
        apply List.getElem?_eq_none
        rw [List.length_append, List.length_singleton]
        omega
      simp [hnew, List.getElem?_eq_none (Nat.le_of_lt hgt)]
  | @loop _ j made pooled loop new spawn step spawns makes =>
    rw [spawns, makes.nodes]
    by_cases hsame : j = i
    · subst hsame
      have hwithin := heconomical.within loop (List.mem_of_getElem? spawn)
      obtain ⟨hlt, -⟩ := List.getElem?_eq_some_iff.mp spawn
      rw [List.getElem?_set_self hlt, spawn, if_pos rfl]
      exact step.left_lt hwithin
    · rw [List.getElem?_set_ne hsame, if_neg (by simpa using hsame), Nat.zero_add]

/-- Whatever runs between its steps, a spawn loop takes two steps for each node at most. -/
theorem spawn_steps_le {c : NodeCollectionImpl} {events : List Event}
    (hc : NodeCollectionImpl.system.Reachable c)
    (hrun : (system nodeConfiguration config).run (create c) events = some q) (i : Nat) :
    events.countP (fun event => event.spawn = some i) ≤ 2 * c.getNodesCount := by
  have hstart : (system nodeConfiguration config).Reachable (create c) := .of_start ⟨c, hc, rfl⟩
  have hbound := Math.TransitionSystem.countP_add_measure_le (stepsLeft i)
    (fun event => event.spawn = some i)
    (fun s a t hs hstep => by simpa using stepsLeft_of_step i hs hstep) hstart hrun
  exact (Nat.le_add_right _ _).trans hbound

/-- The bound is reached by a loop over one node that fails. -/
theorem spawn_steps_le_run : ∃ (q : ConnectionPool) (events : List Event),
    (system oneStream ⟨0, 1, 100⟩).run (create oneNode) events = some q ∧
      events.countP (fun event => event.spawn = some 0) = 2 * oneNode.getNodesCount ∧
        events.countP (fun event => event.spawn = some 0) ≤ 2 * oneNode.getNodesCount := by
  let events : List Event :=
    [.getConnection, .spawnConnectFailed 0 ⟨.network, "connection refused"⟩, .spawnFinally 0]
  have hrun : ((system oneStream ⟨0, 1, 100⟩).run (create oneNode) events).isSome = true := by decide
  obtain ⟨q, hq⟩ := Option.isSome_iff_exists.mp hrun
  exact ⟨q, events, hq, by decide, spawn_steps_le oneNode_reachable hq 0⟩

end ConnectionPool

end CqlDriver
