import CqlDriver.Common.NodeAttempts
import CqlDriver.Pool.Waiters

/-!
# A spawn loop that runs alone

What one `spawnConnection` loop does when nothing else happens and its nodes are
divided into reachable and unreachable ones. Its attempts on the node collection
are those of `NodeCollectionImpl.attempts`, so it tries every node unless the
collection is at a start that repeats one.

## Main definitions

* `ConnectionPool.spawnAlone` — the events of one spawn loop, in order
* `ConnectionPool.TriesEveryNode` — the loop gives up only if no node can be
  reached, and otherwise adds a ready connection to the pool

## Main results

* `ConnectionPool.triesEveryNode_iff` — exactly which loops try every node
* `ConnectionPool.not_forall_triesEveryNode` — a loop that gives up although one
  of its nodes can be reached
-/

namespace CqlDriver.ConnectionPool

variable {nodeConfiguration : Nat → NodeConfiguration} {config : SessionConfiguration}
  {p q : ConnectionPool} {id i k count node : Nat} {reachable : Nat → Bool} {ex : Exception}

/-- The next `k` events of one spawn loop: each pending `ready()` succeeds or fails
with `ex` as its node is reachable or not. -/
def spawnAlone (nodeConfiguration : Nat → NodeConfiguration) (reachable : Nat → Bool)
    (ex : Exception) (i : Nat) : Nat → ConnectionPool → ConnectionPool
  | 0, p => p
  | k + 1, p =>
    match p.spawns[i]? with
    | some ⟨count, .choosing⟩ =>
      spawnAlone nodeConfiguration reachable ex i k (p.chooseNode nodeConfiguration i count)
    | some ⟨count, .connecting node id⟩ =>
      spawnAlone nodeConfiguration reachable ex i k
        (if reachable node then p.connected i count node id else p.connectFailed i count node ex)
    | _ => p

/-- A new spawn loop, run to its end: two events for each node. -/
def runSpawn (nodeConfiguration : Nat → NodeConfiguration) (reachable : Nat → Bool)
    (ex : Exception) (p : ConnectionPool) : ConnectionPool :=
  spawnAlone nodeConfiguration reachable ex p.spawns.length (2 * p.nodeCollection.getNodesCount)
    (p.spawnConnection nodeConfiguration)

/-- The loop has counted as many failures as there are nodes, which is when it
calls `cleanWaiters`. -/
def GaveUp (p : ConnectionPool) (i : Nat) : Prop :=
  ∃ count, p.spawns[i]? = some (SpawnLoop.mk count .finishing) ∧
    p.nodeCollection.getNodesCount ≤ count

/-- A connection made since `p` is in the pool and ready. -/
def AddedReady (p q : ConnectionPool) : Prop :=
  ∃ id, p.connections.length ≤ id ∧ id ∈ q.allConnections ∧ q.isReady id = true

/-- A spawn loop started now and running alone gives up only if no node can be
reached, and adds a ready connection if one can. -/
def TriesEveryNode (nodeConfiguration : Nat → NodeConfiguration) (reachable : Nat → Bool)
    (ex : Exception) (p : ConnectionPool) : Prop :=
  ((p.runSpawn nodeConfiguration reachable ex).GaveUp p.spawns.length →
      ∀ j, ¬ p.nodeCollection.ReachableAt reachable j) ∧
    ((∃ j, p.nodeCollection.ReachableAt reachable j) →
      p.AddedReady (p.runSpawn nodeConfiguration reachable ex))

/-! ## One iteration -/

theorem spawnAlone_choosing (hspawn : p.spawns[i]? = some (SpawnLoop.mk count .choosing)) :
    spawnAlone nodeConfiguration reachable ex i (k + 1) p =
      spawnAlone nodeConfiguration reachable ex i k (p.chooseNode nodeConfiguration i count) := by
  rw [spawnAlone, hspawn]

theorem spawnAlone_connecting
    (hspawn : p.spawns[i]? = some (SpawnLoop.mk count (.connecting node id))) :
    spawnAlone nodeConfiguration reachable ex i (k + 1) p =
      spawnAlone nodeConfiguration reachable ex i k
        (if reachable node then p.connected i count node id
          else p.connectFailed i count node ex) := by
  rw [spawnAlone, hspawn]

/-- A loop that has ended stays as it is. -/
theorem spawnAlone_finishing (hspawn : p.spawns[i]? = some (SpawnLoop.mk count .finishing)) :
    spawnAlone nodeConfiguration reachable ex i k p = p := by
  cases k with
  | zero => rfl
  | succ k => rw [spawnAlone, hspawn]

/-- A loop that is about to connect to a reachable node adds a ready connection
and ends. -/
theorem connected_spec (h : p.Intact nodeConfiguration)
    (hspawn : p.spawns[i]? = some (SpawnLoop.mk count (.connecting node id))) :
    (p.connected i count node id).spawns[i]? = some (SpawnLoop.mk count .finishing) ∧
      (p.connected i count node id).nodeCollection.getNodesCount =
        p.nodeCollection.getNodesCount ∧
        id ∈ (p.connected i count node id).allConnections ∧
          (p.connected i count node id).isReady id = true := by
  have hpending := h.pending i node id ⟨count, hspawn⟩
  obtain ⟨j, hj⟩ := hpending.managed
  obtain ⟨c, hreport, hstep⟩ := NodeCollectionImpl.reportSuccess_spec h.collection hj
  have hlt := (List.getElem?_eq_some_iff.mp hspawn).1
  rw [connected, hreport]
  simp only
  generalize hadded : ({ p.setReady id true with
    nodeCollection := c
    allConnections := p.allConnections ++ [id]
    spawns := p.spawns.set i ⟨count, .finishing⟩ } : ConnectionPool) = added
  have hsame := feedWaiters_sameLoops added
  have hready : added.isReady id = true := by
    simp [← hadded, isReady, setReady, hpending.lt]
  have hkept := feedWaiters_keeps_ready (by simp [← hadded]) hready
  refine ⟨?_, ?_, hkept⟩
  · rw [hsame.spawns, ← hadded]
    simp [hlt]
  · rw [hsame.nodeCollection, ← hadded]
    exact hstep.getNodesCount_eq

/-- An iteration up to the pending `ready()`. -/
theorem chooseNode_eq {next : NodeCollectionImpl}
    (hchoose : p.nodeCollection.chooseOneNode = .ok (node, next)) :
    p.chooseNode nodeConfiguration i count =
      { p with
        nodeCollection := next
        connections := p.connections ++ [Connection.create node (nodeConfiguration node).maxStreams]
        spawns := p.spawns.set i ⟨count, .connecting node p.connections.length⟩ } := by
  rw [chooseNode, hchoose]

/-- The failure of an attempt: the loop gives up after the last one. -/
theorem connectFailed_spec {failed : NodeCollectionImpl} (count : Nat) (ex : Exception)
    (hlt : i < p.spawns.length)
    (hreport : p.nodeCollection.reportFailure node = .ok failed) :
    (p.connectFailed i count node ex).nodeCollection = failed ∧
      (p.connectFailed i count node ex).connections = p.connections ∧
        (p.connectFailed i count node ex).spawns[i]? = some
          (if failed.getNodesCount ≤ count + 1 then SpawnLoop.mk (count + 1) .finishing
            else SpawnLoop.mk (count + 1) .choosing) := by
  rw [connectFailed, hreport]
  simp only
  split
  · exact ⟨rfl, rfl, by simp [cleanWaiters, hlt]⟩
  · exact ⟨rfl, rfl, by simp [hlt]⟩

/-- A loop with `m` attempts left, about to choose a node, adds a ready connection
if one of its attempts reaches a node and gives up otherwise. -/
theorem spawnAlone_spec {m : Nat} (reachable : Nat → Bool) (ex : Exception) (hm : 0 < m)
    (h : p.Intact nodeConfiguration)
    (hspawn : p.spawns[i]? = some (SpawnLoop.mk count .choosing))
    (hcount : count + m = p.nodeCollection.getNodesCount) (hk : 2 * m ≤ k) :
    (NodeCollectionImpl.attempts reachable m p.nodeCollection = true →
        p.AddedReady (spawnAlone nodeConfiguration reachable ex i k p) ∧
          ¬ (spawnAlone nodeConfiguration reachable ex i k p).GaveUp i) ∧
      (NodeCollectionImpl.attempts reachable m p.nodeCollection = false →
        (spawnAlone nodeConfiguration reachable ex i k p).GaveUp i) := by
  induction m generalizing p count k with
  | zero => exact absurd hm (lt_irrefl 0)
  | succ m ih =>
    obtain ⟨k, rfl⟩ : ∃ k', k = k' + 2 := ⟨k - 2, by omega⟩
    have hlt := (List.getElem?_eq_some_iff.mp hspawn).1
    obtain ⟨j, node, next, hnode, hchoose, hstep⟩ :=
      NodeCollectionImpl.chooseOneNode_spec h.collection
    have hchosen := h.chooseNode i count
    have hnodes := hstep.getNodesCount_eq
    rw [spawnAlone_choosing hspawn]
    rw [chooseNode_eq hchoose] at hchosen ⊢
    -- `chosen` is the pool while the new connection is being initialised
    generalize hdef : ({ p with
      nodeCollection := next
      connections := p.connections ++ [Connection.create node (nodeConfiguration node).maxStreams]
      spawns := p.spawns.set i ⟨count, .connecting node p.connections.length⟩ } :
        ConnectionPool) = chosen at hchosen ⊢
    have hconnecting : chosen.spawns[i]? =
        some (SpawnLoop.mk count (.connecting node p.connections.length)) := by
      simp [← hdef, hlt]
    have hcollection : chosen.nodeCollection = next := by rw [← hdef]
    have hheap : p.connections.length ≤ chosen.connections.length := by simp [← hdef]
    have hltChosen : i < chosen.spawns.length := by simp [← hdef, hlt]
    rw [spawnAlone_connecting hconnecting]
    by_cases hreach : reachable node = true
    · obtain ⟨hfinishing, hsame, hmem, hready⟩ := connected_spec hchosen hconnecting
      have hattempt : NodeCollectionImpl.attempts reachable (m + 1) p.nodeCollection = true := by
        simp [NodeCollectionImpl.attempts, hchoose, hreach]
      rw [if_pos hreach, hattempt, spawnAlone_finishing hfinishing]
      refine ⟨fun _ => ⟨⟨_, le_rfl, hmem, hready⟩, ?_⟩, fun hfalse => absurd hfalse.symm Bool.false_ne_true⟩
      rintro ⟨count', hended, hall⟩
      rw [hfinishing, Option.some.injEq, SpawnLoop.mk.injEq] at hended
      rw [hsame, hcollection] at hall
      omega
    · obtain ⟨failed, hreport, hfailure⟩ := NodeCollectionImpl.reportFailure_spec
        (hcollection ▸ hchosen.collection) (hstep.nodeAt_eq.trans hnode)
      obtain ⟨hfailed, hconnections, hended⟩ := connectFailed_spec count ex hltChosen
        (by rw [hcollection]; exact hreport)
      have hcounts := hfailure.getNodesCount_eq
      have hattempt : NodeCollectionImpl.attempts reachable (m + 1) p.nodeCollection =
          NodeCollectionImpl.attempts reachable m failed := by
        simp [NodeCollectionImpl.attempts, hchoose, hreach, hreport]
      rw [if_neg hreach, hattempt]
      by_cases hlast : m = 0
      · rw [if_pos (by omega)] at hended
        rw [spawnAlone_finishing hended, hlast]
        refine ⟨fun htrue => absurd htrue Bool.false_ne_true, fun _ => ⟨count + 1, hended, ?_⟩⟩
        rw [hfailed]
        omega
      · rw [if_neg (by omega)] at hended
        have hnext := ih (Nat.pos_of_ne_zero hlast) (hchosen.connectFailed i count node ex) hended
          (by rw [hfailed]; omega) (show 2 * m ≤ k by omega)
        rw [hfailed] at hnext
        refine ⟨fun htrue => ?_, hnext.2⟩
        obtain ⟨⟨id, hid, hmem, hready⟩, hnot⟩ := hnext.1 htrue
        rw [hconnections] at hid
        exact ⟨⟨id, hheap.trans hid, hmem, hready⟩, hnot⟩

/-- In every reachable state, a spawn loop that runs alone tries every node unless
no node is marked, the walk stands inside, and the node just before it is the only
one that can be reached. -/
theorem triesEveryNode_iff (h : (system nodeConfiguration config).Reachable p)
    (reachable : Nat → Bool) (ex : Exception) :
    p.TriesEveryNode nodeConfiguration reachable ex ↔
      ¬ (p.nodeCollection.StartsInside ∧ (∃ j, p.nodeCollection.ReachableAt reachable j) ∧
        ∀ j, p.nodeCollection.ReachableAt reachable j → j + 1 = p.nodeCollection.nextIndex) := by
  have hintact := (intact_and_covered_of_reachable h).1
  have hpos : 0 < p.nodeCollection.getNodesCount := hintact.collection.nonempty
  have hspawn : (p.spawns ++ [⟨0, .choosing⟩])[p.spawns.length]? =
      some (SpawnLoop.mk 0 .choosing) := by simp
  obtain ⟨hadded, hgaveUp⟩ := spawnAlone_spec reachable ex hpos hintact.pushSpawn hspawn
    (Nat.zero_add _) (Nat.le_succ (2 * p.nodeCollection.getNodesCount))
  rw [spawnAlone_choosing hspawn] at hadded hgaveUp
  by_cases hreach : ∃ j, p.nodeCollection.ReachableAt reachable j
  · have hattempts := NodeCollectionImpl.attempts_iff hintact.collection hreach
    constructor
    · rintro ⟨honly, -⟩ ⟨hstart, -, hbefore⟩
      obtain ⟨j, hj⟩ := hreach
      refine honly (hgaveUp ?_) j hj
      rw [← Bool.not_eq_true]
      exact fun htrue => hattempts.mp htrue ⟨hstart, hbefore⟩
    · intro hnot
      have htrue := hattempts.mpr fun hboth => hnot ⟨hboth.1, hreach, hboth.2⟩
      obtain ⟨hready, hgoes⟩ := hadded htrue
      exact ⟨fun hended => absurd hended hgoes, fun _ => hready⟩
  · refine iff_of_true ⟨fun _ j hj => hreach ⟨j, hj⟩, fun hsome => absurd hsome hreach⟩ ?_
    exact fun hboth => hreach hboth.2.1

section Runs

/-- A new pool over two nodes that have not been used yet. -/
def twoNodes : NodeCollectionImpl := ⟨[⟨0, false⟩, ⟨1, false⟩], 0, [], 2⟩

/-- The same nodes after another pool has taken the first one. -/
def twoNodesTaken : NodeCollectionImpl := { twoNodes with nextIndex := 1 }

theorem twoNodes_reachable : NodeCollectionImpl.system.Reachable twoNodes :=
  .of_start ⟨[0, 1], by decide, rfl⟩

theorem twoNodesTaken_reachable : NodeCollectionImpl.system.Reachable twoNodesTaken :=
  twoNodes_reachable.of_step (a := .chooseOneNode) (by decide)

/-- The failure of every attempt in the runs below. -/
def refused : Exception := ⟨.network, "connection refused"⟩

/-- Over unused nodes the loop comes to the only node that can be reached. -/
theorem triesEveryNode_run :
    (create twoNodes).AddedReady
      ((create twoNodes).runSpawn oneStream (fun node => node == 1) refused) := by
  have hreach : (system oneStream ⟨0, 1, 100⟩).Reachable (create twoNodes) :=
    .of_start ⟨twoNodes, twoNodes_reachable, rfl⟩
  have htries := (triesEveryNode_iff hreach (fun node => node == 1) refused).mpr
    fun hboth => absurd hboth.1.2.1 (by decide)
  exact htries.2 ⟨1, 1, rfl, rfl⟩

/-- A loop that starts at the second node returns to it after the wrap-around and
gives up without having tried the first node, which can be reached. -/
theorem not_forall_triesEveryNode :
    ¬ ∀ p, (system oneStream ⟨0, 1, 100⟩).Reachable p → ∀ reachable ex,
      p.TriesEveryNode oneStream reachable ex := by
  intro hall
  have htries := hall (create twoNodesTaken)
    (.of_start ⟨twoNodesTaken, twoNodesTaken_reachable, rfl⟩) (fun node => node == 0) refused
  have hended : ((create twoNodesTaken).runSpawn oneStream (fun node => node == 0)
      refused).spawns[0]? = some (SpawnLoop.mk 2 .finishing) := by decide
  exact htries.1 ⟨2, hended, by decide⟩ 0 ⟨0, rfl, rfl⟩

end Runs

end CqlDriver.ConnectionPool
