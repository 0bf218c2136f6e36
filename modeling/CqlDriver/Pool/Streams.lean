import CqlDriver.Math.Lists
import CqlDriver.Pool.Lookup

/-!
# Who owns which stream

The invariant of the pool's heap. The free stream ids of a connection and those in
the hands of callers are together all ids but zero, each once; a connection whose
initialisation is pending belongs to one spawn loop and to nobody else; and every
pair handed out so far satisfies a given condition `P`.

`P` is a parameter because the three ways to hand out a pair differ in what they
check. A delivery out of a search satisfies every `P` that holds of ready
connections with unowned streams; `returnConnection` looks at the stream only.

## Main definitions

* `Delivery.IsUnowned` — the stream is valid and nobody held it
* `ConnectionPool.Sound` — the invariant

## Main results

* `ConnectionPool.Sound.step` — what a step needs to keep the invariant
-/

open CqlDriver.Math (valuesOf mem_valuesOf valuesOf_cons_self valuesOf_cons_of_ne)

namespace CqlDriver

/-- The stream is not the internal one and no holder had it. -/
def Delivery.IsUnowned (delivery : Delivery) : Prop :=
  0 < delivery.stream ∧ delivery.isHeld = false

namespace ConnectionPool

variable {P : Delivery → Prop} {nodeConfiguration : Nat → NodeConfiguration}
  {config : SessionConfiguration} {p q : ConnectionPool} {id stream i count node : Nat}

theorem valuesOf_erase {held : List (Nat × Nat)} (hmem : (id, stream) ∈ held) (other : Nat) :
    (valuesOf held other).Perm (valuesOf ((id, stream) :: held.erase (id, stream)) other) :=
  (List.perm_cons_erase hmem).filterMap _

/-- The spawn loop at an index waits for `ready()` of a connection. -/
def IsConnecting (p : ConnectionPool) (i node id : Nat) : Prop :=
  ∃ count, p.spawns[i]? = some (SpawnLoop.mk count (.connecting node id))

/-- A connection that is being initialised is reached by its spawn loop only. -/
structure Pending (p : ConnectionPool) (node id : Nat) : Prop where
  lt : id < p.connections.length
  unpooled : id ∉ p.allConnections
  unheld : ∀ stream, (id, stream) ∉ p.held
  managed : ∃ j, p.nodeCollection.nodeAt j = some node

/-- The invariant of the pool's heap, with a condition on the deliveries so far. -/
structure Sound (P : Delivery → Prop) (nodeConfiguration : Nat → NodeConfiguration)
    (p : ConnectionPool) : Prop where
  streams : ∀ id connection, p.connections[id]? = some connection →
    (connection.freeStreamIds ++ valuesOf p.held id).Perm
      (List.range' 1 ((nodeConfiguration connection.node).maxStreams - 1))
  held_lt : ∀ id stream, (id, stream) ∈ p.held → id < p.connections.length
  pool_lt : ∀ id ∈ p.allConnections, id < p.connections.length
  pending : ∀ i node id, p.IsConnecting i node id → p.Pending node id
  pending_unique : ∀ i j node node' id,
    p.IsConnecting i node id → p.IsConnecting j node' id → i = j
  collection : p.nodeCollection.WellFormed
  delivered : ∀ delivery ∈ p.deliveries, P delivery

theorem removeIdle_sublist (existCount : Nat) (pool : List Nat) :
    (removeIdle nodeConfiguration config p existCount pool).1.Sublist pool := by
  induction pool generalizing existCount with
  | nil => exact .refl _
  | cons id rest ih =>
    rw [removeIdle]
    split
    · exact (ih _).cons _
    · exact (ih _).cons_cons _

namespace Sound

/-- The invariant does not read the waiters, the timers or the failures. -/
theorem frame (h : p.Sound P nodeConfiguration)
    (hsame : (q.connections, q.allConnections, q.held, q.spawns, q.nodeCollection, q.deliveries) =
      (p.connections, p.allConnections, p.held, p.spawns, p.nodeCollection, p.deliveries)) :
    q.Sound P nodeConfiguration := by
  simp only [Prod.mk.injEq] at hsame
  obtain ⟨hconnections, hpool, hheld, hspawns, hnodes, hdeliveries⟩ := hsame
  constructor
  case streams =>
    rw [hconnections, hheld]
    exact h.streams
  case held_lt =>
    rw [hconnections, hheld]
    exact h.held_lt
  case pool_lt =>
    rw [hconnections, hpool]
    exact h.pool_lt
  case pending =>
    intro i node id hspawn
    rw [IsConnecting, hspawns] at hspawn
    obtain ⟨hlt, hunpooled, hunheld, hmanaged⟩ := h.pending i node id hspawn
    exact ⟨hconnections ▸ hlt, hpool ▸ hunpooled, hheld ▸ hunheld, hnodes ▸ hmanaged⟩
  case pending_unique =>
    intro i j node node' id hi hj
    rw [IsConnecting, hspawns] at hi hj
    exact h.pending_unique i j node node' id hi hj
  case collection => exact hnodes ▸ h.collection
  case delivered => exact hdeliveries ▸ h.delivered

/-- Erasing connections from the pool. -/
theorem sweep (h : p.Sound P nodeConfiguration) {pool : List Nat}
    (hsub : pool.Sublist p.allConnections) :
    ({ p with allConnections := pool } : ConnectionPool).Sound P nodeConfiguration :=
  { h with
    pool_lt := fun id hid => h.pool_lt id (hsub.subset hid)
    pending := fun i node id hspawn =>
      { h.pending i node id hspawn with
        unpooled := fun hmem => (h.pending i node id hspawn).unpooled (hsub.subset hmem) } }

/-- A free stream is valid and nobody holds it. -/
theorem free_unowned (h : p.Sound P nodeConfiguration) {connection : Connection} {rest : List Nat}
    (hheap : p.connections[id]? = some connection)
    (hfree : connection.freeStreamIds = stream :: rest) : 0 < stream ∧ (id, stream) ∉ p.held := by
  have hperm := h.streams id connection hheap
  rw [hfree, List.cons_append] at hperm
  have hnodup := hperm.nodup_iff.mpr List.nodup_range'
  have hrange := hperm.mem_iff.mp (List.mem_cons_self (a := stream))
  refine ⟨(List.mem_range'_1.mp hrange).1, fun hmem => ?_⟩
  exact (List.nodup_cons.mp hnodup).1 (List.mem_append_right rest (mem_valuesOf.mpr hmem))

/-- Opening a stream of a connection that is not being initialised and handing it
to a caller. -/
theorem handOut (h : p.Sound P nodeConfiguration) {connection : Connection} {rest : List Nat}
    (caller : Nat) (hheap : p.connections[id]? = some connection)
    (hfree : connection.freeStreamIds = stream :: rest)
    (hspawns : ∀ i node, ¬ p.IsConnecting i node id)
    (hP : P ⟨caller, id, stream, p.isReady id, false⟩) :
    (({ p with
      connections := p.connections.set id { connection with freeStreamIds := rest } } :
        ConnectionPool).deliver caller id stream).Sound P nodeConfiguration := by
  obtain ⟨hlt, hget⟩ := List.getElem?_eq_some_iff.mp hheap
  have hunowned := (h.free_unowned hheap hfree).2
  refine { h with
    streams := ?_, held_lt := ?_, pool_lt := ?_, pending := ?_, delivered := ?_ }
  · intro other found hfound
    rw [deliver, List.getElem?_set] at hfound
    by_cases heq : id = other
    · subst heq
      rw [if_pos rfl, if_pos hlt, Option.some.injEq] at hfound
      subst hfound
      have hperm := h.streams id connection hheap
      rw [hfree] at hperm
      rw [deliver, valuesOf_cons_self]
      exact List.perm_middle.trans hperm
    · rw [if_neg heq] at hfound
      rw [deliver, valuesOf_cons_of_ne heq]
      exact h.streams other found hfound
  · intro other s hmem
    rw [deliver, List.length_set]
    rcases List.mem_cons.mp hmem with heq | hold
    · rw [(Prod.mk.inj heq).1]
      exact hlt
    · exact h.held_lt other s hold
  · intro other hmem
    rw [deliver, List.length_set]
    exact h.pool_lt other hmem
  · intro i node other hspawn
    obtain ⟨hpending, hunpooled, hunheld, hmanaged⟩ := h.pending i node other hspawn
    refine ⟨?_, hunpooled, ?_, hmanaged⟩
    · rw [deliver, List.length_set]
      exact hpending
    · intro s hmem
      rcases List.mem_cons.mp hmem with heq | hold
      · rw [(Prod.mk.inj heq).1] at hspawn
        exact hspawns i node hspawn
      · exact hunheld s hold
  · intro delivery hmem
    rcases List.mem_cons.mp hmem with rfl | hold
    · have hready : isReady { p with
          connections := p.connections.set id { connection with freeStreamIds := rest } } id =
            p.isReady id := by
        simp [isReady, hlt, hget]
      rw [hready, decide_eq_false (by exact hunowned)]
      exact hP
    · exact h.delivered delivery hold

/-- A search keeps the invariant, and so does the delivery of what it found. -/
theorem lookup (h : p.Sound P nodeConfiguration)
    (hP : ∀ delivery : Delivery, delivery.isReady = true → delivery.IsUnowned → P delivery)
    (caller : Nat) (hlookup : p.Lookup (some (id, stream), q)) :
    (q.deliver caller id stream).Sound P nodeConfiguration := by
  cases hlookup with
  | found swept mem ready most heap free =>
    have hswept := h.sweep swept.sublist
    refine hswept.handOut caller heap free ?_ ?_
    · intro i node hspawn
      exact (hswept.pending i node id hspawn).unpooled mem
    · exact hP _ ready ⟨(h.free_unowned heap free).1, rfl⟩

theorem lookup_missing (h : p.Sound P nodeConfiguration) (hlookup : p.Lookup (none, q)) :
    q.Sound P nodeConfiguration := by
  cases hlookup with
  | missing swept _ _ => exact h.sweep swept.sublist

/-- Feeding the waiters keeps the invariant. -/
theorem feedWaiters (h : p.Sound P nodeConfiguration)
    (hP : ∀ delivery : Delivery, delivery.isReady = true → delivery.IsUnowned → P delivery) :
    p.feedWaiters.Sound P nodeConfiguration := by
  refine feedWaiters_induction (fun q => q.Sound P nodeConfiguration) ?_ ?_ h
  · exact fun q r hq hlookup => hq.lookup_missing hlookup
  · intro q r caller rest id stream hq _ hlookup
    exact (hq.lookup hP caller hlookup).frame rfl

/-- Giving a held stream back to its connection. -/
theorem closeStream (h : p.Sound P nodeConfiguration) (hheld : (id, stream) ∈ p.held) :
    (p.closeStream id stream).Sound P nodeConfiguration := by
  refine { h with
    streams := ?_, held_lt := ?_, pool_lt := ?_, pending := ?_ }
  · intro other found hfound
    rw [ConnectionPool.closeStream, List.getElem?_modify, Option.map_eq_map,
      Option.map_eq_some_iff] at hfound
    obtain ⟨connection, hheap, rfl⟩ := hfound
    have hperm := valuesOf_erase hheld other
    have hstreams := h.streams other connection hheap
    by_cases heq : id = other
    · subst heq
      rw [valuesOf_cons_self] at hperm
      rw [if_pos rfl]
      refine .trans ?_ hstreams
      exact (List.perm_middle.symm).trans (hperm.symm.append_left _)
    · rw [valuesOf_cons_of_ne heq] at hperm
      rw [if_neg heq]
      exact (hperm.symm.append_left _).trans hstreams
  · intro other s hmem
    rw [ConnectionPool.closeStream, List.length_modify]
    exact h.held_lt other s (List.mem_of_mem_erase hmem)
  · intro other hmem
    rw [ConnectionPool.closeStream, List.length_modify]
    exact h.pool_lt other hmem
  · intro i node other hspawn
    obtain ⟨hlt, hunpooled, hunheld, hmanaged⟩ := h.pending i node other hspawn
    refine ⟨?_, hunpooled, fun s hmem => hunheld s (List.mem_of_mem_erase hmem), hmanaged⟩
    rw [ConnectionPool.closeStream, List.length_modify]
    exact hlt

/-- The ready flags are not part of the invariant. -/
theorem setReady (h : p.Sound P nodeConfiguration) (id : Nat) (flag : Bool) :
    (p.setReady id flag).Sound P nodeConfiguration := by
  refine { h with streams := ?_, held_lt := ?_, pool_lt := ?_, pending := ?_ }
  · intro other found hfound
    rw [ConnectionPool.setReady, List.getElem?_modify, Option.map_eq_map,
      Option.map_eq_some_iff] at hfound
    obtain ⟨connection, hheap, rfl⟩ := hfound
    have hstreams := h.streams other connection hheap
    split
    · exact hstreams
    · exact hstreams
  · intro other s hmem
    rw [ConnectionPool.setReady, List.length_modify]
    exact h.held_lt other s hmem
  · intro other hmem
    rw [ConnectionPool.setReady, List.length_modify]
    exact h.pool_lt other hmem
  · intro i node other hspawn
    obtain ⟨hlt, hunpooled, hunheld, hmanaged⟩ := h.pending i node other hspawn
    refine ⟨?_, hunpooled, hunheld, hmanaged⟩
    rw [ConnectionPool.setReady, List.length_modify]
    exact hlt

/-- The returned stream is given back, opened again and handed to a waiter. -/
theorem returnConnection (h : p.Sound P nodeConfiguration) (hheld : (id, stream) ∈ p.held)
    (hP : p.waiters ≠ [] → ∀ caller s, 0 < s → P ⟨caller, id, s, p.isReady id, false⟩) :
    (p.returnConnection id stream).Sound P nodeConfiguration := by
  have hclosed := h.closeStream hheld
  have hlt := h.held_lt id stream hheld
  have hconnecting : ∀ i node, ¬ p.IsConnecting i node id :=
    fun i node hspawn => (h.pending i node id hspawn).unheld stream hheld
  rw [ConnectionPool.returnConnection]
  split
  · exact hclosed
  next caller rest hwaiters =>
    -- the stream just given back is the one that is opened
    have hheap : (p.closeStream id stream).connections[id]? =
        some ((p.connections.get ⟨id, hlt⟩).closeStream stream) := by
      simp [ConnectionPool.closeStream, hlt]
    have hready : (p.closeStream id stream).isReady id = p.isReady id := by
      simp [isReady, ConnectionPool.closeStream, hlt, Connection.closeStream]
    have hwaiters' : p.waiters ≠ [] := by
      intro hnil
      rw [ConnectionPool.closeStream, hnil] at hwaiters
      cases hwaiters
    have hpositive := (hclosed.free_unowned hheap rfl).1
    have hout := hclosed.handOut caller hheap rfl hconnecting
      (by rw [hready]; exact hP hwaiters' caller stream hpositive)
    simp only [ConnectionPool.openStream, hheap]
    exact hout.frame rfl

/-- Moving one spawn loop to a phase that waits for no connection. -/
theorem setSpawn (h : p.Sound P nodeConfiguration) (i : Nat) (loop : SpawnLoop)
    (hloop : ∀ node id, loop.phase ≠ .connecting node id) :
    ({ p with spawns := p.spawns.set i loop } : ConnectionPool).Sound P nodeConfiguration := by
  have hold : ∀ j node id,
      ({ p with spawns := p.spawns.set i loop } : ConnectionPool).IsConnecting j node id →
        p.IsConnecting j node id := by
    rintro j node id ⟨count, hspawn⟩
    rw [List.getElem?_set] at hspawn
    split at hspawn
    · split at hspawn
      · rw [Option.some.injEq] at hspawn
        exact absurd (congrArg SpawnLoop.phase hspawn) (hloop node id)
      · cases hspawn
    · exact ⟨count, hspawn⟩
  refine { h with pending := ?_, pending_unique := ?_ }
  · intro j node id hspawn
    exact { h.pending j node id (hold j node id hspawn) with }
  · intro j k node node' id hj hk
    exact h.pending_unique j k node node' id (hold j node id hj) (hold k node' id hk)

/-- Replacing the node collection by one over the same nodes. -/
theorem setCollection (h : p.Sound P nodeConfiguration) {c : NodeCollectionImpl}
    (hc : c.WellFormed) (hnodes : ∀ j, c.nodeAt j = p.nodeCollection.nodeAt j) :
    ({ p with nodeCollection := c } : ConnectionPool).Sound P nodeConfiguration := by
  refine { h with collection := hc, pending := ?_ }
  intro i node id hspawn
  obtain ⟨hlt, hunpooled, hunheld, j, hj⟩ := h.pending i node id hspawn
  exact ⟨hlt, hunpooled, hunheld, j, (hnodes j).trans hj⟩

/-- An iteration of a spawn loop chooses a node and makes a connection for itself. -/
theorem chooseNode (h : p.Sound P nodeConfiguration) (i count : Nat) :
    (p.chooseNode nodeConfiguration i count).Sound P nodeConfiguration := by
  obtain ⟨j, node, next, hnode, hchoose, hstep⟩ := NodeCollectionImpl.chooseOneNode_spec h.collection
  have hset := h.setCollection (hstep.wellFormed h.collection) (fun _ => hstep.nodeAt_eq)
  rw [ConnectionPool.chooseNode, hchoose]
  -- the new connection has an index no one else knows
  have hconnecting : ∀ k node' id, IsConnecting { p with
      nodeCollection := next
      connections := p.connections ++ [Connection.create node (nodeConfiguration node).maxStreams]
      spawns := p.spawns.set i ⟨count, .connecting node p.connections.length⟩ } k node' id →
        (k = i ∧ node' = node ∧ id = p.connections.length) ∨ p.IsConnecting k node' id := by
    rintro k node' id ⟨count', hspawn⟩
    rw [List.getElem?_set] at hspawn
    split at hspawn
    next heq =>
      split at hspawn
      · simp only [Option.some.injEq, SpawnLoop.mk.injEq, SpawnPhase.connecting.injEq] at hspawn
        exact .inl ⟨heq.symm, hspawn.2.1.symm, hspawn.2.2.symm⟩
      · cases hspawn
    · exact .inr ⟨count', hspawn⟩
  refine { hset with
    streams := ?_, held_lt := ?_, pool_lt := ?_, pending := ?_, pending_unique := ?_ }
  · intro id connection hheap
    rw [List.getElem?_append] at hheap
    split at hheap
    · exact h.streams id connection hheap
    next hge =>
      rw [List.getElem?_singleton] at hheap
      split at hheap
      next hzero =>
        rw [Option.some.injEq] at hheap
        have hid : id = p.connections.length := by omega
        have hnone : valuesOf p.held id = [] := by
          refine List.eq_nil_iff_forall_not_mem.mpr fun stream hmem => ?_
          exact absurd (h.held_lt id stream (mem_valuesOf.mp hmem)) (by omega)
        subst hheap
        simp only [hnone, List.append_nil, Connection.create]
        exact .refl _
      · cases hheap
  · intro id stream hmem
    rw [List.length_append]
    exact Nat.lt_add_right _ (h.held_lt id stream hmem)
  · intro id hmem
    rw [List.length_append]
    exact Nat.lt_add_right _ (h.pool_lt id hmem)
  · intro k node' id hspawn
    rcases hconnecting k node' id hspawn with ⟨-, rfl, rfl⟩ | hold
    · refine ⟨by simp, ?_, ?_, ⟨j, hstep.nodeAt_eq.trans hnode⟩⟩
      · exact fun hmem => absurd (h.pool_lt _ hmem) (lt_irrefl _)
      · exact fun stream hmem => absurd (h.held_lt _ _ hmem) (lt_irrefl _)
    · obtain ⟨hlt, hunpooled, hunheld, hmanaged⟩ := hset.pending k node' id hold
      refine ⟨?_, hunpooled, hunheld, hmanaged⟩
      rw [List.length_append]
      exact Nat.lt_add_right _ hlt
  · intro k l node' node'' id hk hl
    rcases hconnecting k node' id hk with ⟨rfl, -, rfl⟩ | hkold
    · rcases hconnecting l node'' _ hl with ⟨rfl, -, -⟩ | hlold
      · rfl
      · exact absurd (h.pending l node'' _ hlold).lt (lt_irrefl _)
    · rcases hconnecting l node'' id hl with ⟨rfl, -, rfl⟩ | hlold
      · exact absurd (h.pending k node' _ hkold).lt (lt_irrefl _)
      · exact h.pending_unique k l node' node'' id hkold hlold

/-- A new spawn loop that has not chosen a node yet. -/
theorem pushSpawn (h : p.Sound P nodeConfiguration) :
    ({ p with
      connectingCount := p.connectingCount + 1
      spawns := p.spawns ++ [⟨0, .choosing⟩] } : ConnectionPool).Sound P nodeConfiguration := by
  have hold : ∀ i node id, IsConnecting { p with
      connectingCount := p.connectingCount + 1
      spawns := p.spawns ++ [⟨0, .choosing⟩] } i node id → p.IsConnecting i node id := by
    rintro i node id ⟨count, hspawn⟩
    rw [List.getElem?_append] at hspawn
    split at hspawn
    · exact ⟨count, hspawn⟩
    · rw [List.getElem?_singleton] at hspawn
      split at hspawn
      · cases hspawn
      · cases hspawn
  refine { h with pending := ?_, pending_unique := ?_ }
  · intro i node id hspawn
    exact { h.pending i node id (hold i node id hspawn) with }
  · intro i j node node' id hi hj
    exact h.pending_unique i j node node' id (hold i node id hi) (hold j node' id hj)

/-- Starting a spawn loop. -/
theorem spawnConnection (h : p.Sound P nodeConfiguration) :
    (p.spawnConnection nodeConfiguration).Sound P nodeConfiguration :=
  h.pushSpawn.chooseNode _ _

/-- The failure of an attempt moves the loop on or ends it. -/
theorem connectFailed (h : p.Sound P nodeConfiguration) (i count node : Nat) (ex : Exception) :
    (p.connectFailed i count node ex).Sound P nodeConfiguration := by
  rw [ConnectionPool.connectFailed]
  split
  next c hreport =>
    obtain ⟨hwell, hnodes⟩ := NodeCollectionImpl.call_spec (.reportFailure node)
      h.collection (by rw [NodeCollectionImpl.call, hreport]; rfl)
    have hset := h.setCollection hwell hnodes
    split
    · exact (hset.setSpawn i ⟨count + 1, .finishing⟩ (by simp)).frame rfl
    · exact hset.setSpawn i ⟨count + 1, .choosing⟩ (by simp)
  · exact h.setSpawn i ⟨count, .finishing⟩ (by simp)

/-- A connected spawn loop puts its connection into the pool and feeds the waiters. -/
theorem connected (h : p.Sound P nodeConfiguration)
    (hP : ∀ delivery : Delivery, delivery.isReady = true → delivery.IsUnowned → P delivery)
    (count : Nat) (hspawn : p.IsConnecting i node id) :
    (p.connected i count node id).Sound P nodeConfiguration := by
  have hready := h.setReady id true
  rw [ConnectionPool.connected]
  split
  next c hreport =>
    obtain ⟨hwell, hnodes⟩ := NodeCollectionImpl.call_spec (.reportSuccess node)
      h.collection (by rw [NodeCollectionImpl.call, hreport]; rfl)
    have hset := (hready.setCollection hwell hnodes).setSpawn i ⟨count, .finishing⟩ (by simp)
    refine feedWaiters ?_ hP
    refine { hset with pool_lt := ?_, pending := ?_ }
    · intro other hmem
      rcases List.mem_append.mp hmem with hold | hnew
      · exact hset.pool_lt other hold
      · rw [List.mem_singleton.mp hnew]
        exact (hready.pending i node id hspawn).lt
    · intro j node' other hother
      refine { hset.pending j node' other hother with unpooled := fun hmem => ?_ }
      rcases List.mem_append.mp hmem with hold | hnew
      · exact (hset.pending j node' other hother).unpooled hold
      · -- the loop that had this connection no longer waits for it
        obtain ⟨count', hj⟩ := hother
        rw [List.getElem?_set] at hj
        split at hj
        · split at hj
          · cases hj
          · cases hj
        next hne =>
          rw [List.mem_singleton.mp hnew] at hj
          exact hne (h.pending_unique i j node node' id hspawn ⟨count', hj⟩)
  · exact hready.connectFailed i count node _

theorem addWaiter (h : p.Sound P nodeConfiguration) (caller : Nat) :
    (p.addWaiter caller).Sound P nodeConfiguration := by
  rw [ConnectionPool.addWaiter]
  split
  · exact h.frame rfl
  · exact h.frame rfl

theorem findIdleConnectionTimer (h : p.Sound P nodeConfiguration) :
    p.findIdleConnectionTimer.Sound P nodeConfiguration := by
  rw [ConnectionPool.findIdleConnectionTimer]
  split
  · exact h.frame rfl
  · exact h

theorem dropIdleConnectionTimer (h : p.Sound P nodeConfiguration) :
    p.dropIdleConnectionTimer.Sound P nodeConfiguration := by
  rw [ConnectionPool.dropIdleConnectionTimer]
  split
  · exact h.frame rfl
  · exact h

theorem getConnection (h : p.Sound P nodeConfiguration)
    (hP : ∀ delivery : Delivery, delivery.isReady = true → delivery.IsUnowned → P delivery) :
    (p.getConnection nodeConfiguration config).Sound P nodeConfiguration := by
  have hcounted : ({ p with nextCaller := p.nextCaller + 1 } : ConnectionPool).Sound P
      nodeConfiguration := h.frame rfl
  simp only [ConnectionPool.getConnection]
  split
  · split
    · exact (hcounted.addWaiter _).spawnConnection
    · exact (hcounted.addWaiter _).findIdleConnectionTimer
  · have hlookup := tryGetConnection_spec { p with nextCaller := p.nextCaller + 1 }
    split
    next id stream found hfound =>
      rw [hfound] at hlookup
      exact hcounted.lookup hP _ hlookup
    next searched hsearched =>
      rw [hsearched] at hlookup
      have hmissing := hcounted.lookup_missing hlookup
      split
      · exact hmissing.frame rfl
      · split
        · exact (hmissing.addWaiter _).spawnConnection.dropIdleConnectionTimer
        · exact (hmissing.addWaiter _).findIdleConnectionTimer

theorem findIdleTick (h : p.Sound P nodeConfiguration)
    (hP : ∀ delivery : Delivery, delivery.isReady = true → delivery.IsUnowned → P delivery) :
    (p.findIdleTick nodeConfiguration config).Sound P nodeConfiguration := by
  have hfed := h.feedWaiters hP
  simp only [ConnectionPool.findIdleTick]
  split
  · exact hfed.frame rfl
  · split
    · exact hfed.spawnConnection
    · exact hfed

theorem findIdleFinally (h : p.Sound P nodeConfiguration) :
    p.findIdleFinally.Sound P nodeConfiguration := by
  have hoff : ({ p with findIdleTimer := .off } : ConnectionPool).Sound P nodeConfiguration :=
    h.frame rfl
  simp only [ConnectionPool.findIdleFinally]
  split
  · exact hoff
  · exact hoff.findIdleConnectionTimer

theorem dropIdleTick (h : p.Sound P nodeConfiguration) :
    (p.dropIdleTick nodeConfiguration config).Sound P nodeConfiguration := by
  simp only [ConnectionPool.dropIdleTick]
  split
  · exact h.frame rfl
  · exact (h.sweep (removeIdle_sublist _ _)).frame rfl

/-- A step keeps the invariant, provided that what `returnConnection` may hand out
satisfies the condition on deliveries. -/
theorem step (h : p.Sound P nodeConfiguration)
    (hP : ∀ delivery : Delivery, delivery.isReady = true → delivery.IsUnowned → P delivery)
    {event : Event}
    (hreturn : ∀ id stream, event = .returnConnection id stream → p.waiters ≠ [] →
      ∀ caller s, 0 < s → P ⟨caller, id, s, p.isReady id, false⟩)
    (hstep : ConnectionPool.step nodeConfiguration config p event = some q) :
    q.Sound P nodeConfiguration := by
  cases stepTo hstep with
  | getConnection => exact h.getConnection hP
  | returnConnection held => exact h.returnConnection held (hreturn _ _ rfl)
  | releaseStream held => exact h.closeStream held
  | closeConnection => exact h.setReady _ false
  | spawnChoose spawn => exact h.chooseNode _ _
  | spawnConnected spawn => exact h.connected hP _ ⟨_, spawn⟩
  | spawnConnectFailed spawn => exact h.connectFailed _ _ _ _
  | @spawnFinally i count spawn =>
    have hset := h.setSpawn i ⟨count, .finished⟩ (by simp)
    exact hset.frame rfl
  | findIdleTick sleeping => exact h.findIdleTick hP
  | findIdleFinally stopping => exact h.findIdleFinally
  | dropIdleTick sleeping => exact h.dropIdleTick
  | dropIdleFinally stopping => exact h.frame rfl
  | otherPool called =>
    obtain ⟨hwell, hnodes⟩ := NodeCollectionImpl.call_spec _ h.collection called
    exact h.setCollection hwell hnodes

/-- A new pool satisfies the invariant. -/
theorem of_start (h : (system nodeConfiguration config).start p) : p.Sound P nodeConfiguration := by
  obtain ⟨c, hc, rfl⟩ := h
  refine ⟨?_, ?_, ?_, ?_, ?_, NodeCollectionImpl.wellFormed_of_reachable hc, ?_⟩
  · rintro id connection ⟨⟩
  · rintro id stream ⟨⟩
  · rintro id ⟨⟩
  · rintro i node id ⟨count, ⟨⟩⟩
  · rintro i j node node' id ⟨count, ⟨⟩⟩
  · rintro delivery ⟨⟩

end Sound

end ConnectionPool

end CqlDriver
