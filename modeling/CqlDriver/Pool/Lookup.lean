import CqlDriver.Pool.ConnectionPool

/-!
# Finding a connection and feeding the waiters

`tryGetConnection` erases closed connections until the one with the most free
streams is a ready one. `Lookup` states what a search returns and what it leaves,
and `feedWaiters` is a sequence of such searches, so that a property of the pool
survives it as soon as it survives one search and one delivery.

## Main definitions

* `ConnectionPool.Swept` — a pool from which only closed connections are missing
* `ConnectionPool.Lookup` — the outcomes of a search

## Main results

* `ConnectionPool.tryGetConnection_spec` — every search is a `Lookup`
* `ConnectionPool.tryGetConnection_complete` — a search finds what there is
* `ConnectionPool.feedWaiters_induction` — the rule for `feedWaiters`
* `ConnectionPool.feedWaiters_serves` — with a ready connection that has a free
  stream, `feedWaiters` serves somebody if there is anybody
-/

namespace CqlDriver.ConnectionPool

variable {p q : ConnectionPool} {pool : List Nat} {id stream : Nat}

/-- `pool` is what is left after erasing some closed connections. -/
structure Swept (p : ConnectionPool) (pool : List Nat) : Prop where
  sublist : pool.Sublist p.allConnections
  closed : ∀ id ∈ p.allConnections, id ∈ pool ∨ p.isReady id = false

theorem Swept.refl (p : ConnectionPool) : p.Swept p.allConnections :=
  ⟨.refl _, fun _ hid => .inl hid⟩

theorem Swept.trans {rest : List Nat} (h : p.Swept pool)
    (hrest : ({ p with allConnections := pool } : ConnectionPool).Swept rest) : p.Swept rest := by
  refine ⟨hrest.sublist.trans h.sublist, fun id hid => ?_⟩
  rcases h.closed id hid with hmem | hclosed
  · exact hrest.closed id hmem
  · exact .inr hclosed

theorem swept_erase (hclosed : p.isReady id = false) : p.Swept (p.allConnections.erase id) := by
  refine ⟨List.erase_sublist, fun other hother => ?_⟩
  by_cases heq : other = id
  · exact .inr (heq ▸ hclosed)
  · exact .inl ((List.mem_erase_of_ne heq).mpr hother)

/-- What a search returns and leaves: a stream of the ready connection with the
most free streams, or nothing when no connection that is left has a free one. -/
inductive Lookup (p : ConnectionPool) : Option (Nat × Nat) × ConnectionPool → Prop
  | found {pool : List Nat} {id stream : Nat} {rest : List Nat} {connection : Connection}
      (swept : p.Swept pool) (mem : id ∈ pool) (ready : p.isReady id = true)
      (most : ∀ other ∈ pool, p.getFreeStreamsCount other ≤ p.getFreeStreamsCount id)
      (heap : p.connections[id]? = some connection)
      (free : connection.freeStreamIds = stream :: rest) :
      Lookup p (some (id, stream),
        { p with
          allConnections := pool
          connections := p.connections.set id { connection with freeStreamIds := rest } })
  | missing {pool : List Nat} (swept : p.Swept pool)
      (busy : ∀ id ∈ pool, p.getFreeStreamsCount id = 0)
      (stopped : pool = [] ∨ ∃ id ∈ pool, p.isReady id = true) :
      Lookup p (none, { p with allConnections := pool })

theorem exists_connection_of_isReady (h : p.isReady id = true) :
    ∃ connection, p.connections[id]? = some connection := by
  rw [isReady] at h
  split at h
  · exact ⟨_, by assumption⟩
  · cases h

/-- A search after some closed connections have been erased is a search. -/
theorem Lookup.of_swept {result : Option (Nat × Nat) × ConnectionPool} (h : p.Swept pool)
    (hlookup : ({ p with allConnections := pool } : ConnectionPool).Lookup result) :
    p.Lookup result := by
  cases hlookup with
  | found swept mem ready most heap free => exact .found (h.trans swept) mem ready most heap free
  | missing swept busy stopped => exact .missing (h.trans swept) busy stopped

theorem tryGetConnectionLoop_spec {k : Nat} (hk : p.allConnections.length < k) :
    p.Lookup (tryGetConnectionLoop k p) := by
  induction k generalizing p with
  | zero => exact absurd hk (Nat.not_lt_zero _)
  | succ k ih =>
    rw [tryGetConnectionLoop]
    split
    next hnone =>
      have hnil := List.argmax_eq_none.mp hnone
      exact .missing (Swept.refl p) (by simp [hnil]) (.inl hnil)
    next id hsome =>
      have hmem := List.argmax_mem hsome
      have hmost : ∀ other ∈ p.allConnections,
          p.getFreeStreamsCount other ≤ p.getFreeStreamsCount id :=
        fun other hother => List.le_of_mem_argmax hother hsome
      split
      next hready =>
        obtain ⟨connection, hheap⟩ := exists_connection_of_isReady hready
        cases hfree : connection.freeStreamIds with
        | nil =>
          -- the largest count is zero
          have hzero : p.getFreeStreamsCount id = 0 := by
            simp [getFreeStreamsCount, hheap, Connection.getFreeStreamsCount, hfree]
          have hopen : p.openStream id =
              (none, { p with connections := p.connections.set id connection }) := by
            simp [openStream, hheap, Connection.openStream, hfree]
          rw [hopen]
          exact .missing (Swept.refl p)
            (fun other hother => Nat.le_zero.mp (hzero ▸ hmost other hother))
            (.inr ⟨id, hmem, hready⟩)
        | cons stream rest =>
          have hopen : p.openStream id = (some stream, { p with
              connections := p.connections.set id { connection with freeStreamIds := rest } }) := by
            simp [openStream, hheap, Connection.openStream, hfree]
          rw [hopen]
          exact .found (Swept.refl p) hmem hready hmost hheap hfree
      next hclosed =>
        have hlength : (p.allConnections.erase id).length < k := by
          have hpos := List.length_pos_of_mem hmem
          rw [List.length_erase_of_mem hmem]
          omega
        exact (ih (p := { p with allConnections := p.allConnections.erase id }) hlength).of_swept
          (swept_erase (Bool.eq_false_iff.mpr hclosed))

/-- Every search ends in one of the two outcomes. -/
theorem tryGetConnection_spec (p : ConnectionPool) : p.Lookup p.tryGetConnection :=
  tryGetConnectionLoop_spec (Nat.lt_succ_self _)

/-- A search in vain means that no ready connection has a free stream. -/
theorem Lookup.not_free {q : ConnectionPool} (h : p.Lookup (none, q))
    (hmem : id ∈ p.allConnections) (hready : p.isReady id = true) :
    p.getFreeStreamsCount id = 0 := by
  cases h with
  | missing swept busy _ =>
    rcases swept.closed id hmem with hleft | hclosed
    · exact busy id hleft
    · rw [hready] at hclosed
      cases hclosed

/-! ## What a search finds -/

/-- More iterations than connections are enough. -/
theorem tryGetConnectionLoop_congr {k j : Nat} (hk : p.allConnections.length < k)
    (hj : p.allConnections.length < j) : tryGetConnectionLoop k p = tryGetConnectionLoop j p := by
  induction k generalizing p j with
  | zero => exact absurd hk (Nat.not_lt_zero _)
  | succ k ih =>
    obtain ⟨j, rfl⟩ := Nat.exists_eq_succ_of_ne_zero (Nat.ne_zero_of_lt hj)
    rw [tryGetConnectionLoop, tryGetConnectionLoop]
    split
    · rfl
    next id hsome =>
      split
      · rfl
      · -- an iteration that goes on has erased a connection
        have hmem := List.argmax_mem hsome
        have hpos := List.length_pos_of_mem hmem
        have hlength := List.length_erase_of_mem hmem
        exact ih (p := { p with allConnections := p.allConnections.erase id })
          (by simp only [hlength]; omega) (by simp only [hlength]; omega)

theorem filter_isReady_erase (hclosed : p.isReady id = false) (pool : List Nat) :
    (pool.erase id).filter p.isReady = pool.filter p.isReady := by
  induction pool with
  | nil => rfl
  | cons first pool ih =>
    by_cases heq : first = id
    · rw [heq, List.erase_cons_head, List.filter_cons_of_neg (by simp [hclosed])]
    · rw [List.erase_cons_tail (by simpa using heq), List.filter_cons, List.filter_cons, ih]

theorem tryGetConnectionLoop_filter (k : Nat) (p : ConnectionPool) :
    (tryGetConnectionLoop k p).2.allConnections.filter p.isReady =
      p.allConnections.filter p.isReady := by
  induction k generalizing p with
  | zero => rfl
  | succ k ih =>
    rw [tryGetConnectionLoop]
    split
    · rfl
    next id hsome =>
      split
      · have hopen : ∀ stream opened, p.openStream id = (some stream, opened) →
            opened.allConnections = p.allConnections := by
          intro stream opened hopened
          rw [openStream] at hopened
          split at hopened
          · obtain ⟨-, rfl⟩ := Prod.mk.inj hopened
            rfl
          · cases hopened
        split
        next stream opened hopened => rw [hopen stream opened hopened]
        · rfl
      next hclosed =>
        have hlater := ih { p with allConnections := p.allConnections.erase id }
        exact hlater.trans (filter_isReady_erase (Bool.eq_false_iff.mpr hclosed) _)

/-- What a search owes to its callers. -/
structure Complete (p : ConnectionPool) (result : Option (Nat × Nat) × ConnectionPool) : Prop where
  found_iff : (∃ found, result.1 = some found) ↔
    ∃ id ∈ p.allConnections, p.isReady id = true ∧ 0 < p.getFreeStreamsCount id
  ready : ∀ id stream, result.1 = some (id, stream) → id ∈ p.allConnections ∧ p.isReady id = true
  most : ∀ id stream, result.1 = some (id, stream) → ∀ other ∈ p.allConnections,
    p.isReady other = true → p.getFreeStreamsCount other ≤ p.getFreeStreamsCount id
  free : ∀ id stream, result.1 = some (id, stream) →
    ∃ connection, p.connections[id]? = some connection ∧ stream ∈ connection.freeStreamIds
  sublist : result.2.allConnections.Sublist p.allConnections
  removed : result.2.allConnections.filter p.isReady = p.allConnections.filter p.isReady

theorem Lookup.complete {result : Option (Nat × Nat) × ConnectionPool} (h : p.Lookup result)
    (hremoved : result.2.allConnections.filter p.isReady = p.allConnections.filter p.isReady) :
    p.Complete result := by
  cases h with
  | @found pool id stream rest connection swept mem ready most heap free =>
    have hpositive : 0 < p.getFreeStreamsCount id := by
      simp [getFreeStreamsCount, heap, Connection.getFreeStreamsCount, free]
    refine ⟨⟨fun _ => ⟨id, swept.sublist.subset mem, ready, hpositive⟩, fun _ => ⟨_, rfl⟩⟩,
      ?_, ?_, ?_, swept.sublist, hremoved⟩
    · rintro _ _ ⟨⟩
      exact ⟨swept.sublist.subset mem, ready⟩
    · rintro _ _ ⟨⟩ other hother hready
      rcases swept.closed other hother with hleft | hclosed
      · exact most other hleft
      · rw [hready] at hclosed
        cases hclosed
    · rintro _ _ ⟨⟩
      exact ⟨connection, heap, free ▸ List.mem_cons_self⟩
  | @missing pool swept busy stopped =>
    have hnone : ∀ id stream, (none : Option (Nat × Nat)) ≠ some (id, stream) := by
      rintro _ _ ⟨⟩
    refine ⟨⟨?_, ?_⟩, fun id stream h => absurd h (hnone id stream),
      fun id stream h => absurd h (hnone id stream), fun id stream h => absurd h (hnone id stream),
      swept.sublist, hremoved⟩
    · rintro ⟨found, ⟨⟩⟩
    · rintro ⟨id, hmem, hready, hfree⟩
      have hzero := (Lookup.missing swept busy stopped).not_free hmem hready
      exact absurd hzero (Nat.ne_of_gt hfree)

/-- A search ends, and finds a stream of the ready connection with the most free ones whenever
there is one. -/
theorem tryGetConnection_complete (p : ConnectionPool) :
    p.Complete p.tryGetConnection ∧
      ∀ k, p.allConnections.length < k → tryGetConnectionLoop k p = p.tryGetConnection :=
  ⟨(tryGetConnection_spec p).complete (tryGetConnectionLoop_filter _ p),
    fun _ hk => tryGetConnectionLoop_congr hk (Nat.lt_succ_self _)⟩

/-! ## Feeding -/

private theorem feedWaitersLoop_induction (motive : ConnectionPool → Prop)
    (missing : ∀ p q, motive p → p.Lookup (none, q) → motive q)
    (served : ∀ p q caller rest id stream, motive p → p.waiters = caller :: rest →
      p.Lookup (some (id, stream), q) →
        motive (({ q with waiters := rest } : ConnectionPool).deliver caller id stream))
    (k : Nat) (h : motive p) : motive (feedWaitersLoop k p) := by
  induction k generalizing p with
  | zero => exact h
  | succ k ih =>
    rw [feedWaitersLoop]
    split
    · exact h
    next caller rest hwaiters =>
      have hlookup := tryGetConnection_spec p
      split
      next id stream found hfound =>
        rw [hfound] at hlookup
        exact ih (served p found caller rest id stream h hwaiters hlookup)
      next searched hsearched =>
        rw [hsearched] at hlookup
        exact missing p searched h hlookup

/-- What survives a search in vain and a search followed by its delivery to the
first waiter survives `feedWaiters`. -/
theorem feedWaiters_induction (motive : ConnectionPool → Prop)
    (missing : ∀ p q, motive p → p.Lookup (none, q) → motive q)
    (served : ∀ p q caller rest id stream, motive p → p.waiters = caller :: rest →
      p.Lookup (some (id, stream), q) →
        motive (({ q with waiters := rest } : ConnectionPool).deliver caller id stream))
    (h : motive p) : motive p.feedWaiters :=
  feedWaitersLoop_induction motive missing served p.waiters.length h

@[simp] theorem deliver_waiters (caller : Nat) :
    (p.deliver caller id stream).waiters = p.waiters := rfl

@[simp] theorem deliver_deliveries_length (caller : Nat) :
    (p.deliver caller id stream).deliveries.length = p.deliveries.length + 1 := rfl

/-- The fields of the pool that only timers, spawn loops and `getConnection` write. -/
structure SameLoops (p q : ConnectionPool) : Prop where
  findIdleTimer : q.findIdleTimer = p.findIdleTimer
  dropIdleTimer : q.dropIdleTimer = p.dropIdleTimer
  spawns : q.spawns = p.spawns
  connectingCount : q.connectingCount = p.connectingCount
  nodeCollection : q.nodeCollection = p.nodeCollection

theorem Lookup.sameLoops {result : Option (Nat × Nat) × ConnectionPool} (h : p.Lookup result) :
    p.SameLoops result.2 := by
  cases h <;> exact ⟨rfl, rfl, rfl, rfl, rfl⟩

theorem Lookup.waiters_eq {result : Option (Nat × Nat) × ConnectionPool} (h : p.Lookup result) :
    result.2.waiters = p.waiters := by
  cases h <;> rfl

theorem Lookup.deliveries_eq {result : Option (Nat × Nat) × ConnectionPool} (h : p.Lookup result) :
    result.2.deliveries = p.deliveries := by
  cases h <;> rfl

theorem SameLoops.trans {r : ConnectionPool} (h : p.SameLoops q) (h' : q.SameLoops r) :
    p.SameLoops r :=
  ⟨h'.1.trans h.1, h'.2.trans h.2, h'.3.trans h.3, h'.4.trans h.4, h'.5.trans h.5⟩

theorem feedWaiters_sameLoops (p : ConnectionPool) : p.SameLoops p.feedWaiters := by
  refine feedWaiters_induction (fun q => p.SameLoops q) ?_ ?_ ⟨rfl, rfl, rfl, rfl, rfl⟩
  · exact fun r q h hlookup => h.trans hlookup.sameLoops
  · intro r q caller rest id stream h _ hlookup
    have hsame := h.trans hlookup.sameLoops
    exact ⟨hsame.1, hsame.2, hsame.3, hsame.4, hsame.5⟩

/-- Every waiter that is gone was served: `feedWaiters` moves callers from the
queue to the deliveries. -/
theorem feedWaiters_moves (p : ConnectionPool) :
    p.feedWaiters.waiters.length + p.feedWaiters.deliveries.length =
      p.waiters.length + p.deliveries.length := by
  refine feedWaiters_induction
    (fun q => q.waiters.length + q.deliveries.length = p.waiters.length + p.deliveries.length)
    ?_ ?_ rfl
  · intro r q h hlookup
    have hwaiters := hlookup.waiters_eq
    have hdeliveries := hlookup.deliveries_eq
    rw [hwaiters, hdeliveries]
    exact h
  · intro r q caller rest id stream h hr hlookup
    have hdeliveries : q.deliveries = r.deliveries := hlookup.deliveries_eq
    rw [hr, List.length_cons] at h
    simp only [deliver_waiters, deliver_deliveries_length, hdeliveries]
    omega

/-- Some connection of the pool is ready. -/
def HasReady (p : ConnectionPool) : Prop := ∃ id ∈ p.allConnections, p.isReady id = true

theorem Lookup.hasReady {q : ConnectionPool} (h : p.Lookup (some (id, stream), q)) :
    p.HasReady := by
  cases h with
  | found swept mem ready _ _ _ => exact ⟨id, swept.sublist.subset mem, ready⟩

/-- With somebody waiting, `feedWaiters` serves somebody or is one search in vain. -/
theorem feedWaiters_cases (h : p.waiters ≠ []) :
    (p.HasReady ∧ p.deliveries.length < p.feedWaiters.deliveries.length) ∨
      p.Lookup (none, p.feedWaiters) := by
  obtain ⟨caller, rest, hwaiters⟩ := List.exists_cons_of_ne_nil h
  rw [feedWaiters, hwaiters, List.length_cons, feedWaitersLoop, hwaiters]
  have hlookup := tryGetConnection_spec p
  rcases hresult : p.tryGetConnection with ⟨_ | ⟨id, stream⟩, q⟩
  · rw [hresult] at hlookup
    exact .inr hlookup
  · left
    rw [hresult] at hlookup
    have hdeliveries : q.deliveries = p.deliveries := hlookup.deliveries_eq
    refine ⟨hlookup.hasReady, ?_⟩
    -- the rest of the loop only adds deliveries
    refine feedWaitersLoop_induction (fun r => p.deliveries.length < r.deliveries.length) ?_ ?_ _ ?_
    · intro r r' hr hsearch
      rwa [hsearch.deliveries_eq]
    · intro r r' caller rest id stream hr _ hsearch
      have hsame : r'.deliveries = r.deliveries := hsearch.deliveries_eq
      rw [deliver_deliveries_length, hsame]
      exact Nat.lt_succ_of_lt hr
    · rw [deliver_deliveries_length, hdeliveries]
      exact Nat.lt_succ_self _

/-- While a ready connection of the pool has a free stream, `feedWaiters` serves
somebody if anybody waits. -/
theorem feedWaiters_serves (h : p.waiters ≠ []) (hmem : id ∈ p.allConnections)
    (hready : p.isReady id = true) (hfree : 0 < p.getFreeStreamsCount id) :
    p.feedWaiters.waiters.length < p.waiters.length := by
  have hmoves := feedWaiters_moves p
  rcases feedWaiters_cases h with ⟨-, hserved⟩ | hmissing
  · omega
  · exact absurd (hmissing.not_free hmem hready) (Nat.ne_of_gt hfree)

/-- Searches and deliveries do not touch the ready flags. -/
theorem Lookup.isReady_eq {result : Option (Nat × Nat) × ConnectionPool} (h : p.Lookup result)
    (other : Nat) : result.2.isReady other = p.isReady other := by
  cases h with
  | @found pool id stream rest connection swept mem ready most heap free =>
    obtain ⟨hlt, hget⟩ := List.getElem?_eq_some_iff.mp heap
    simp only [isReady, List.getElem?_set]
    by_cases heq : id = other
    · subst heq
      simp [hlt, hget]
    · rw [if_neg heq]
  | missing => rfl

theorem Lookup.mem_of_isReady {result : Option (Nat × Nat) × ConnectionPool}
    (h : p.Lookup result) (hmem : id ∈ p.allConnections) (hready : p.isReady id = true) :
    id ∈ result.2.allConnections := by
  have stays : ∀ {pool : List Nat}, p.Swept pool → id ∈ pool := by
    intro pool hswept
    refine (hswept.closed id hmem).resolve_right ?_
    rw [hready]
    exact Bool.noConfusion
  cases h with
  | found swept _ _ _ _ _ => exact stays swept
  | missing swept _ _ => exact stays swept

/-- `feedWaiters` keeps the ready connections of the pool. -/
theorem feedWaiters_keeps_ready (hmem : id ∈ p.allConnections) (hready : p.isReady id = true) :
    id ∈ p.feedWaiters.allConnections ∧ p.feedWaiters.isReady id = true := by
  refine feedWaiters_induction (fun q => id ∈ q.allConnections ∧ q.isReady id = true) ?_ ?_
    ⟨hmem, hready⟩
  · intro q r hq hlookup
    exact ⟨hlookup.mem_of_isReady hq.1 hq.2, (hlookup.isReady_eq id).trans hq.2⟩
  · intro q r caller rest other stream hq _ hlookup
    exact ⟨hlookup.mem_of_isReady hq.1 hq.2, (hlookup.isReady_eq id).trans hq.2⟩

theorem feedWaiters_of_nil (h : p.waiters = []) : p.feedWaiters = p := by
  rw [feedWaiters, h]
  rfl

end CqlDriver.ConnectionPool
