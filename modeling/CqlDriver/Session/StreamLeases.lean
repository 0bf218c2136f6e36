import CqlDriver.Math.Lists
import CqlDriver.Pool.HandedOut
import CqlDriver.Session.SessionCall

/-!
# The streams of session calls

The calls of a session share its pool. A call takes a connection and a stream from the
pool for each attempt, and the `finally` of the attempt gives them back, whatever has
happened in between. The variables that hold them belong to the call and are used again
by the next attempt.

Between the moment the pool resolves the promise of a caller and the continuation that
stores the stream, the stream is in the resolved promise: `ready` is the list of those.

## Main definitions

* `SessionCalls` — the pool and the calls of a session
* `SessionCalls.system` — all of them driven by events in any order
* `SessionCall.Leases` — what a call holds is what it obtained and has not released
* `SessionCalls.StreamsReturned` — what holds of all streams of all calls

## Main results

* `SessionCalls.streamsReturned` — every stream a call obtained is released exactly once
-/

namespace CqlDriver

/-! ## One call -/

namespace CallPhase

instance : DecidablePred IsOpen
  | .preparing | .prepareSending _ | .prepareWaiting _ _ | .sending | .waiting =>
    inferInstanceAs (Decidable True)
  | .starting | .connecting | .finishing _ | .resolved _ => inferInstanceAs (Decidable False)

/-- No attempt is in progress that could hold a stream. -/
def IsUnleased : CallPhase → Prop
  | .starting | .connecting | .resolved _ => True
  | .preparing | .prepareSending _ | .prepareWaiting _ _ | .sending | .waiting | .finishing _ =>
    False

theorem IsOpen.not_isUnleased {phase : CallPhase} (h : phase.IsOpen) : ¬ phase.IsUnleased := by
  cases phase with
  | starting | connecting | finishing | resolved => exact h.elim
  | preparing | prepareSending | prepareWaiting | sending | waiting => exact fun h => h

end CallPhase

namespace SessionCall

variable {κ : Type} {c d : SessionCall κ}

/-- What a call holds is what it obtained and has not released. -/
structure Leases (c : SessionCall κ) : Prop where
  balance : c.obtained = c.released ++ c.stream.toList
  /-- A valid stream is a stream of the connection that is held. -/
  connection : ∀ stream, c.stream = some stream → c.connection = some stream.1
  unleased : c.phase.IsUnleased → c.stream = none

theorem Leases.of_sameAttempt (h : c.Leases) (hsame : SameAttempt c d)
    (hphase : ¬ d.phase.IsUnleased) : d.Leases where
  balance := by rw [hsame.obtained, hsame.released, hsame.stream, h.balance]
  connection := by rw [hsame.connection, hsame.stream]; exact h.connection
  unleased := fun hunleased => absurd hunleased hphase

theorem EndsWith.not_isUnleased {flow : RetryFlow} {attempt : AttemptEnd} {ex : CallError}
    (h : EndsWith c flow attempt ex d) : ¬ d.phase.IsUnleased := by
  rw [h.phase]
  exact fun h => h

/-- Nothing to return means nothing held. -/
theorem Leases.stream_eq_none (h : c.Leases) (hnothing : c.connection = none ∨ c.stream = none) :
    c.stream = none := by
  rcases hnothing with hconnection | hstream
  · cases hstream : c.stream with
    | none => rfl
    | some stream =>
      rw [h.connection stream hstream] at hconnection
      cases hconnection
  · exact hstream

theorem Leases.step (h : c.Leases) (hstep : c.StepTo d) : d.Leases := by
  cases hstep with
  | started hphase =>
    exact ⟨h.balance, h.connection, fun _ => h.unleased (by rw [hphase]; trivial)⟩
  | @connected connection stream hphase =>
    have hnone : c.stream = none := h.unleased (by rw [hphase]; trivial)
    have hbalance := h.balance
    rw [hnone, Option.toList_none, List.append_nil] at hbalance
    refine ⟨?_, ?_, fun h => h.elim⟩
    · rw [hnone, hbalance, Option.toList_none, List.append_nil]
      rfl
    · intro found hfound
      cases hfound
      rfl
  | goesOn hopen hgoes => exact h.of_sameAttempt hgoes.toSameAttempt hgoes.isOpen.not_isUnleased
  | ends hopen hends =>
    cases hends with
    | exception hends => exact h.of_sameAttempt hends.toSameAttempt hends.not_isUnleased
    | errorMessage hex hends => exact h.of_sameAttempt hends.toSameAttempt hends.not_isUnleased
    | unexpected hex hends => exact h.of_sameAttempt hends.toSameAttempt hends.not_isUnleased
    | success hsame hflow hphase =>
      refine h.of_sameAttempt hsame ?_
      rw [hphase]
      exact fun h => h
  | notConnected hphase => exact ⟨h.balance, h.connection, fun h => h.elim⟩
  | returned hphase hconnection hstream =>
    have hbalance := h.balance
    rw [hstream] at hbalance
    refine ⟨?_, fun _ hnone => (by cases hnone), fun _ => rfl⟩
    rw [hbalance]
    exact (List.append_nil _).symm
  | nothingToReturn hphase hnothing =>
    exact ⟨h.balance, h.connection, fun _ => h.stream_eq_none hnothing⟩

/-- Before the first attempt nothing is held. -/
theorem leases_of_new (hobtained : c.obtained = []) (hreleased : c.released = [])
    (hstream : c.stream = none) : c.Leases where
  balance := by rw [hobtained, hreleased, hstream]; rfl
  connection := by rw [hstream]; rintro stream ⟨⟩
  unleased := fun _ => hstream

/-- The `finally` of an attempt comes when it has ended. -/
theorem exists_finishing {moved : Bool} {writes : CacheWrites}
    (h : c.step (.finished moved) = some (d, writes)) :
    ∃ outcome, c.phase = .finishing outcome := by
  simp only [SessionCall.step] at h
  split at h
  next outcome hphase => exact ⟨outcome, hphase⟩
  · cases h

/-- An open attempt keeps its stream. -/
theorem stream_eq_of_isOpen (hopen : c.phase.IsOpen) (hstep : c.StepTo d) :
    d.stream = c.stream := by
  cases hstep with
  | started hphase | connected hphase | notConnected hphase | returned hphase
  | nothingToReturn hphase =>
    have hclosed : ¬ c.phase.IsOpen := by
      rw [hphase]
      exact fun h => h
    exact absurd hopen hclosed
  | goesOn _ hgoes => exact hgoes.stream
  | ends _ hends =>
    cases hends with
    | exception hends => exact hends.stream
    | errorMessage _ hends => exact hends.stream
    | unexpected _ hends => exact hends.stream
    | success hsame => exact hsame.stream

end SessionCall

/-! ## The calls and their pool -/

/-- A call with the caller id of its last `getConnection`. -/
structure PooledCall where
  call : SessionCall Nat
  caller : Nat
  deriving DecidableEq, Repr

/-- The calls of a session and the pool they share. -/
structure SessionCalls where
  pool : ConnectionPool
  /-- All calls so far; a call is named by its index. -/
  calls : List PooledCall
  /-- The promises that are resolved with a stream and whose continuations are pending. -/
  ready : List Delivery
  deriving DecidableEq, Repr

namespace SessionCalls

/-- The constructor of the pool, and no calls. -/
def create (nodeCollection : NodeCollectionImpl) : SessionCalls := ⟨.create nodeCollection, [], []⟩

/-- A step of the pool resolves the promises of its new deliveries. -/
def setPool (s : SessionCalls) (pool : ConnectionPool) : SessionCalls :=
  { s with
    pool
    ready := pool.deliveries.take (pool.deliveries.length - s.pool.deliveries.length) ++ s.ready }

/-- Rewrite one call. -/
def setCall (s : SessionCalls) (i : Nat) (c : PooledCall) : SessionCalls :=
  { s with calls := s.calls.set i c }

/-- `returnConnection` with the variables of a call, if it holds anything. -/
def returned (pool : ConnectionPool) (call : SessionCall Nat) : ConnectionPool :=
  match call.connection, call.stream with
  | some connection, some stream => pool.returnConnection connection stream.2
  | _, _ => pool

/-- The move assignment to the stream variable of a call closes the stream in it. -/
def closed (pool : ConnectionPool) (call : SessionCall Nat) : ConnectionPool :=
  match call.stream with
  | some stream => pool.closeStream stream.1 stream.2
  | none => pool

/-- What can happen next. -/
inductive Event
  | query (prepareAllQueries : Bool) (command : Option (Query × Nat))
  | execute (prepareAllQueries : Bool) (command : Option (Query × Nat))
  | batchExecute (prepareAllQueries : Bool) (command : Option CommandData)
  /-- The next attempt of a call starts with `getConnection`. -/
  | attempt (i : Nat)
  /-- The continuation of a resolved `getConnection` stores connection and stream. -/
  | connected (i : Nat)
  /-- `getConnection` has failed. -/
  | notConnected (i : Nat) (ex : Exception)
  /-- A call goes on after its `getConnection`, with any outcome. -/
  | proceed (i : Nat) (event : SessionCall.Event Nat)
  /-- The `finally` of an attempt. -/
  | finished (i : Nat)
  /-- A step of the pool that no call takes part in. -/
  | internal (event : ConnectionPool.Event)

variable (nodeConfiguration : Nat → NodeConfiguration) (config : SessionConfiguration)

/-- One event-loop task. -/
def step (s : SessionCalls) : Event → Option SessionCalls
  | .query prepareAllQueries command =>
    some { s with calls := s.calls ++ [⟨Session.query prepareAllQueries command, 0⟩] }
  | .execute prepareAllQueries command =>
    some { s with calls := s.calls ++ [⟨Session.execute prepareAllQueries command, 0⟩] }
  | .batchExecute prepareAllQueries command =>
    some { s with calls := s.calls ++ [⟨Session.batchExecute prepareAllQueries command, 0⟩] }
  | .attempt i =>
    match s.calls[i]? with
    | some c =>
      (c.call.step .attempt).map fun result =>
        (s.setPool (s.pool.getConnection nodeConfiguration config)).setCall i
          ⟨result.1, s.pool.nextCaller⟩
    | none => none
  | .connected i =>
    match s.calls[i]? with
    | some c =>
      match s.ready.find? fun delivery => delivery.caller = c.caller with
      | some delivery =>
        (c.call.step (.connected delivery.connection delivery.stream)).map fun result =>
          { s with pool := closed s.pool c.call, ready := s.ready.erase delivery }.setCall i
            { c with call := result.1 }
      | none => none
    | none => none
  | .notConnected i ex =>
    match s.calls[i]? with
    | some c =>
      if c.call.phase = .connecting ∧ (c.caller, ex) ∈ s.pool.failures then
        (c.call.step (.failed ex)).map fun result => s.setCall i { c with call := result.1 }
      else
        none
    | none => none
  | .proceed i event =>
    match s.calls[i]? with
    | some c =>
      if c.call.phase.IsOpen then
        (c.call.step event).map fun result => s.setCall i { c with call := result.1 }
      else
        none
    | none => none
  | .finished i =>
    match s.calls[i]? with
    | some c =>
      -- the connection moves into the promise of the waiter that gets it
      (c.call.step (.finished (decide
        (s.pool.deliveries.length < (returned s.pool c.call).deliveries.length)))).map fun result =>
          (s.setPool (returned s.pool c.call)).setCall i { c with call := result.1 }
    | none => none
  | .internal event =>
    if event.IsInternal then
      (ConnectionPool.step nodeConfiguration config s.pool event).map s.setPool
    else
      none

/-- The calls of a session over a node collection that may have been used before. -/
def system : Math.TransitionSystem SessionCalls Event where
  start s := ∃ c, NodeCollectionImpl.system.Reachable c ∧ s = create c
  step := step nodeConfiguration config

/-! ## The invariant -/

variable {nodeConfiguration config} {s t : SessionCalls} {i : Nat} {c : PooledCall}

/-- The stream variables of the calls. -/
def streams (calls : List PooledCall) : List (Nat × Nat) := calls.filterMap fun c => c.call.stream

/-- Every call holds what it obtained and has not released, and the streams in use are
those that calls hold or have been promised. -/
structure Leased (s : SessionCalls) : Prop where
  leases : ∀ c ∈ s.calls, c.call.Leases
  inUse : (s.pool.held : Multiset (Nat × Nat)) = streams s.calls + s.ready.map Delivery.pair

theorem leases_set (h : s.Leased) {new : PooledCall} (hnew : new.call.Leases) :
    ∀ c ∈ s.calls.set i new, c.call.Leases := by
  intro c hc
  rcases List.mem_or_eq_of_mem_set hc with hold | rfl
  · exact h.leases c hold
  · exact hnew

theorem streams_set (h : s.calls[i]? = some c) (new : PooledCall) :
    (streams (s.calls.set i new) : Multiset (Nat × Nat)) + c.call.stream.toList =
      streams s.calls + new.call.stream.toList :=
  Math.filterMap_set_add new h

theorem streams_set_of_eq (h : s.calls[i]? = some c) {new : PooledCall}
    (hsame : new.call.stream = c.call.stream) :
    (streams (s.calls.set i new) : Multiset (Nat × Nat)) = streams s.calls := by
  have hset := streams_set h new
  rw [hsame] at hset
  exact add_right_cancel hset

/-- The deliveries of a step of the pool are the promises it resolves. -/
theorem setPool_inUse {pool : ConnectionPool} {held : Multiset (Nat × Nat)}
    (hbefore : ∃ before : ConnectionPool, before.HandsOut pool ∧ held = before.held ∧
      before.deliveries = s.pool.deliveries) :
    ((s.setPool pool).pool.held : Multiset (Nat × Nat)) + s.ready.map Delivery.pair =
      held + (s.setPool pool).ready.map Delivery.pair := by
  obtain ⟨before, ⟨new, hdeliveries, hheld⟩, rfl, hsame⟩ := hbefore
  have hready : (s.setPool pool).ready = new ++ s.ready := by
    rw [setPool, hdeliveries, hsame, List.length_append, Nat.add_sub_cancel, List.take_left]
  rw [hready, setPool, hheld, List.map_append, ← Multiset.coe_add, ← Multiset.coe_add]
  ac_rfl

/-- A new call holds nothing. -/
theorem Leased.addCall (h : s.Leased) {call : SessionCall Nat} (hobtained : call.obtained = [])
    (hreleased : call.released = []) (hstream : call.stream = none) :
    ({ s with calls := s.calls ++ [⟨call, 0⟩] } : SessionCalls).Leased where
  leases := by
    intro c hc
    rcases List.mem_append.mp hc with hold | hnew
    · exact h.leases c hold
    · rw [List.mem_singleton.mp hnew]
      exact SessionCall.leases_of_new hobtained hreleased hstream
  inUse := by
    have hstreams : streams (s.calls ++ [⟨call, 0⟩]) = streams s.calls := by
      simp [streams, hstream]
    rw [hstreams]
    exact h.inUse

/-- A step of a call that keeps its stream. -/
theorem Leased.setCall (h : s.Leased) (hc : s.calls[i]? = some c) {new : PooledCall}
    (hleases : new.call.Leases) (hsame : new.call.stream = c.call.stream) :
    (s.setCall i new).Leased where
  leases := leases_set h hleases
  inUse := by
    rw [SessionCalls.setCall, streams_set_of_eq hc hsame]
    exact h.inUse

/-- A step of the pool that closes nothing. -/
theorem Leased.setPool (h : s.Leased) {pool : ConnectionPool} (hhandsOut : s.pool.HandsOut pool) :
    (s.setPool pool).Leased where
  leases := h.leases
  inUse := by
    have hinUse := setPool_inUse ⟨s.pool, hhandsOut, rfl, rfl⟩
    rw [h.inUse, add_right_comm] at hinUse
    exact add_right_cancel hinUse

/-- The continuation of `getConnection` moves a stream from its promise to the call. -/
theorem Leased.connected (h : s.Leased) (hc : s.calls[i]? = some c) {delivery : Delivery}
    (hready : delivery ∈ s.ready) {call : SessionCall Nat} (hleases : call.Leases)
    (hnone : c.call.stream = none) (hstream : call.stream = some delivery.pair) :
    ({ s with pool := closed s.pool c.call, ready := s.ready.erase delivery }.setCall i
      { c with call }).Leased where
  leases := leases_set h hleases
  inUse := by
    have hset := streams_set hc { c with call }
    rw [hnone, hstream, Option.toList_none, Multiset.coe_nil, add_zero] at hset
    have herase : (s.ready.map Delivery.pair : Multiset (Nat × Nat)) =
        [delivery.pair] + (s.ready.erase delivery).map Delivery.pair :=
      Multiset.coe_eq_coe.mpr ((List.perm_cons_erase hready).map Delivery.pair)
    have hclosed : closed s.pool c.call = s.pool := by rw [closed, hnone]
    rw [hclosed]
    calc (s.pool.held : Multiset (Nat × Nat))
        = streams s.calls + s.ready.map Delivery.pair := h.inUse
      _ = streams s.calls + [delivery.pair] + (s.ready.erase delivery).map Delivery.pair := by
          rw [herase, add_assoc]
      _ = streams (s.calls.set i { c with call }) + (s.ready.erase delivery).map Delivery.pair := by
          rw [hset, Option.toList_some]

/-- The `finally` of an attempt releases the stream of the call, and the pool may hand one
out again. -/
theorem Leased.returned (h : s.Leased) (hc : s.calls[i]? = some c) {call : SessionCall Nat}
    {stream : Nat × Nat} (hleases : call.Leases) (hold : c.call.stream = some stream)
    (hnone : call.stream = none) :
    ((s.setPool (s.pool.returnConnection stream.1 stream.2)).setCall i { c with call }).Leased where
  leases := leases_set h hleases
  inUse := by
    have hset := streams_set hc { c with call }
    rw [hnone, hold, Option.toList_none, Multiset.coe_nil, add_zero] at hset
    have hmem : stream ∈ s.pool.held := by
      have hstreams : stream ∈ streams s.calls :=
        List.mem_filterMap.mpr ⟨c, List.mem_of_getElem? hc, hold⟩
      rw [← Multiset.mem_coe, h.inUse]
      exact Multiset.mem_add.mpr (.inl hstreams)
    have hclosed : (s.pool.held : Multiset (Nat × Nat)) =
        [stream] + (s.pool.closeStream stream.1 stream.2).held :=
      Multiset.coe_eq_coe.mpr (List.perm_cons_erase hmem)
    have hpool := setPool_inUse (s := s)
      ⟨_, (ConnectionPool.returnConnection_handsOut s.pool stream.1 stream.2).1, rfl, rfl⟩
    have hheld : ((s.pool.closeStream stream.1 stream.2).held : Multiset (Nat × Nat)) =
        streams (s.calls.set i { c with call }) + s.ready.map Delivery.pair := by
      have hinUse := h.inUse
      rw [hclosed, ← hset, Option.toList_some, add_right_comm, add_comm] at hinUse
      exact add_right_cancel hinUse
    rw [hheld, add_right_comm] at hpool
    exact add_right_cancel hpool

/-- A step keeps the invariant. -/
theorem Leased.step (h : s.Leased) {event : Event}
    (hstep : SessionCalls.step nodeConfiguration config s event = some t) : t.Leased := by
  cases event with
  | query prepareAllQueries command =>
    cases hstep
    cases command with
    | none | some => exact h.addCall rfl rfl rfl
  | execute prepareAllQueries command =>
    cases hstep
    cases command with
    | none | some => exact h.addCall rfl rfl rfl
  | batchExecute prepareAllQueries command =>
    cases hstep
    cases command with
    | none | some => exact h.addCall rfl rfl rfl
  | attempt i =>
    simp only [SessionCalls.step] at hstep
    split at hstep
    next c hc =>
      obtain ⟨⟨call, writes⟩, hcall, rfl⟩ := Option.map_eq_some_iff.mp hstep
      have hleases := (h.leases c (List.mem_of_getElem? hc)).step (SessionCall.stepTo hcall)
      have hsame : call.stream = c.call.stream := by
        simp only [SessionCall.step] at hcall
        split at hcall
        · cases hcall
          rfl
        · cases hcall
      exact (h.setPool (ConnectionPool.getConnection_handsOut _)).setCall hc hleases hsame
    · cases hstep
  | connected i =>
    simp only [SessionCalls.step] at hstep
    split at hstep
    next c hc =>
      split at hstep
      next delivery hfind =>
        obtain ⟨⟨call, writes⟩, hcall, rfl⟩ := Option.map_eq_some_iff.mp hstep
        have hbefore := h.leases c (List.mem_of_getElem? hc)
        have hleases := hbefore.step (SessionCall.stepTo hcall)
        simp only [SessionCall.step] at hcall
        split at hcall
        next hphase =>
          have hnone : c.call.stream = none := hbefore.unleased (by rw [hphase]; trivial)
          have hstream : call.stream = some delivery.pair := by
            cases hcall
            rfl
          exact h.connected hc (List.mem_of_find?_eq_some hfind) hleases hnone hstream
        · cases hcall
      · cases hstep
    · cases hstep
  | notConnected i ex =>
    simp only [SessionCalls.step] at hstep
    split at hstep
    next c hc =>
      split at hstep
      next hfailed =>
        obtain ⟨⟨call, writes⟩, hcall, rfl⟩ := Option.map_eq_some_iff.mp hstep
        have hleases := (h.leases c (List.mem_of_getElem? hc)).step (SessionCall.stepTo hcall)
        have hsame : call.stream = c.call.stream := by
          simp only [SessionCall.step, hfailed.1] at hcall
          cases hcall
          rfl
        exact h.setCall hc hleases hsame
      · cases hstep
    · cases hstep
  | proceed i event =>
    simp only [SessionCalls.step] at hstep
    split at hstep
    next c hc =>
      split at hstep
      next hopen =>
        obtain ⟨⟨call, writes⟩, hcall, rfl⟩ := Option.map_eq_some_iff.mp hstep
        have hto := SessionCall.stepTo hcall
        have hleases := (h.leases c (List.mem_of_getElem? hc)).step hto
        exact h.setCall hc hleases (SessionCall.stream_eq_of_isOpen hopen hto)
      · cases hstep
    · cases hstep
  | finished i =>
    simp only [SessionCalls.step] at hstep
    split at hstep
    next c hc =>
      obtain ⟨⟨call, writes⟩, hcall, rfl⟩ := Option.map_eq_some_iff.mp hstep
      have hbefore := h.leases c (List.mem_of_getElem? hc)
      have hleases := hbefore.step (SessionCall.stepTo hcall)
      simp only [SessionCall.step] at hcall
      split at hcall
      next next hphase =>
        split at hcall
        next connection stream hconnection hstream =>
          -- the stream belongs to the connection that is returned
          have hsame : stream.1 = connection :=
            Option.some.inj ((hbefore.connection stream hstream).symm.trans hconnection)
          have hreturned : SessionCalls.returned s.pool c.call =
              s.pool.returnConnection stream.1 stream.2 := by
            rw [SessionCalls.returned, hconnection, hstream, hsame]
          have hnone : call.stream = none := by
            cases hcall
            rfl
          rw [hreturned]
          exact h.returned hc hleases hstream hnone
        next hnothing =>
          have hreturned : SessionCalls.returned s.pool c.call = s.pool := by
            rw [SessionCalls.returned]
            split
            next connection stream hconnection hstream =>
              exact absurd hstream (hnothing connection stream hconnection)
            · rfl
          have hsame : call.stream = c.call.stream := by
            cases hcall
            rfl
          rw [hreturned]
          exact (h.setPool (.of_eq rfl rfl)).setCall hc hleases hsame
      · cases hcall
    · cases hstep
  | internal event =>
    simp only [SessionCalls.step, Option.ite_none_right_eq_some] at hstep
    obtain ⟨hinternal, hsome⟩ := hstep
    obtain ⟨pool, hpool, rfl⟩ := Option.map_eq_some_iff.mp hsome
    exact h.setPool (ConnectionPool.step_handsOut hinternal hpool)

theorem leased_of_reachable (h : (system nodeConfiguration config).Reachable s) : s.Leased := by
  refine Math.TransitionSystem.Reachable.invariant Leased ?_ (fun _ _ _ hs => hs.step) h
  rintro s ⟨c, -, rfl⟩
  exact ⟨fun c hc => (by cases hc), rfl⟩

/-! ## The contract -/

/-- No stream of a call is lost, and none is released twice. -/
structure StreamsReturned (s : SessionCalls) : Prop where
  /-- A resolved call has released what it obtained, each stream once. -/
  resolved : ∀ c ∈ s.calls, ∀ result, c.call.phase = .resolved result →
    c.call.released = c.call.obtained
  /-- An attempt starts without a stream, and so does the wait for its own one. -/
  between : ∀ c ∈ s.calls, c.call.phase = .starting ∨ c.call.phase = .connecting →
    c.call.stream = none ∧ c.call.released = c.call.obtained
  /-- The streams in use are those that calls hold and those in resolved promises. -/
  inUse : s.pool.held.Perm (streams s.calls ++ s.ready.map Delivery.pair)

/-- The `finally` of an attempt holds nothing, or releases its stream and hands its
connection to at most one waiter. -/
def HandsOn (s t : SessionCalls) (i : Nat) : Prop :=
  ∃ c, s.calls[i]? = some c ∧ ((c.call.stream = none ∧ t.pool = s.pool) ∨
    ∃ connection stream, c.call.connection = some connection ∧
      c.call.stream = some (connection, stream) ∧ s.pool.ServesOne t.pool connection)

theorem Leased.returnsStreams (h : s.Leased) : s.StreamsReturned := by
  have hunleased : ∀ c ∈ s.calls, c.call.phase.IsUnleased →
      c.call.stream = none ∧ c.call.released = c.call.obtained := by
    intro c hc hphase
    have hnone := (h.leases c hc).unleased hphase
    have hbalance := (h.leases c hc).balance
    rw [hnone, Option.toList_none, List.append_nil] at hbalance
    exact ⟨hnone, hbalance.symm⟩
  refine ⟨?_, ?_, Multiset.coe_eq_coe.mp h.inUse⟩
  · intro c hc result hphase
    exact (hunleased c hc (by rw [hphase]; trivial)).2
  · rintro c hc (hphase | hphase)
    · exact hunleased c hc (by rw [hphase]; trivial)
    · exact hunleased c hc (by rw [hphase]; trivial)

theorem Leased.handsOn (h : s.Leased)
    (hstep : SessionCalls.step nodeConfiguration config s (.finished i) = some t) :
    HandsOn s t i := by
  simp only [SessionCalls.step] at hstep
  split at hstep
  next c hc =>
    obtain ⟨⟨call, writes⟩, -, rfl⟩ := Option.map_eq_some_iff.mp hstep
    have hleases := h.leases c (List.mem_of_getElem? hc)
    refine ⟨c, hc, ?_⟩
    cases hstream : c.call.stream with
    | none =>
      refine .inl ⟨rfl, ?_⟩
      rw [SessionCalls.setCall, SessionCalls.setPool, SessionCalls.returned, hstream]
      split
      next hsome => cases hsome
      · rfl
    | some stream =>
      have hconnection := hleases.connection stream hstream
      refine .inr ⟨stream.1, stream.2, hconnection, rfl, ?_⟩
      rw [SessionCalls.setCall, SessionCalls.setPool, SessionCalls.returned, hconnection, hstream]
      exact (ConnectionPool.returnConnection_handsOut s.pool stream.1 stream.2).2
  · cases hstep

/-- In every run, and whatever the steps of the attempts meet: a call that is resolved has
released each of its streams exactly once, no attempt starts with a stream, and a release
hands the connection to at most one waiter. -/
theorem streamsReturned (h : (system nodeConfiguration config).Reachable s) :
    s.StreamsReturned ∧
      ∀ i t, SessionCalls.step nodeConfiguration config s (.finished i) = some t → HandsOn s t i :=
  ⟨(leased_of_reachable h).returnsStreams, fun _ _ => (leased_of_reachable h).handsOn⟩

/-- Two calls over one stream: the first is tried again after a failed send, and its
stream goes to the second, which was waiting for it, and then back to the first. -/
theorem streamsReturned_run :
    ∃ s, (system ConnectionPool.oneStream ⟨0, 1, 100⟩).Reachable s ∧
      s.calls.map (·.call.released) = [[(0, 1), (0, 1)], [(0, 1)]] ∧ s.StreamsReturned := by
  have hrun : ((system ConnectionPool.oneStream ⟨0, 1, 100⟩).run (create ConnectionPool.oneNode)
      [.query false (some (⟨[0x51], none⟩, 1)), .execute false (some (⟨[0x52], none⟩, 0)),
        .attempt 0, .internal (.spawnConnected 0), .internal (.spawnFinally 0), .attempt 1,
        .connected 0, .proceed 0 (.prepare fun _ => []), .proceed 0 (.failed ⟨.network, "reset"⟩),
        .finished 0, .attempt 0, .connected 1, .proceed 1 (.prepare fun _ => []), .proceed 1 .sent,
        .proceed 1 (.received (.result 1 [])), .finished 1, .connected 0,
        .proceed 0 (.prepare fun _ => []), .proceed 0 .sent,
        .proceed 0 (.received (.result 2 [])), .finished 0]).map
        (·.calls.map (·.call.released)) = some [[(0, 1), (0, 1)], [(0, 1)]] := by rfl
  obtain ⟨s, hs, hreleased⟩ := Option.map_eq_some_iff.mp hrun
  have hreach : (system ConnectionPool.oneStream ⟨0, 1, 100⟩).Reachable s :=
    Math.TransitionSystem.reachable_of_run ⟨_, ConnectionPool.oneNode_reachable, rfl⟩ hs
  exact ⟨s, hreach, hreleased, (streamsReturned hreach).1⟩

end SessionCalls

end CqlDriver
