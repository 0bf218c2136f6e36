import CqlDriver.Math.Writes
import CqlDriver.Session.PreparedIds

/-!
# The preparation of a batch

The queries of a batch that need preparation and are not in the cache of the node are prepared
together: all PREPARE messages are sent on the stream of the attempt before the first response is
waited for, and no response is handled before all are there. The indexes of these queries are
carried along; an id from the cache is taken over at once.

Here a batch call is put together with its stream, where the server answers the requests one after
the other, at any time after they were sent, and with the caches of the nodes, which other calls
write too.

## Main definitions

* `BatchStream` — a batch call, the requests and responses on its stream, and the caches
* `BatchStream.Assigned` — the ids of the batch are those of its queries, and the cache has them
* `BatchStream.Evicted` — the cache of a node has no id for a query that needs preparation
* `BatchStream.PreparesRight` — how an attempt assigns ids, and what the first UnPreparedQuery evicts

## Main results

* `BatchStream.pipelined_of_reachable` — the responses belong to the indexes
* `BatchStream.preparesRight_of_reachable`
-/

namespace CqlDriver

open Math (valuesOf writeAll setAll)

namespace SessionCall

variable {κ : Type}

/-- Get the prepared query id of the query at the specified index, empty for none. -/
def getPreparedQueryId (c : SessionCall κ) (i : Nat) : Bytes := c.preparedQueryIds[i]?.join.getD []

/-- The PREPARE message of the query at an index. -/
def prepareRequest (c : SessionCall κ) (i : Nat) : Request := .prepare (c.queryStr i)

/-- The indexes of the queries that need preparation and are not in a cache. -/
def uncached (c : SessionCall κ) (cached : Bytes → Bytes) : List Nat :=
  (List.range c.queries.length).filter fun i =>
    match c.queries[i]? with
    | some query => query.2 && (cached query.1).isEmpty
    | none => false

/-- The requests that a step has given to the connection. -/
def requestsSince (c d : SessionCall κ) : List Request :=
  (d.requests.drop c.requests.length).map Prod.snd

end SessionCall

/-- A batch call, what is on the stream of its attempt, and the caches of the nodes. -/
structure BatchStream where
  call : SessionCall NodeConnection
  /-- The cache of each node; an empty id is none. -/
  preparedQueryIds : Nat → Bytes → Bytes
  /-- The cache of the node when the queries of the attempt were prepared. -/
  taken : Bytes → Bytes
  /-- The requests that the server has not answered. -/
  unanswered : List Request
  /-- The responses that the call has not received, each with its request. -/
  arrived : List (Request × Answer)
  /-- The responses that the call has received in this attempt. -/
  received : List (Request × Answer)

namespace BatchStream

open SessionCall (CacheWrites)

/-- A batch call that has just been made, with any caches. -/
def create (prepareAllQueries : Bool) (command : CommandData) (caches : Nat → Bytes → Bytes) :
    BatchStream :=
  ⟨Session.batchExecute prepareAllQueries (some command), caches, fun _ => [], [], [], []⟩

/-- The caches after writes to the cache of the node of a connection. -/
def store (caches : Nat → Bytes → Bytes) (connection : Option NodeConnection)
    (writes : CacheWrites) : Nat → Bytes → Bytes :=
  match connection with
  | some connection =>
    Function.update caches connection.node (writeAll (caches connection.node) writes)
  | none => caches

/-- One task of the call. What it sends is on the stream. -/
def stepCall (s : BatchStream) (event : SessionCall.Event NodeConnection) : Option BatchStream :=
  (s.call.step event).map fun result =>
    { s with
      call := result.1
      preparedQueryIds := store s.preparedQueryIds s.call.connection result.2
      unanswered := s.unanswered ++ s.call.requestsSince result.1 }

/-- What can happen next. -/
inductive Event
  | attempt
  | connected (connection : NodeConnection) (stream : Nat)
  | prepare
  | sent
  /-- The server answers the first request that it has not answered. -/
  | answered (answer : Answer)
  /-- The next response is received. -/
  | received
  | failed (ex : Exception)
  | finished (moved : Bool)
  /-- Other calls write to the cache of a node. -/
  | others (node : Nat) (writes : CacheWrites)

/-- One event-loop task, or one answer of the server. -/
def step (s : BatchStream) : Event → Option BatchStream
  | .attempt => s.stepCall .attempt
  | .connected connection stream =>
    (s.stepCall (.connected connection stream)).map fun t =>
      { t with unanswered := [], arrived := [], received := [] }
  | .prepare =>
    s.call.connection.bind fun connection =>
      (s.stepCall (.prepare (s.preparedQueryIds connection.node))).map fun t =>
        { t with taken := s.preparedQueryIds connection.node }
  | .sent => s.stepCall .sent
  | .answered answer =>
    match s.unanswered with
    | [] => none
    | request :: unanswered =>
      some { s with unanswered, arrived := s.arrived ++ [(request, answer)] }
  | .received =>
    match s.arrived with
    | [] => none
    | first :: arrived =>
      (s.stepCall (.received first.2)).map fun t =>
        { t with arrived, received := s.received ++ [first] }
  | .failed ex => s.stepCall (.failed ex)
  | .finished moved => s.stepCall (.finished moved)
  | .others node writes =>
    some { s with
      preparedQueryIds :=
        Function.update s.preparedQueryIds node (writeAll (s.preparedQueryIds node) writes) }

/-- A batch call from its start on, for any batch and any contents of the caches. -/
def system : Math.TransitionSystem BatchStream Event where
  start s := ∃ prepareAllQueries command caches, s = create prepareAllQueries command caches
  step := step

/-! ## The contract -/

/-- The cache of the node of the connection. -/
def cached (s : BatchStream) : Bytes → Bytes :=
  match s.call.connection with
  | some connection => s.preparedQueryIds connection.node
  | none => fun _ => []

/-- The query string of a PREPARE message and the id in its response. -/
def returnedId : Request × Answer → Option (Bytes × Bytes)
  | (.prepare queryStr, .result kind preparedQueryId) =>
    if kind = ResultKind.prepared then some (queryStr, preparedQueryId) else none
  | _ => none

/-- The ids that were returned in this attempt, each with its query string. -/
def returned (s : BatchStream) : List (Bytes × Bytes) := s.received.filterMap returnedId

/-- The id at each index is the one for the query there. -/
structure Assigned (s : BatchStream) : Prop where
  unprepared : ∀ i query, s.call.queries[i]? = some query → query.2 = false →
    s.call.getPreparedQueryId i = []
  cached : ∀ i query, s.call.queries[i]? = some query → query.2 = true → s.taken query.1 ≠ [] →
    s.call.getPreparedQueryId i = s.taken query.1
  returned : ∀ i query, s.call.queries[i]? = some query → query.2 = true → s.taken query.1 = [] →
    (query.1, s.call.getPreparedQueryId i) ∈ s.returned
  /-- The PREPARE messages of the attempt, in the order of the queries, with their responses. -/
  exchanged : s.received = (s.call.uncached s.taken).map fun i =>
    (s.call.prepareRequest i, .result ResultKind.prepared (s.call.getPreparedQueryId i))
  /-- The cache has the id that was returned last. -/
  stored : ∀ query ∈ s.call.queries, query.2 = true → s.taken query.1 = [] →
    (valuesOf s.returned query.1).getLast? = some (s.cached query.1)

/-- The cache of a node has no id for a query that needs preparation. -/
def Evicted (s : BatchStream) (node : Nat) : Prop :=
  ∀ query ∈ s.call.queries, query.2 = true → s.preparedQueryIds node query.1 = []

/-- A step that ends an attempt with UnPreparedQuery, as no attempt before has ended. -/
def FirstUnPrepared (s t : BatchStream) : Prop :=
  (∀ ex, AttemptEnd.errorMessage ErrorCode.unPreparedQuery ex ∉ s.call.ended) ∧
    ∃ ex, t.call.ended = s.call.ended ++ [.errorMessage ErrorCode.unPreparedQuery ex]

/-- The call receives nothing on the node, and other calls store no id there for a query that needs
preparation. -/
def LeavesEvicted (node : Nat) (s : BatchStream) : Event → Prop
  | .received => ∀ connection ∈ s.call.connection, connection.node ≠ node
  | .others other writes => other = node → ∀ write ∈ writes,
      (write.1, true) ∈ s.call.queries → write.2 = []
  | _ => True

/-- What the steps from a state do with ids. -/
structure PreparesRight (s : BatchStream) : Prop where
  /-- Preparing ends with the request for the batch only when the ids are assigned. -/
  assigns : ∀ event t, s.step event = some t → s.call.phase ≠ .sending →
    t.call.phase = .sending → t.Assigned
  /-- The first UnPreparedQuery evicts all ids of the batch from the node, and the next attempt there
  prepares them all. -/
  evicts : ∀ event t, s.step event = some t → s.FirstUnPrepared t →
    ∃ connection ∈ s.call.connection, t.Evicted connection.node ∧
      ∀ u, (system.startingFrom t).ReachableWhen (LeavesEvicted connection.node) u →
        ∀ v, u.step .prepare = some v → (∃ other ∈ u.call.connection, other.node = connection.node) →
          v.call.prepareIndexes = (List.range v.call.queries.length).filter fun i =>
            (v.call.queries[i]?.map Prod.snd).getD false

end BatchStream

/-! ## The responses of an attempt -/

namespace SessionCall

variable {κ : Type} {c d : SessionCall κ} {cached : Bytes → Bytes} {writes : CacheWrites}

/-- The call with the hits of a cache, and the indexes of the other queries. -/
def collecting (c : SessionCall κ) (cached : Bytes → Bytes) : SessionCall κ :=
  { c with
    prepareIndexes := c.uncached cached
    preparedQueryIds := c.queries.map (cachedId cached) }

theorem prepareQueries_eq : c.prepareQueries cached =
    match c.uncached cached with
    | [] => (c.collecting cached).sendRequest
    | first :: left => (c.collecting cached).sendPrepares (first :: left) := rfl

theorem prepareIndexes_prepareQueries :
    (c.prepareQueries cached).prepareIndexes = c.uncached cached := by
  rw [prepareQueries_eq]
  split
  · rfl
  · rfl

/-- What is sent over the connection is on the stream. -/
theorem requestsSince_of_append {connection : κ} {request : Request}
    (h : d.requests = c.requests ++ [(connection, request)]) : c.requestsSince d = [request] := by
  rw [requestsSince, h, List.drop_left]
  rfl

theorem requestsSince_of_same (h : d.requests = c.requests) : c.requestsSince d = [] := by
  rw [requestsSince, h, List.drop_length]
  rfl

theorem requests_sendMessage {connection : κ} {request : Request}
    (h : c.connection = some connection) :
    (c.sendMessage request).requests = c.requests ++ [(connection, request)] := by
  rw [sendMessage, h]
  rfl

theorem mem_uncached {i : Nat} : i ∈ c.uncached cached ↔
    ∃ query, c.queries[i]? = some query ∧ query.2 = true ∧ cached query.1 = [] := by
  rw [uncached, List.mem_filter, List.mem_range]
  constructor
  · rintro ⟨-, htest⟩
    split at htest
    next query hquery =>
      obtain ⟨hneeds, hempty⟩ := Bool.and_eq_true_iff.mp htest
      exact ⟨query, hquery, hneeds, List.isEmpty_iff.mp hempty⟩
    · cases htest
  · rintro ⟨query, hquery, hneeds, hempty⟩
    refine ⟨(List.getElem?_eq_some_iff.mp hquery).1, ?_⟩
    simp [hquery, hneeds, hempty]

theorem nodup_uncached : (c.uncached cached).Nodup := List.nodup_range.filter _

/-- When the responses end with the request for the batch, all of them have an id. -/
theorem exists_of_handleResults_sending {results : List (Nat × Answer)}
    (h : (c.handleResults results).1.phase = .sending) : ∃ found : List (Nat × Bytes),
      results = found.map (fun entry => (entry.1, .result ResultKind.prepared entry.2)) ∧
      (c.handleResults results).1.preparedQueryIds =
        setAll c.preparedQueryIds (found.map fun entry => (entry.1, some entry.2)) ∧
      (c.handleResults results).2 = found.map fun entry => (c.queryStr entry.1, entry.2) := by
  induction results generalizing c with
  | nil => exact ⟨[], rfl, rfl, rfl⟩
  | cons first rest ih =>
    obtain ⟨i, answer⟩ := first
    cases answer with
    | result kind preparedQueryId =>
      rw [handleResults] at h ⊢
      split at h
      next hkind =>
        subst hkind
        obtain ⟨found, rfl, hids, hwrites⟩ := ih h
        refine ⟨(i, preparedQueryId) :: found, rfl, ?_, ?_⟩
        · rw [if_pos rfl]
          exact hids
        · rw [if_pos rfl]
          exact congrArg (_ :: ·) hwrites
      · cases h
    | error errorCode errorMessage => cases h
    | other opCode => cases h

/-- Handling the responses leaves the queries alone. -/
theorem handleResults_same (results : List (Nat × Answer)) :
    (c.handleResults results).1.queries = c.queries ∧
      (c.handleResults results).1.connection = c.connection := by
  induction results generalizing c with
  | nil => exact ⟨rfl, rfl⟩
  | cons first rest ih =>
    obtain ⟨i, answer⟩ := first
    cases answer with
    | result kind preparedQueryId =>
      rw [handleResults]
      split
      · exact ih
      · exact ⟨rfl, rfl⟩
    | error errorCode errorMessage => exact ⟨rfl, rfl⟩
    | other opCode => exact ⟨rfl, rfl⟩

/-- The request is sent, or the attempt ends. -/
theorem handleResults_phase (results : List (Nat × Answer)) :
    (c.handleResults results).1.phase = .sending ∨
      ∃ next, (c.handleResults results).1.phase = .finishing next := by
  induction results generalizing c with
  | nil => exact .inl rfl
  | cons first rest ih =>
    obtain ⟨i, answer⟩ := first
    cases answer with
    | result kind preparedQueryId =>
      rw [handleResults]
      split
      · exact ih
      · exact .inr ⟨_, rfl⟩
    | error errorCode errorMessage => exact .inr ⟨_, rfl⟩
    | other opCode => exact .inr ⟨_, rfl⟩

/-- When they end with an error message, its evictions are written last. -/
theorem exists_of_handleResults_error {results : List (Nat × Answer)} {errorCode : Int}
    {ex : CallError} (h : (c.handleResults results).1.ended =
      c.ended ++ [.errorMessage errorCode ex]) :
    ∃ stored, (c.handleResults results).2 = stored ++ c.evictions errorCode := by
  induction results generalizing c with
  | nil => exact absurd (congrArg List.length h) (by simp [handleResults, sendRequest, sendMessage])
  | cons first rest ih =>
    obtain ⟨i, answer⟩ := first
    cases answer with
    | result kind preparedQueryId =>
      rw [handleResults] at h ⊢
      split at h
      next hkind =>
        obtain ⟨stored, hstored⟩ := ih h
        rw [if_pos hkind]
        exact ⟨_ :: stored, congrArg (_ :: ·) hstored⟩
      · cases List.append_cancel_left h
    | error code errorMessage =>
      cases List.append_cancel_left h
      exact ⟨[], rfl⟩
    | other opCode => cases List.append_cancel_left h

/-- Only responses make a call write to a cache. -/
theorem writes_eq_nil {event : Event κ} (h : c.step event = some (d, writes))
    (hevent : ∀ answer, event ≠ .received answer) : writes = [] := by
  cases event with
  | received answer => exact absurd rfl (hevent answer)
  | attempt | connected | prepare | sent | failed | finished =>
    simp only [step] at h
    repeat' split at h
    all_goals first | cases h; rfl | cases h

/-- The request for the batch is sent when there is nothing to prepare or after the last
response. -/
theorem sending_cases {event : Event κ} (h : c.step event = some (d, writes))
    (hnot : c.phase ≠ .sending) (hsending : d.phase = .sending) :
    (∃ cached, event = .prepare cached ∧ c.phase = .preparing ∧ d = c.prepareQueries cached) ∨
      ∃ i results answer, event = .received answer ∧ c.phase = .prepareWaiting [i] results ∧
        c.handleResults (results ++ [(i, answer)]) = (d, writes) := by
  cases event with
  | prepare cached =>
    simp only [step] at h
    split at h
    next hphase =>
      cases h
      exact .inl ⟨cached, rfl, hphase, rfl⟩
    · cases h
  | received answer =>
    simp only [step] at h
    split at h
    next i results hphase => exact .inr ⟨i, results, answer, rfl, hphase, Option.some.inj h⟩
    · cases h
      cases hsending
    · obtain ⟨rfl, rfl⟩ := Prod.mk.inj (Option.some.inj h)
      cases answer <;> cases hsending
    · cases h
  | sent =>
    simp only [step] at h
    split at h
    next i left hphase =>
      cases h
      cases left <;> cases hsending
    next hphase => exact absurd hphase hnot
    · cases h
  | attempt | connected | failed =>
    simp only [step] at h
    split at h
    all_goals first | cases h; cases hsending | cases h
  | finished moved =>
    simp only [step] at h
    split at h
    next next _ =>
      split at h
      all_goals
        cases h
        cases next <;> cases hsending
    · cases h

/-- A call prepares after it got its connection. -/
theorem exists_connected {event : Event κ} (h : c.step event = some (d, writes))
    (hpreparing : d.phase = .preparing) :
    ∃ connection stream, event = .connected connection stream ∧ d.connection = some connection := by
  cases event with
  | connected connection stream =>
    simp only [step] at h
    split at h
    · cases h
      exact ⟨connection, stream, rfl, rfl⟩
    · cases h
  | prepare cached =>
    simp only [step] at h
    split at h
    · cases h
      rw [prepareQueries] at hpreparing
      split at hpreparing <;> cases hpreparing
    · cases h
  | received answer =>
    simp only [step] at h
    split at h
    next i results _ =>
      obtain ⟨rfl, rfl⟩ := Prod.mk.inj (Option.some.inj h)
      obtain hphase | ⟨next, hphase⟩ := c.handleResults_phase (results ++ [(i, answer)])
      · cases hphase.symm.trans hpreparing
      · cases hphase.symm.trans hpreparing
    · cases h
      cases hpreparing
    · obtain ⟨rfl, rfl⟩ := Prod.mk.inj (Option.some.inj h)
      cases answer <;> cases hpreparing
    · cases h
  | sent =>
    simp only [step] at h
    split at h
    next i left hphase =>
      cases h
      cases left <;> cases hpreparing
    · cases h
      cases hpreparing
    · cases h
  | attempt | failed =>
    simp only [step] at h
    split at h
    all_goals first | cases h; cases hpreparing | cases h
  | finished moved =>
    simp only [step] at h
    split at h
    next next _ =>
      split at h
      all_goals
        cases h
        cases next <;> cases hpreparing
    · cases h

/-! ## The first UnPreparedQuery -/

theorem queries_of_step {event : Event κ} (h : c.step event = some (d, writes)) :
    d.queries = c.queries := by
  cases stepTo h with
  | goesOn _ hgoes => exact hgoes.queries
  | ends _ hends =>
    cases hends with
    | exception ends | errorMessage _ ends | unexpected _ ends => exact ends.queries
    | success same => exact same.queries
  | started | connected | notConnected | returned | nothingToReturn => rfl

/-- Evictions that were counted were for an UnPreparedQuery. -/
def Counted (c : SessionCall κ) : Prop := c.retryFlow.unPreparedErrorCount = 0 ∨
  ∃ ex, AttemptEnd.errorMessage ErrorCode.unPreparedQuery ex ∈ c.ended

theorem determinate_count (flow : RetryFlow) (ex : CallError) :
    (flow.determinate ex).1.unPreparedErrorCount = flow.unPreparedErrorCount := by
  rw [RetryFlow.determinate]
  split
  · rfl
  · rfl

theorem Counted.endsWith {flow : RetryFlow} {attempt : AttemptEnd} {ex : CallError} (h : c.Counted)
    (hends : c.EndsWith flow attempt ex d)
    (hcount : flow.unPreparedErrorCount = c.retryFlow.unPreparedErrorCount ∨
      ∃ ex, attempt = .errorMessage ErrorCode.unPreparedQuery ex) : d.Counted := by
  rw [Counted, hends.retryFlow, determinate_count, hends.ended]
  rcases hcount with hcount | ⟨other, rfl⟩
  · rw [hcount]
    exact h.imp_right fun ⟨other, hother⟩ => ⟨other, List.mem_append_left _ hother⟩
  · exact .inr ⟨other, List.mem_append_right _ List.mem_cons_self⟩

theorem Counted.step {event : Event κ} (h : c.Counted) (hstep : c.step event = some (d, writes)) :
    d.Counted := by
  cases stepTo hstep with
  | started | connected | returned | nothingToReturn => exact h
  | goesOn _ hgoes =>
    rw [Counted, hgoes.retryFlow, hgoes.ended]
    exact h
  | @notConnected ex _ =>
    have hends : c.EndsWith c.retryFlow (.exception ex) (.exception ex) (c.failWith ex) :=
      ⟨⟨rfl, rfl, rfl, rfl, rfl, rfl, rfl⟩, rfl, rfl, rfl, rfl⟩
    exact h.endsWith hends (.inl rfl)
  | ends _ hends =>
    cases hends with
    | exception ends => exact h.endsWith ends (.inl rfl)
    | unexpected _ ends => exact h.endsWith ends (.inl rfl)
    | success _ hflow _ hended =>
      rw [Counted, hflow, hended]
      exact h.imp_right fun ⟨other, hother⟩ => ⟨other, List.mem_append_left _ hother⟩
    | @errorMessage errorCode _ _ _ ex _ ends =>
      refine h.endsWith ends ?_
      by_cases hevicts : c.retryFlow.Evicts errorCode
      · exact .inr ⟨ex, by rw [hevicts.1]⟩
      · refine .inl ?_
        rw [RetryFlow.handleErrorMessage, if_neg hevicts]
        split
        · rfl
        · rfl

/-- A step that ends the attempt with an error message writes its evictions last. -/
theorem exists_of_error {event : Event κ} {errorCode : Int} {ex : CallError}
    (h : c.step event = some (d, writes))
    (hended : d.ended = c.ended ++ [.errorMessage errorCode ex]) :
    c.phase.IsOpen ∧ ∃ stored, writes = stored ++ c.evictions errorCode := by
  have hsame : d.ended ≠ c.ended := fun hsame =>
    absurd (congrArg List.length (hsame.symm.trans hended)) (by simp)
  cases event with
  | received answer =>
    simp only [step] at h
    split at h
    next i results hphase =>
      obtain ⟨rfl, rfl⟩ := Prod.mk.inj (Option.some.inj h)
      exact ⟨by rw [hphase]; trivial, exists_of_handleResults_error hended⟩
    · cases h
      exact absurd rfl hsame
    next hphase =>
      obtain ⟨rfl, rfl⟩ := Prod.mk.inj (Option.some.inj h)
      refine ⟨by rw [hphase]; trivial, ?_⟩
      cases answer with
      | error code errorMessage =>
        cases List.append_cancel_left hended
        exact ⟨[], rfl⟩
      | result | other => cases List.append_cancel_left hended
    · cases h
  | attempt | connected =>
    simp only [step] at h
    split at h
    · cases h
      exact absurd rfl hsame
    · cases h
  | prepare cached =>
    simp only [step] at h
    split at h
    next hphase =>
      cases h
      exact absurd (prepareQueries_goesOn cached hphase).ended hsame
    · cases h
  | sent =>
    simp only [step] at h
    split at h
    next hphase =>
      cases h
      exact absurd (sendPrepares_goesOn hphase).ended hsame
    · cases h
      exact absurd rfl hsame
    · cases h
  | failed ex =>
    simp only [step] at h
    split at h
    all_goals first | cases h; cases List.append_cancel_left hended | cases h
  | finished moved =>
    simp only [step] at h
    repeat' split at h
    all_goals first | cases h; exact absurd rfl hsame | cases h

end SessionCall

namespace BatchStream

open SessionCall (CacheWrites)

variable {s t : BatchStream}

/-! ## Requests and responses -/

/-- The requests on the stream whose responses were not received. -/
def outstanding (s : BatchStream) : List Request := s.arrived.map Prod.fst ++ s.unanswered

/-- The attempt collects ids for the queries that its cache did not have. -/
structure Collects (s : BatchStream) : Prop where
  prepareIndexes : s.call.prepareIndexes = s.call.uncached s.taken
  preparedQueryIds : s.call.preparedQueryIds = s.call.queries.map (SessionCall.cachedId s.taken)

/-- The requests and responses on the stream are those for the indexes. -/
structure Pipelined (s : BatchStream) : Prop where
  fresh : s.call.phase = .preparing → s.outstanding = [] ∧ s.received = []
  collects : s.call.phase.IsCollecting → s.Collects
  sends : ∀ left, s.call.phase = .prepareSending left → s.received = [] ∧
    ∃ sent i rest, left = i :: rest ∧ s.call.prepareIndexes = sent ++ i :: rest ∧
      s.outstanding = (sent ++ [i]).map s.call.prepareRequest
  waits : ∀ left results, s.call.phase = .prepareWaiting left results →
    s.call.prepareIndexes = results.map Prod.fst ++ left ∧
      s.received = results.map (fun result => (s.call.prepareRequest result.1, result.2)) ∧
      s.outstanding = left.map s.call.prepareRequest
  connection : s.call.phase.IsOpen → ∃ connection, s.call.connection = some connection

/-- One task of the call. -/
theorem exists_of_stepCall {event : SessionCall.Event NodeConnection}
    (h : s.stepCall event = some t) : ∃ writes, s.call.step event = some (t.call, writes) ∧
      t = { s with
        call := t.call
        preparedQueryIds := store s.preparedQueryIds s.call.connection writes
        unanswered := s.unanswered ++ s.call.requestsSince t.call } := by
  obtain ⟨⟨call, writes⟩, hstep, rfl⟩ := Option.map_eq_some_iff.mp h
  exact ⟨writes, hstep, rfl⟩

/-- An open attempt has a connection. -/
theorem connection_of_isOpen {κ : Type} {c d : SessionCall κ} {event : SessionCall.Event κ}
    {writes : CacheWrites} (hstep : c.step event = some (d, writes))
    (h : c.phase.IsOpen → ∃ connection, c.connection = some connection) :
    d.phase.IsOpen → ∃ connection, d.connection = some connection := by
  intro hopen
  cases SessionCall.stepTo hstep with
  | started => exact hopen.elim
  | connected => exact ⟨_, rfl⟩
  | goesOn hc hgoes =>
    rw [hgoes.connection]
    exact h hc
  | ends hc hends =>
    cases hends with
    | exception ends | errorMessage _ ends | unexpected _ ends =>
      rw [ends.phase] at hopen
      exact hopen.elim
    | success _ _ hphase =>
      rw [hphase] at hopen
      exact hopen.elim
  | notConnected => exact hopen.elim
  | @returned next | @nothingToReturn next => cases next <;> exact hopen.elim

/-- Nothing is required of a call that collects no ids. -/
theorem Pipelined.of_not_isCollecting (hphase : ¬ t.call.phase.IsCollecting)
    (hpreparing : t.call.phase ≠ .preparing)
    (hconnection : t.call.phase.IsOpen → ∃ connection, t.call.connection = some connection) :
    t.Pipelined where
  fresh := fun h => absurd h hpreparing
  collects := fun h => absurd h hphase
  sends := by
    intro left h
    rw [h] at hphase
    exact absurd trivial hphase
  waits := by
    intro left results h
    rw [h] at hphase
    exact absurd trivial hphase
  connection := hconnection

/-- Answers and the writes of other calls change nothing for the call. -/
theorem Pipelined.of_same (h : s.Pipelined) (hcall : t.call = s.call) (htaken : t.taken = s.taken)
    (houtstanding : t.outstanding = s.outstanding) (hreceived : t.received = s.received) :
    t.Pipelined := by
  constructor
  · rw [hcall, houtstanding, hreceived]
    exact h.fresh
  · intro hphase
    rw [hcall] at hphase
    have hcollects := h.collects hphase
    constructor
    · rw [hcall, htaken]
      exact hcollects.prepareIndexes
    · rw [hcall, htaken]
      exact hcollects.preparedQueryIds
  · rw [hcall, houtstanding, hreceived]
    exact h.sends
  · rw [hcall, houtstanding, hreceived]
    exact h.waits
  · rw [hcall]
    exact h.connection

/-- Hits are taken over, and the first PREPARE message is sent. -/
theorem Pipelined.prepare (h : s.Pipelined) {connection : NodeConnection}
    (hconnection : s.call.connection = some connection) (hphase : s.call.phase = .preparing)
    {cached : Bytes → Bytes} {caches : Nat → Bytes → Bytes} :
    Pipelined { s with
      call := s.call.prepareQueries cached
      preparedQueryIds := caches
      taken := cached
      unanswered := s.unanswered ++ s.call.requestsSince (s.call.prepareQueries cached) } := by
  obtain ⟨houtstanding, hreceived⟩ := h.fresh hphase
  obtain ⟨harrived, hunanswered⟩ := List.append_eq_nil_iff.mp houtstanding
  rw [SessionCall.prepareQueries_eq]
  split
  next hnone =>
    exact .of_not_isCollecting (fun h => h) (fun h => by cases h) fun _ => ⟨connection, hconnection⟩
  next first left hsome =>
    have hsent : s.call.requestsSince ((s.call.collecting cached).sendPrepares (first :: left)) =
        [s.call.prepareRequest first] :=
      SessionCall.requestsSince_of_append (SessionCall.requests_sendMessage hconnection)
    constructor
    · exact fun h => by cases h
    · exact fun _ => ⟨rfl, rfl⟩
    · intro pending hpending
      cases hpending
      refine ⟨hreceived, [], first, left, rfl, hsome, ?_⟩
      rw [outstanding, harrived, hunanswered, hsent]
      rfl
    · exact fun _ _ h => by cases h
    · exact fun _ => ⟨connection, hconnection⟩

/-- A PREPARE message was sent: the next one is sent, or the first response is waited for. -/
theorem Pipelined.sent (h : s.Pipelined) {i : Nat} {left : List Nat}
    (hphase : s.call.phase = .prepareSending (i :: left)) {caches : Nat → Bytes → Bytes} :
    Pipelined { s with
      call := s.call.sendPrepares left
      preparedQueryIds := caches
      unanswered := s.unanswered ++ s.call.requestsSince (s.call.sendPrepares left) } := by
  have hcollects : s.Collects := h.collects (by rw [hphase]; trivial)
  obtain ⟨connection, hconnection⟩ := h.connection (by rw [hphase]; trivial)
  obtain ⟨hreceived, done, first, rest, heq, hindexes, houtstanding⟩ := h.sends _ hphase
  cases heq
  cases left with
  | nil =>
    have hnone : s.call.requestsSince (s.call.sendPrepares []) = [] :=
      SessionCall.requestsSince_of_same rfl
    constructor
    · exact fun h => by cases h
    · exact fun _ => ⟨hcollects.prepareIndexes, hcollects.preparedQueryIds⟩
    · exact fun _ h => by cases h
    · intro left results hwaits
      cases hwaits
      refine ⟨rfl, hreceived, ?_⟩
      rw [hnone, List.append_nil]
      exact houtstanding.trans (congrArg _ hindexes.symm)
    · exact fun _ => ⟨connection, hconnection⟩
  | cons j left =>
    have hsent : s.call.requestsSince (s.call.sendPrepares (j :: left)) =
        [s.call.prepareRequest j] :=
      SessionCall.requestsSince_of_append (SessionCall.requests_sendMessage hconnection)
    constructor
    · exact fun h => by cases h
    · exact fun _ => ⟨hcollects.prepareIndexes, hcollects.preparedQueryIds⟩
    · intro pending hpending
      cases hpending
      refine ⟨hreceived, done ++ [i], j, left, rfl, ?_, ?_⟩
      · rw [List.append_assoc]
        exact hindexes
      · rw [hsent, List.map_append]
        exact (List.append_assoc _ _ _).symm.trans
          (congrArg (· ++ [s.call.prepareRequest j]) houtstanding)
    · exact fun _ _ h => by cases h
    · exact fun _ => ⟨connection, hconnection⟩

/-- A response is kept with the index whose PREPARE message it answers. -/
theorem Pipelined.stored (h : s.Pipelined) {i j : Nat} {left : List Nat}
    {results : List (Nat × Answer)} {request : Request} {answer : Answer}
    {arrived : List (Request × Answer)}
    (hphase : s.call.phase = .prepareWaiting (i :: j :: left) results)
    (harrived : s.arrived = (request, answer) :: arrived) {caches : Nat → Bytes → Bytes} :
    Pipelined { s with
      call := { s.call with phase := .prepareWaiting (j :: left) (results ++ [(i, answer)]) }
      preparedQueryIds := caches
      unanswered := s.unanswered ++ s.call.requestsSince
        { s.call with phase := .prepareWaiting (j :: left) (results ++ [(i, answer)]) }
      arrived
      received := s.received ++ [(request, answer)] } := by
  have hcollects : s.Collects := h.collects (by rw [hphase]; trivial)
  obtain ⟨hindexes, hreceived, houtstanding⟩ := h.waits _ _ hphase
  have hnone : s.call.requestsSince
      { s.call with phase := .prepareWaiting (j :: left) (results ++ [(i, answer)]) } = [] :=
    SessionCall.requestsSince_of_same rfl
  rw [outstanding, harrived] at houtstanding
  obtain ⟨hfirst, hothers⟩ := List.cons.inj houtstanding
  dsimp only at hfirst
  constructor
  · exact fun h => by cases h
  · exact fun _ => ⟨hcollects.prepareIndexes, hcollects.preparedQueryIds⟩
  · exact fun _ h => by cases h
  · intro left results hwaits
    cases hwaits
    refine ⟨?_, ?_, ?_⟩
    · rw [hindexes, List.map_append, List.append_assoc]
      rfl
    · rw [hreceived, List.map_append, hfirst]
      rfl
    · rw [outstanding, hnone, List.append_nil]
      exact hothers
  · exact fun _ => h.connection (by rw [hphase]; trivial)

/-- A step of the call that collects no ids. -/
theorem Pipelined.keeps {event : SessionCall.Event NodeConnection} {writes : CacheWrites}
    (h : s.Pipelined) (hstep : s.call.step event = some (t.call, writes))
    (hphase : ¬ t.call.phase.IsCollecting)
    (hevent : ∀ connection stream, event ≠ .connected connection stream) : t.Pipelined := by
  refine .of_not_isCollecting hphase (fun hpreparing => ?_) (connection_of_isOpen hstep h.connection)
  obtain ⟨connection, stream, heq, -⟩ := SessionCall.exists_connected hstep hpreparing
  exact hevent connection stream heq

theorem Pipelined.step {event : Event} (h : s.Pipelined) (hstep : s.step event = some t) :
    t.Pipelined := by
  cases event with
  | attempt | failed ex | finished moved =>
    obtain ⟨writes, hcall, -⟩ := exists_of_stepCall hstep
    cases SessionCall.idStep hcall with
    | keeps _ hphase _ => exact h.keeps hcall hphase fun _ _ => (by rintro ⟨⟩)
  | connected connection stream =>
    obtain ⟨u, hu, rfl⟩ := Option.map_eq_some_iff.mp hstep
    obtain ⟨writes, hcall, -⟩ := exists_of_stepCall hu
    have hconnection := connection_of_isOpen hcall h.connection
    cases SessionCall.idStep hcall with
    | keeps _ hphase _ =>
      refine ⟨fun _ => ⟨rfl, rfl⟩, fun h => absurd h hphase, fun left h => ?_, fun left results h => ?_,
        hconnection⟩
      · exact absurd (by rw [h]; trivial) hphase
      · exact absurd (by rw [h]; trivial) hphase
  | prepare =>
    obtain ⟨connection, hconnection, hprepare⟩ := Option.bind_eq_some_iff.mp hstep
    obtain ⟨u, hu, rfl⟩ := Option.map_eq_some_iff.mp hprepare
    obtain ⟨writes, hcall, hsame⟩ := exists_of_stepCall hu
    have hphase : s.call.phase = .preparing := by
      simp only [SessionCall.step] at hcall
      split at hcall
      next hphase => exact hphase
      · cases hcall
    simp only [SessionCall.step, hphase, Option.some.injEq, Prod.mk.injEq] at hcall
    rw [hsame, ← hcall.1]
    exact h.prepare hconnection hphase
  | sent =>
    obtain ⟨writes, hcall, hsame⟩ := exists_of_stepCall hstep
    have hkeeps : ¬ t.call.phase.IsCollecting → t.Pipelined := fun hphase =>
      h.keeps hcall hphase fun _ _ => (by rintro ⟨⟩)
    generalize t.call = d at hcall hsame hkeeps
    cases SessionCall.idStep hcall with
    | keeps _ hphase _ => exact hkeeps hphase
    | sends hphase =>
      rw [hsame]
      exact h.sent hphase
  | answered answer =>
    rw [BatchStream.step] at hstep
    split at hstep
    · cases hstep
    next request unanswered hunanswered =>
      cases hstep
      refine h.of_same rfl rfl ?_ rfl
      rw [outstanding, outstanding, hunanswered, List.map_append, List.append_assoc]
      rfl
  | received =>
    rw [BatchStream.step] at hstep
    split at hstep
    · cases hstep
    next first arrived harrived =>
      obtain ⟨request, answer⟩ := first
      obtain ⟨u, hu, rfl⟩ := Option.map_eq_some_iff.mp hstep
      obtain ⟨writes, hcall, hsame⟩ := exists_of_stepCall hu
      have hkeeps (hphase : ¬ u.call.phase.IsCollecting) :
          Pipelined { u with arrived, received := s.received ++ [(request, answer)] } :=
        h.keeps hcall hphase fun _ _ => (by rintro ⟨⟩)
      generalize u.call = d at hcall hsame hkeeps
      cases SessionCall.idStep hcall with
      | keeps _ hphase _ => exact hkeeps hphase
      | stores hphase =>
        rw [hsame]
        exact h.stored hphase harrived
      | handles hphase => exact hkeeps (SessionCall.handleResults_not_isCollecting _)
  | others node writes =>
    cases hstep
    exact h.of_same rfl rfl rfl rfl

theorem pipelined_of_reachable (h : system.Reachable s) : s.Pipelined := by
  refine h.invariant Pipelined ?_ fun _ _ _ hs hstep => hs.step hstep
  rintro _ ⟨prepareAllQueries, command, caches, rfl⟩
  -- a new call is about to start, or was resolved at once
  by_cases hempty : command.queries = []
  · refine .of_not_isCollecting ?_ ?_ ?_ <;>
      simp [create, Session.batchExecute, Session.call, Session.start, hempty,
        CallPhase.IsCollecting, CallPhase.IsOpen]
  · refine .of_not_isCollecting ?_ ?_ ?_ <;>
      simp [create, Session.batchExecute, Session.call, Session.start, hempty,
        CallPhase.IsCollecting, CallPhase.IsOpen]

/-! ## The ids of the batch -/

section Found

variable {found : List (Nat × Bytes)} {before : Bytes → Bytes} {i : Nat} {id : Bytes}
  {query : Bytes × Bool}

/-- An id that was found for an index is the one at this index. -/
theorem getPreparedQueryId_of_mem {c : SessionCall NodeConnection} {cached : Bytes → Bytes}
    (hids : c.preparedQueryIds = setAll (c.queries.map (SessionCall.cachedId cached))
      (found.map fun entry => (entry.1, some entry.2)))
    (hnodup : (found.map Prod.fst).Nodup) (hmem : (i, id) ∈ found) (hi : i < c.queries.length) :
    c.getPreparedQueryId i = id := by
  have hkeys : ((found.map fun entry => (entry.1, some entry.2)).map Prod.fst).Nodup := by
    rw [List.map_map]
    exact hnodup
  have hvalues : valuesOf (found.map fun entry => (entry.1, some entry.2)) i = [some id] :=
    Math.valuesOf_of_nodup hkeys (List.mem_map.mpr ⟨(i, id), hmem, rfl⟩)
  rw [SessionCall.getPreparedQueryId, hids, Math.getElem?_setAll (by simpa using hi), hvalues]
  rfl

/-- Any other index has what the cache had. -/
theorem getPreparedQueryId_of_not_mem {c : SessionCall NodeConnection} {cached : Bytes → Bytes}
    (hids : c.preparedQueryIds = setAll (c.queries.map (SessionCall.cachedId cached))
      (found.map fun entry => (entry.1, some entry.2)))
    (hnot : i ∉ found.map Prod.fst) (hquery : c.queries[i]? = some query) :
    c.getPreparedQueryId i = (SessionCall.cachedId cached query).getD [] := by
  have hi : i < c.queries.length := (List.getElem?_eq_some_iff.mp hquery).1
  have hvalues : valuesOf (found.map fun entry => (entry.1, some entry.2)) i = [] := by
    rw [List.eq_nil_iff_forall_not_mem]
    intro value hvalue
    obtain ⟨entry, hentry, heq⟩ := List.mem_map.mp (Math.mem_valuesOf.mp hvalue)
    exact hnot (List.mem_map.mpr ⟨entry, hentry, congrArg Prod.fst heq⟩)
  rw [SessionCall.getPreparedQueryId, hids, Math.getElem?_setAll (by simpa using hi), hvalues,
    List.getElem?_map, hquery]
  rfl

theorem assigned_of_found (hindexes : s.call.uncached s.taken = found.map Prod.fst)
    (hids : s.call.preparedQueryIds = setAll (s.call.queries.map (SessionCall.cachedId s.taken))
      (found.map fun entry => (entry.1, some entry.2)))
    (hreceived : s.received = found.map fun entry =>
      (s.call.prepareRequest entry.1, .result ResultKind.prepared entry.2))
    (hcached : s.cached =
      writeAll before (found.map fun entry => (s.call.queryStr entry.1, entry.2))) :
    s.Assigned := by
  have hnodup : (found.map Prod.fst).Nodup := hindexes ▸ SessionCall.nodup_uncached
  have hmem {i : Nat} : i ∈ found.map Prod.fst ↔ ∃ query, s.call.queries[i]? = some query ∧
      query.2 = true ∧ s.taken query.1 = [] := by
    rw [← hindexes]
    exact SessionCall.mem_uncached
  have hat {entry : Nat × Bytes} (hentry : entry ∈ found) :
      s.call.getPreparedQueryId entry.1 = entry.2 := by
    obtain ⟨query, hquery, -⟩ := hmem.mp (List.mem_map_of_mem hentry)
    exact getPreparedQueryId_of_mem hids hnodup hentry (List.getElem?_eq_some_iff.mp hquery).1
  have hreturned : s.returned = found.map fun entry => (s.call.queryStr entry.1, entry.2) := by
    rw [BatchStream.returned, hreceived, List.filterMap_map]
    refine List.filterMap_eq_map_iff_forall_eq_some.mpr fun entry _ => ?_
    simp [returnedId, SessionCall.prepareRequest]
  have hpair {i : Nat} {query : Bytes × Bool} (hquery : s.call.queries[i]? = some query)
      (hneeds : query.2 = true) (hempty : s.taken query.1 = []) :
      (query.1, s.call.getPreparedQueryId i) ∈ s.returned := by
    obtain ⟨entry, hentry, rfl⟩ := List.mem_map.mp (hmem.mpr ⟨query, hquery, hneeds, hempty⟩)
    rw [hreturned, hat hentry]
    refine List.mem_map.mpr ⟨entry, hentry, Prod.ext ?_ rfl⟩
    rw [SessionCall.queryStr, hquery]
    rfl
  constructor
  · intro i query hquery hneeds
    have hnot : i ∉ found.map Prod.fst := by
      rintro hfound
      obtain ⟨other, hother, hyes, -⟩ := hmem.mp hfound
      cases hquery.symm.trans hother
      exact Bool.false_ne_true (hneeds.symm.trans hyes)
    rw [getPreparedQueryId_of_not_mem hids hnot hquery, SessionCall.cachedId, if_neg (by simp [hneeds])]
    rfl
  · intro i query hquery hneeds hhit
    have hnot : i ∉ found.map Prod.fst := by
      rintro hfound
      obtain ⟨other, hother, -, hempty⟩ := hmem.mp hfound
      cases hquery.symm.trans hother
      exact hhit hempty
    rw [getPreparedQueryId_of_not_mem hids hnot hquery, SessionCall.cachedId, if_pos ⟨hneeds, hhit⟩]
    rfl
  · exact fun i query hquery hneeds hempty => hpair hquery hneeds hempty
  · rw [hreceived, hindexes, List.map_map]
    refine List.map_congr_left fun entry hentry => ?_
    rw [Function.comp_apply, hat hentry]
  · intro query hquery hneeds hempty
    obtain ⟨i, hi⟩ := List.getElem?_of_mem hquery
    have hne : valuesOf s.returned query.1 ≠ [] :=
      List.ne_nil_of_mem (Math.mem_valuesOf.mpr (hpair hi hneeds hempty))
    obtain ⟨last, hlast⟩ := Option.ne_none_iff_exists'.mp (mt List.getLast?_eq_none_iff.mp hne)
    rw [hcached, Math.writeAll_apply, ← hreturned, hlast]
    rfl

end Found

/-- What a step does with the call and the caches. -/
inductive StepTo (s : BatchStream) : Event → BatchStream → Prop
  | calls {event : Event} {callEvent : SessionCall.Event NodeConnection} {writes : CacheWrites}
      {t : BatchStream} (step : s.call.step callEvent = some (t.call, writes))
      (caches : t.preparedQueryIds = store s.preparedQueryIds s.call.connection writes)
      (quiet : event ≠ .received → writes = []) : StepTo s event t
  | answered {answer : Answer} {t : BatchStream} (call : t.call = s.call)
      (caches : t.preparedQueryIds = s.preparedQueryIds) : StepTo s (.answered answer) t
  | others {node : Nat} {writes : CacheWrites} {t : BatchStream} (call : t.call = s.call)
      (caches : t.preparedQueryIds = Function.update s.preparedQueryIds node
        (writeAll (s.preparedQueryIds node) writes)) : StepTo s (.others node writes) t

theorem stepTo_of_stepCall {event : Event} {callEvent : SessionCall.Event NodeConnection}
    {u : BatchStream} (h : s.stepCall callEvent = some u) (hcall : t.call = u.call)
    (hcaches : t.preparedQueryIds = u.preparedQueryIds)
    (hevent : event ≠ .received → ∀ answer, callEvent ≠ .received answer) : s.StepTo event t := by
  obtain ⟨writes, hstep, hsame⟩ := exists_of_stepCall h
  refine .calls (hcall ▸ hstep) ?_ fun hne => SessionCall.writes_eq_nil hstep (hevent hne)
  rw [hcaches, hsame]

theorem stepTo {event : Event} (h : s.step event = some t) : s.StepTo event t := by
  cases event with
  | attempt | sent | failed | finished =>
    exact stepTo_of_stepCall h rfl rfl fun _ _ => (by rintro ⟨⟩)
  | connected connection stream =>
    obtain ⟨u, hu, rfl⟩ := Option.map_eq_some_iff.mp h
    exact stepTo_of_stepCall hu rfl rfl fun _ _ => (by rintro ⟨⟩)
  | prepare =>
    obtain ⟨connection, -, hprepare⟩ := Option.bind_eq_some_iff.mp h
    obtain ⟨u, hu, rfl⟩ := Option.map_eq_some_iff.mp hprepare
    exact stepTo_of_stepCall hu rfl rfl fun _ _ => (by rintro ⟨⟩)
  | answered answer =>
    rw [BatchStream.step] at h
    split at h
    · cases h
    · cases h
      exact .answered rfl rfl
  | received =>
    rw [BatchStream.step] at h
    split at h
    · cases h
    · obtain ⟨u, hu, rfl⟩ := Option.map_eq_some_iff.mp h
      exact stepTo_of_stepCall hu rfl rfl fun hne => absurd rfl hne
  | others node writes =>
    cases h
    exact .others rfl rfl

/-- Nothing was to be prepared: all ids are from the cache. -/
theorem Pipelined.assigned_of_hits (h : s.Pipelined) {cached : Bytes → Bytes}
    (hphase : s.call.phase = .preparing) (hcall : t.call = s.call.prepareQueries cached)
    (hsending : t.call.phase = .sending) (htaken : t.taken = cached)
    (hreceived : t.received = s.received) : t.Assigned := by
  rw [hcall, SessionCall.prepareQueries_eq] at hsending
  rw [SessionCall.prepareQueries_eq] at hcall
  split at hcall
  next hnone =>
    have hsame : t.call.uncached cached = s.call.uncached cached := by
      rw [hcall]
      rfl
    refine @assigned_of_found t [] t.cached ?_ ?_ (hreceived.trans (h.fresh hphase).2) rfl
    · rw [htaken, hsame]
      exact hnone
    · rw [htaken, hcall]
      rfl
  next first left hsome =>
    rw [hsome] at hsending
    cases hsending

/-- The last response was received: the other ids are the returned ones. -/
theorem Pipelined.assigned_of_results (h : s.Pipelined) {i : Nat} {results : List (Nat × Answer)}
    {request : Request} {answer : Answer} {arrived : List (Request × Answer)} {writes : CacheWrites}
    (hphase : s.call.phase = .prepareWaiting [i] results)
    (harrived : s.arrived = (request, answer) :: arrived)
    (hcall : s.call.handleResults (results ++ [(i, answer)]) = (t.call, writes))
    (hsending : t.call.phase = .sending) (htaken : t.taken = s.taken)
    (hreceived : t.received = s.received ++ [(request, answer)])
    (hcaches : t.preparedQueryIds = store s.preparedQueryIds s.call.connection writes) :
    t.Assigned := by
  have hcollects : s.Collects := h.collects (by rw [hphase]; trivial)
  obtain ⟨connection, hconnection⟩ := h.connection (by rw [hphase]; trivial)
  obtain ⟨hindexes, hresults, houtstanding⟩ := h.waits _ _ hphase
  rw [outstanding, harrived] at houtstanding
  have hrequest : request = s.call.prepareRequest i := (List.cons.inj houtstanding).1
  have hfst : (s.call.handleResults (results ++ [(i, answer)])).1 = t.call := by rw [hcall]
  obtain ⟨hqueries, hsame⟩ := s.call.handleResults_same (results ++ [(i, answer)])
  rw [hfst] at hqueries hsame
  obtain ⟨found, hfound, hids, hwrites⟩ := SessionCall.exists_of_handleResults_sending
    (hfst.symm ▸ hsending)
  rw [hfst, hcollects.preparedQueryIds] at hids
  rw [hcall] at hwrites
  dsimp only at hwrites
  have hstr : ∀ i, t.call.queryStr i = s.call.queryStr i := by
    intro i
    rw [SessionCall.queryStr, SessionCall.queryStr, hqueries]
  refine @assigned_of_found t found s.cached ?_ ?_ ?_ ?_
  · have huncached : t.call.uncached s.taken = s.call.uncached s.taken := by
      rw [SessionCall.uncached, hqueries]
      rfl
    rw [htaken, huncached, ← hcollects.prepareIndexes, hindexes]
    have hkeys := congrArg (List.map Prod.fst) hfound
    rw [List.map_append, List.map_map] at hkeys
    exact hkeys
  · rw [htaken, hqueries]
    exact hids
  · have hpairs : t.received = (results ++ [(i, answer)]).map fun result =>
        (s.call.prepareRequest result.1, result.2) := by
      rw [hreceived, hresults, hrequest, List.map_append]
      rfl
    rw [hpairs, hfound, List.map_map]
    refine List.map_congr_left fun entry _ => ?_
    rw [Function.comp_apply, SessionCall.prepareRequest, SessionCall.prepareRequest, hstr]
  · rw [BatchStream.cached, hsame, hconnection, hcaches, hconnection, hwrites, BatchStream.cached,
      hconnection]
    simp only [store, Function.update_self, hstr]

/-- When the request for the batch is sent, all ids are assigned. -/
theorem Pipelined.assigned {event : Event} (h : s.Pipelined) (hstep : s.step event = some t)
    (hnot : s.call.phase ≠ .sending) (hsending : t.call.phase = .sending) : t.Assigned := by
  cases event with
  | attempt | sent | failed | finished =>
    obtain ⟨writes, hcall, -⟩ := exists_of_stepCall hstep
    obtain ⟨_, heq, -⟩ | ⟨_, _, _, heq, -⟩ := SessionCall.sending_cases hcall hnot hsending
    · cases heq
    · cases heq
  | connected connection stream =>
    obtain ⟨u, hu, rfl⟩ := Option.map_eq_some_iff.mp hstep
    obtain ⟨writes, hcall, -⟩ := exists_of_stepCall hu
    obtain ⟨_, heq, -⟩ | ⟨_, _, _, heq, -⟩ := SessionCall.sending_cases hcall hnot hsending
    · cases heq
    · cases heq
  | prepare =>
    obtain ⟨connection, -, hprepare⟩ := Option.bind_eq_some_iff.mp hstep
    obtain ⟨u, hu, rfl⟩ := Option.map_eq_some_iff.mp hprepare
    obtain ⟨writes, hcall, hsame⟩ := exists_of_stepCall hu
    obtain ⟨_, heq, hphase, hprepared⟩ | ⟨_, _, _, heq, -⟩ :=
      SessionCall.sending_cases hcall hnot hsending
    · cases heq
      exact h.assigned_of_hits hphase hprepared hsending rfl (by rw [hsame])
    · cases heq
  | answered answer =>
    rw [BatchStream.step] at hstep
    split at hstep
    · cases hstep
    · cases hstep
      exact absurd hsending hnot
  | received =>
    rw [BatchStream.step] at hstep
    split at hstep
    · cases hstep
    next first arrived harrived =>
      obtain ⟨request, answer⟩ := first
      obtain ⟨u, hu, rfl⟩ := Option.map_eq_some_iff.mp hstep
      obtain ⟨writes, hcall, hsame⟩ := exists_of_stepCall hu
      obtain ⟨_, heq, -⟩ | ⟨i, results, _, heq, hphase, hresults⟩ :=
        SessionCall.sending_cases hcall hnot hsending
      · cases heq
      · cases heq
        have htaken : u.taken = s.taken := by rw [hsame]
        have hcaches : u.preparedQueryIds =
            store s.preparedQueryIds s.call.connection writes := by rw [hsame]
        exact h.assigned_of_results hphase harrived hresults hsending htaken rfl hcaches
  | others node writes =>
    cases hstep
    exact absurd hsending hnot

/-! ## Evicted ids -/

theorem counted_of_reachable (h : system.Reachable s) : s.call.Counted := by
  refine h.invariant (fun s => s.call.Counted) ?_ fun s event t hs hstep => ?_
  · rintro _ ⟨prepareAllQueries, command, caches, rfl⟩
    exact .inl rfl
  · cases stepTo hstep with
    | calls hcall => exact hs.step hcall
    | answered hsame | others hsame => rwa [hsame]

/-- The first UnPreparedQuery evicts what the batch needs from the node of the attempt. -/
theorem evicted_of_firstUnPrepared {event : Event} (hpipelined : s.Pipelined)
    (hcounted : s.call.Counted) (hstep : s.step event = some t) (hfirst : s.FirstUnPrepared t) :
    ∃ connection ∈ s.call.connection, t.Evicted connection.node := by
  obtain ⟨hnone, ex, hended⟩ := hfirst
  have hmoved : t.call ≠ s.call := by
    intro hsame
    rw [hsame] at hended
    exact absurd (congrArg List.length hended) (by simp)
  obtain ⟨callEvent, writes, hcall, hcaches⟩ : ∃ callEvent writes,
      s.call.step callEvent = some (t.call, writes) ∧
        t.preparedQueryIds = store s.preparedQueryIds s.call.connection writes := by
    cases stepTo hstep with
    | calls hcall hcaches => exact ⟨_, _, hcall, hcaches⟩
    | answered hsame | others hsame => exact absurd hsame hmoved
  obtain ⟨hopen, stored, hwrites⟩ := SessionCall.exists_of_error hcall hended
  obtain ⟨connection, hconnection⟩ := hpipelined.connection hopen
  refine ⟨connection, hconnection, fun query hquery hneeds => ?_⟩
  have hevicts : s.call.retryFlow.Evicts ErrorCode.unPreparedQuery :=
    ⟨rfl, hcounted.resolve_right fun ⟨other, hother⟩ => hnone other hother⟩
  have hkeys : s.call.evictions ErrorCode.unPreparedQuery =
      ((s.call.queries.filter Prod.snd).map Prod.fst).map fun key => (key, []) := by
    rw [SessionCall.evictions, if_pos hevicts, List.map_map]
    rfl
  rw [SessionCall.queries_of_step hcall] at hquery
  rw [hcaches, hwrites, hkeys, hconnection]
  simp only [store, Function.update_self]
  exact Math.writeAll_append_map
    (List.mem_map_of_mem (List.mem_filter.mpr ⟨hquery, hneeds⟩))

/-- Until the call receives on the node again, the ids stay evicted. -/
theorem Evicted.step {node : Nat} {event : Event} (h : s.Evicted node)
    (hleaves : s.LeavesEvicted node event) (hstep : s.step event = some t) : t.Evicted node := by
  intro query hquery hneeds
  cases stepTo hstep with
  | @calls _ callEvent writes _ hcall hcaches hquiet =>
    rw [SessionCall.queries_of_step hcall] at hquery
    have hempty := h query hquery hneeds
    rw [hcaches]
    cases hconnection : s.call.connection with
    | some connection =>
      rw [store]
      by_cases hnode : connection.node = node
      · -- the call is on the node, so it has received nothing
        have hne : event ≠ .received := by
          rintro rfl
          exact hleaves connection hconnection hnode
        rw [hquiet hne, Math.writeAll_nil, Function.update_eq_self]
        exact hempty
      · rw [Function.update_of_ne (Ne.symm hnode)]
        exact hempty
    | none => exact hempty
  | answered hsame hcaches =>
    rw [hsame] at hquery
    rw [hcaches]
    exact h query hquery hneeds
  | @others other writes _ hsame hcaches =>
    rw [hsame] at hquery
    have hempty := h query hquery hneeds
    rw [hcaches]
    by_cases hnode : other = node
    · subst hnode
      rw [Function.update_self, Math.writeAll_eq_self, hempty]
      intro write hwrite hkey
      have hmem : (write.1, true) ∈ s.call.queries := by
        rw [hkey, ← hneeds]
        exact hquery
      rw [hleaves rfl write hwrite hmem, hempty]
    · rw [Function.update_of_ne (Ne.symm hnode)]
      exact hempty

/-- With no id in the cache, all queries that need preparation are prepared. -/
theorem Evicted.prepares {node : Nat} (h : s.Evicted node) (hstep : s.step .prepare = some t)
    (hnode : ∃ connection ∈ s.call.connection, connection.node = node) :
    t.call.prepareIndexes = (List.range t.call.queries.length).filter fun i =>
      (t.call.queries[i]?.map Prod.snd).getD false := by
  obtain ⟨connection, hconnection, rfl⟩ := hnode
  obtain ⟨other, hother, hprepare⟩ := Option.bind_eq_some_iff.mp hstep
  cases hconnection.symm.trans hother
  obtain ⟨u, hu, rfl⟩ := Option.map_eq_some_iff.mp hprepare
  obtain ⟨writes, hcall, -⟩ := exists_of_stepCall hu
  have hqueries : u.call.queries = s.call.queries := SessionCall.queries_of_step hcall
  simp only [SessionCall.step] at hcall
  split at hcall
  · obtain ⟨hprepared, -⟩ := Prod.mk.inj (Option.some.inj hcall)
    show u.call.prepareIndexes = (List.range u.call.queries.length).filter _
    rw [hqueries, ← hprepared, SessionCall.prepareIndexes_prepareQueries, SessionCall.uncached]
    refine List.filter_congr fun i _ => ?_
    split
    next query hquery =>
      rw [hquery, Option.map_some, Option.getD_some]
      cases hneeds : query.2 with
      | false => rfl
      | true => simp [h query (List.mem_of_getElem? hquery) hneeds]
    next hnone =>
      rw [hnone]
      rfl
  · cases hcall

/-- In every run, an attempt assigns the ids of the batch to its queries, and the first
UnPreparedQuery makes the next attempt on the node prepare them all. -/
theorem preparesRight_of_reachable (h : system.Reachable s) : s.PreparesRight where
  assigns := fun _ _ hstep hnot hsending => (pipelined_of_reachable h).assigned hstep hnot hsending
  evicts := by
    intro event t hstep hfirst
    obtain ⟨connection, hconnection, hevicted⟩ := evicted_of_firstUnPrepared
      (pipelined_of_reachable h) (counted_of_reachable h) hstep hfirst
    refine ⟨connection, hconnection, hevicted, fun u hu v hprepare hnode => ?_⟩
    have hstays : u.Evicted connection.node := by
      refine hu.invariant (Evicted · connection.node) ?_ fun _ _ _ hs hleaves hnext =>
        hs.step hleaves hnext
      rintro _ rfl
      exact hevicted
    exact hstays.prepares hprepare hnode

/-- A query that stands twice in a batch is prepared twice, and another one not at all; then the
batch is answered with UnPreparedQuery. -/
theorem preparesRight_twice : ∃ s, system.Reachable s ∧ s.PreparesRight ∧
    s.call.preparedQueryIds = [some [1], none, some [2]] ∧
    s.cached [0x61] = [2] ∧ s.arrived.map Prod.snd = [.error ErrorCode.unPreparedQuery []] := by
  let command : CommandData :=
    ⟨[⟨[0x61], some true⟩, ⟨[0x62], some false⟩, ⟨[0x61], some true⟩], 0⟩
  have hrun : (system.run (create false command fun _ _ => []) [.attempt, .connected ⟨0, [], 0⟩ 1,
      .prepare, .sent, .answered (.result ResultKind.prepared [1]), .sent, .received,
      .answered (.result ResultKind.prepared [2]), .received, .sent,
      .answered (.error ErrorCode.unPreparedQuery [])]).map (fun s =>
        (s.call.preparedQueryIds, s.cached [0x61], s.arrived.map Prod.snd)) =
      some ([some [1], none, some [2]], [2], [.error ErrorCode.unPreparedQuery []]) := by decide
  obtain ⟨s, hs, hview⟩ := Option.map_eq_some_iff.mp hrun
  obtain ⟨hids, hview⟩ := Prod.mk.inj hview
  obtain ⟨hcached, harrived⟩ := Prod.mk.inj hview
  have hstart : system.start (create false command fun _ _ => []) := ⟨false, command, _, rfl⟩
  have hreach := Math.TransitionSystem.reachable_of_run hstart hs
  exact ⟨s, hreach, preparesRight_of_reachable hreach, hids, hcached, harrived⟩

end BatchStream

end CqlDriver
