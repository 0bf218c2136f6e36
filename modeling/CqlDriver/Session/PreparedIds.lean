import Mathlib.Logic.Function.Basic
import CqlDriver.Math.Lists
import CqlDriver.Math.Transition
import CqlDriver.Session.SessionCall

/-!
# Prepared ids

A node caches the prepared id of each query string. The cache is shared by everyone who
reaches the node: all connections, and the sessions of all factories over the same node
collection. The server makes an id for the keyspace of the connection that prepares, but
the key of the cache is the query string alone.

What the server has returned is a relation between connections, query strings and ids
that only grows. The lemmas about one call take it as a parameter.

## Main definitions

* `Request.preparedIds` — the ids that a request carries
* `SessionCall.SendsReturned` — a call sends only ids that were returned
* `SharedNodes` — the caches of the nodes and the calls of all sessions
* `SharedNodes.IdsMatch` — every id that is sent was returned for its query on its node,
  over a connection with the same default keyspace
* `SharedNodes.TakesOwn` — a step takes no cached id of another keyspace

## Main results

* `SharedNodes.idsMatch_of_takesOwn` — the ids match as long as every step takes its own
* `SharedNodes.not_idsMatch_of_foreign` — an id of another keyspace is sent as it is taken
* `SharedNodes.not_idsMatch_otherKeySpace` — two factories that prepare the same query
-/

namespace CqlDriver

/-- The ids that a request carries, each with its query. -/
def Request.preparedIds : Request → List (Bytes × Bytes)
  | .execute preparedQueryId queryStr => [(preparedQueryId, queryStr)]
  -- an entry with an empty id carries the query string
  | .batch entries => entries.filter fun entry => entry.1 ≠ []
  | .query _ | .prepare _ => []

/-- The ids of the request are collected. -/
def CallPhase.IsCollecting : CallPhase → Prop
  | .prepareSending _ | .prepareWaiting _ _ => True
  | .starting | .connecting | .preparing | .sending | .waiting | .finishing _ | .resolved _ => False

namespace SessionCall

variable {κ : Type} {c d : SessionCall κ} {event : Event κ} {writes : CacheWrites}
  {R R' : κ → Bytes → Bytes → Prop}

/-! ## The ids of one call -/

/-- The query string at an index. -/
def queryStr (c : SessionCall κ) (i : Nat) : Bytes := (c.queries[i]?.map Prod.fst).getD []

/-- The connection and the query of the PREPARE message whose response is awaited. -/
def awaited (c : SessionCall κ) : Option (κ × Bytes) :=
  match c.phase, c.connection with
  | .prepareWaiting (i :: _) _, some connection => some (connection, c.queryStr i)
  | _, _ => none

/-- Every id that was sent over a connection was returned over it. -/
def SendsReturned (R : κ → Bytes → Bytes → Prop) (c : SessionCall κ) : Prop :=
  ∀ connection request, (connection, request) ∈ c.requests →
    ∀ id query, (id, query) ∈ request.preparedIds → R connection query id

/-- Every id for the next request was returned over its connection. -/
def IdsReturned (R : κ → Bytes → Bytes → Prop) (c : SessionCall κ) : Prop :=
  ∀ connection, c.connection = some connection → ∀ (i : Nat) (id : Bytes),
    c.preparedQueryIds[i]? = some (some id) → R connection (c.queryStr i) id

/-- Every id in these responses was returned over the connection of the call. -/
def AnswersReturned (R : κ → Bytes → Bytes → Prop) (c : SessionCall κ)
    (results : List (Nat × Answer)) : Prop :=
  ∀ connection, c.connection = some connection → ∀ i id,
    (i, .result ResultKind.prepared id) ∈ results → R connection (c.queryStr i) id

/-- The same, of the responses that wait to be handled. -/
def ResultsReturned (R : κ → Bytes → Bytes → Prop) (c : SessionCall κ) : Prop :=
  ∀ left results, c.phase = .prepareWaiting left results → c.AnswersReturned R results

/-- What a call has sent and is about to send was returned. -/
structure Matched (R : κ → Bytes → Bytes → Prop) (c : SessionCall κ) : Prop where
  sends : c.SendsReturned R
  ids : c.phase.IsCollecting → c.IdsReturned R

theorem ResultsReturned.mono (h : c.ResultsReturned R) (hle : ∀ k q id, R k q id → R' k q id) :
    c.ResultsReturned R' := by
  intro left results hphase connection hconnection i id hmem
  exact hle _ _ _ (h left results hphase connection hconnection i id hmem)

theorem Matched.mono (h : c.Matched R) (hle : ∀ k q id, R k q id → R' k q id) : c.Matched R' where
  sends := fun _ _ hsent id query hid => hle _ _ _ (h.sends _ _ hsent id query hid)
  ids := fun hphase connection hconnection i id hid =>
    hle _ _ _ (h.ids hphase connection hconnection i id hid)

/-! ## The parts of a step -/

/-- An id in the request comes from the ids that were collected. -/
theorem mem_preparedIds_request {id query : Bytes} (h : (id, query) ∈ c.request.preparedIds) :
    ∃ i : Nat, c.preparedQueryIds[i]? = some (some id) ∧ c.queryStr i = query := by
  rw [request] at h
  split at h
  next hqueries hids =>
    obtain ⟨hentry, hne⟩ := List.mem_filter.mp h
    obtain ⟨i, hi⟩ := List.mem_iff_getElem?.mp hentry
    rw [List.getElem?_zip_eq_some, List.getElem?_map, List.getElem?_map] at hi
    obtain ⟨hid, hquery⟩ := hi
    refine ⟨i, ?_, by rw [queryStr, hquery]; rfl⟩
    obtain ⟨found, hfound, hfoundId⟩ := Option.map_eq_some_iff.mp hid
    rw [hfound]
    -- no id would be an empty one
    cases found with
    | none => exact absurd hfoundId.symm (of_decide_eq_true hne)
    | some _ => exact congrArg (some ∘ some) hfoundId
  next hqueries hids _ =>
    cases List.mem_singleton.mp h
    exact ⟨0, by rw [hids]; rfl, by rw [queryStr, hqueries]; rfl⟩
  · cases h
  · cases h

theorem SendsReturned.sendMessage {request : Request} (h : c.SendsReturned R)
    (hnew : ∀ connection, c.connection = some connection → ∀ id query,
      (id, query) ∈ request.preparedIds → R connection query id) :
    (c.sendMessage request).SendsReturned R := by
  intro connection sent hsent
  rcases List.mem_append.mp hsent with hold | hsent
  · exact h connection sent hold
  · rw [Option.mem_toList, Option.map_eq_some_iff] at hsent
    obtain ⟨found, hconnection, heq⟩ := hsent
    cases heq
    exact hnew connection hconnection

theorem SendsReturned.sendRequest (h : c.SendsReturned R) (hids : c.IdsReturned R) :
    c.sendRequest.SendsReturned R := by
  refine SendsReturned.sendMessage h fun connection hconnection id query hid => ?_
  obtain ⟨i, hi, rfl⟩ := mem_preparedIds_request hid
  exact hids connection hconnection i id hi

theorem SendsReturned.sendPrepares (h : c.SendsReturned R) (left : List Nat) :
    (c.sendPrepares left).SendsReturned R := by
  cases left with
  | nil => exact h
  | cons i left => exact SendsReturned.sendMessage h fun _ _ _ _ hid => by cases hid

/-- An id taken over is the cached id of a query that needs preparation. -/
theorem getElem?_cachedId {queries : List (Bytes × Bool)} {cached : Bytes → Bytes} {i : Nat}
    {id : Bytes} (h : (queries.map (cachedId cached))[i]? = some (some id)) :
    ∃ query, queries[i]? = some query ∧ query.2 = true ∧ cached query.1 ≠ [] ∧
      cached query.1 = id := by
  rw [List.getElem?_map, Option.map_eq_some_iff] at h
  obtain ⟨query, hquery, hid⟩ := h
  rw [cachedId, Option.ite_none_right_eq_some] at hid
  exact ⟨query, hquery, hid.1.1, hid.1.2, Option.some.inj hid.2⟩

/-- The cache has only ids that were returned over the connection of the call. -/
def CachedReturned (R : κ → Bytes → Bytes → Prop) (c : SessionCall κ) (cached : Bytes → Bytes) :
    Prop :=
  ∀ connection, c.connection = some connection → ∀ query ∈ c.queries, query.2 = true →
    cached query.1 ≠ [] → R connection query.1 (cached query.1)

theorem Matched.prepareQueries {cached : Bytes → Bytes} (h : c.SendsReturned R)
    (hcached : c.CachedReturned R cached) : (c.prepareQueries cached).Matched R := by
  have hids : IdsReturned R { c with preparedQueryIds := c.queries.map (cachedId cached) } := by
    intro connection hconnection i id hid
    obtain ⟨query, hquery, hneeds, hne, rfl⟩ := getElem?_cachedId hid
    have hstr : queryStr { c with preparedQueryIds := c.queries.map (cachedId cached) } i =
        query.1 := by
      rw [queryStr, hquery]
      rfl
    rw [hstr]
    exact hcached connection hconnection query (List.mem_of_getElem? hquery) hneeds hne
  rw [SessionCall.prepareQueries]
  split
  · exact ⟨SendsReturned.sendRequest h hids, fun hphase => hphase.elim⟩
  · refine ⟨SendsReturned.sendPrepares ?_ _, fun _ => hids⟩
    exact h

/-- No more ids are collected after the responses. -/
theorem handleResults_not_isCollecting (results : List (Nat × Answer)) :
    ¬ (c.handleResults results).1.phase.IsCollecting := by
  induction results generalizing c with
  | nil => exact fun h => h
  | cons first rest ih =>
    obtain ⟨i, answer⟩ := first
    cases answer with
    | result kind preparedQueryId =>
      rw [SessionCall.handleResults]
      split
      · exact ih
      · exact fun h => h
    | error errorCode errorMessage => exact fun h => h
    | other opCode => exact fun h => h

/-- The ids in the responses go into the request. -/
theorem SendsReturned.handleResults (results : List (Nat × Answer)) (h : c.SendsReturned R)
    (hids : c.IdsReturned R) (hresults : c.AnswersReturned R results) :
    (c.handleResults results).1.SendsReturned R := by
  induction results generalizing c with
  | nil => exact h.sendRequest hids
  | cons first rest ih =>
    obtain ⟨i, answer⟩ := first
    cases answer with
    | result kind preparedQueryId =>
      rw [SessionCall.handleResults]
      split
      next hkind =>
        subst hkind
        refine ih h ?_ fun connection hconnection j _ hmem =>
          hresults connection hconnection j _ (List.mem_cons_of_mem _ hmem)
        intro connection hconnection j id hid
        rcases Math.getElem?_set_some hid with ⟨rfl, heq⟩ | ⟨-, hold⟩
        · cases heq
          exact hresults connection hconnection j _ List.mem_cons_self
        · exact hids connection hconnection j _ hold
      · exact h
    | error errorCode errorMessage => exact h
    | other opCode => exact h

/-- Evictions write no id. -/
theorem eq_nil_of_mem_evictions {errorCode : Int} {write : Bytes × Bytes}
    (h : write ∈ c.evictions errorCode) : write.2 = [] := by
  rw [evictions] at h
  split at h
  · obtain ⟨query, -, rfl⟩ := List.mem_map.mp h
    rfl
  · cases h

/-- Handling the responses writes the ids in them. -/
theorem handleResults_writes (results : List (Nat × Answer)) {connection : κ}
    (hconnection : c.connection = some connection) (hresults : c.AnswersReturned R results) :
    ∀ write ∈ (c.handleResults results).2, write.2 ≠ [] → R connection write.1 write.2 := by
  induction results generalizing c with
  | nil => exact fun write hwrite => by cases hwrite
  | cons first rest ih =>
    obtain ⟨i, answer⟩ := first
    cases answer with
    | result kind preparedQueryId =>
      rw [SessionCall.handleResults]
      split
      next hkind =>
        subst hkind
        intro write hwrite hne
        rcases List.mem_cons.mp hwrite with rfl | hwrite
        · exact hresults connection hconnection i _ List.mem_cons_self
        · exact @ih { c with preparedQueryIds := c.preparedQueryIds.set i (some preparedQueryId) }
            hconnection (fun k hk j _ hmem => hresults k hk j _ (List.mem_cons_of_mem _ hmem))
            write hwrite hne
      · exact fun write hwrite => by cases hwrite
    | error errorCode errorMessage =>
      exact fun write hwrite hne => absurd (eq_nil_of_mem_evictions hwrite) hne
    | other opCode => exact fun write hwrite => by cases hwrite

/-! ## A step -/

/-- What a step does with prepared ids. -/
inductive IdStep (c : SessionCall κ) : Event κ → SessionCall κ → CacheWrites → Prop
  | keeps {event : Event κ} {d : SessionCall κ} {writes : CacheWrites}
      (requests : d.requests = c.requests) (phase : ¬ d.phase.IsCollecting)
      (evicts : ∀ write ∈ writes, write.2 = []) : IdStep c event d writes
  | prepares (cached : Bytes → Bytes) : IdStep c (.prepare cached) (c.prepareQueries cached) []
  | sends {i : Nat} {left : List Nat} (phase : c.phase = .prepareSending (i :: left)) :
      IdStep c .sent (c.sendPrepares left) []
  | stores {i j : Nat} {left : List Nat} {results : List (Nat × Answer)} {answer : Answer}
      (phase : c.phase = .prepareWaiting (i :: j :: left) results) :
      IdStep c (.received answer)
        { c with phase := .prepareWaiting (j :: left) (results ++ [(i, answer)]) } []
  | handles {i : Nat} {results : List (Nat × Answer)} {answer : Answer}
      (phase : c.phase = .prepareWaiting [i] results) :
      IdStep c (.received answer) (c.handleResults (results ++ [(i, answer)])).1
        (c.handleResults (results ++ [(i, answer)])).2

theorem nextPhase_not_isCollecting (next : Option (Except CallError Unit)) :
    ¬ (c.nextPhase next).IsCollecting := by
  cases next <;> exact fun h => h

theorem handleResponse_idStep (answer : Answer) :
    c.IdStep (.received answer) (c.handleResponse answer).1 (c.handleResponse answer).2 := by
  cases answer with
  | result kind preparedQueryId => exact .keeps rfl (fun h => h) fun _ h => by cases h
  | error errorCode errorMessage =>
    exact .keeps rfl (fun h => h) fun _ h => eq_nil_of_mem_evictions h
  | other opCode => exact .keeps rfl (fun h => h) fun _ h => by cases h

theorem idStep (h : c.step event = some (d, writes)) : c.IdStep event d writes := by
  have hnone : ∀ write ∈ ([] : CacheWrites), write.2 = [] := fun _ h => by cases h
  cases event with
  | attempt | connected connection stream =>
    simp only [step] at h
    split at h
    · cases h
      exact .keeps rfl (fun h => h) hnone
    · cases h
  | prepare cached =>
    simp only [step] at h
    split at h
    · cases h
      exact .prepares cached
    · cases h
  | sent =>
    simp only [step] at h
    split at h
    next hphase =>
      cases h
      exact .sends hphase
    · cases h
      exact .keeps rfl (fun h => h) hnone
    · cases h
  | received answer =>
    simp only [step] at h
    split at h
    next hphase =>
      obtain ⟨rfl, rfl⟩ := Prod.mk.inj (Option.some.inj h)
      exact .handles hphase
    next hphase =>
      cases h
      exact .stores hphase
    · obtain ⟨rfl, rfl⟩ := Prod.mk.inj (Option.some.inj h)
      exact handleResponse_idStep answer
    · cases h
  | failed ex =>
    simp only [step] at h
    split at h
    all_goals first | cases h; exact .keeps rfl (fun h => h) hnone | cases h
  | finished moved =>
    simp only [step] at h
    split at h
    · split at h
      all_goals
        cases h
        exact .keeps rfl (nextPhase_not_isCollecting _) hnone
    · cases h

/-- The answer that the server gives to the awaited PREPARE message was returned. -/
def AnswerReturned (R : κ → Bytes → Bytes → Prop) (c : SessionCall κ) : Event κ → Prop
  | .received (.result kind id) => kind = ResultKind.prepared →
      ∀ connection query, c.awaited = some (connection, query) → R connection query id
  | _ => True

/-- The responses with a new one. -/
theorem ResultsReturned.concat {i : Nat} {left : List Nat} {results : List (Nat × Answer)}
    {answer : Answer} (h : c.ResultsReturned R) (hanswer : c.AnswerReturned R (.received answer))
    (hphase : c.phase = .prepareWaiting (i :: left) results) :
    c.AnswersReturned R (results ++ [(i, answer)]) := by
  intro connection hconnection j id hmem
  rcases List.mem_append.mp hmem with hold | hnew
  · exact h _ _ hphase connection hconnection j id hold
  · cases List.mem_singleton.mp hnew
    refine hanswer rfl connection _ ?_
    rw [awaited, hphase, hconnection]

theorem ResultsReturned.of_not_isCollecting (h : ¬ c.phase.IsCollecting) :
    c.ResultsReturned R := by
  intro left results hphase
  rw [hphase] at h
  exact absurd trivial h

theorem ResultsReturned.step (h : c.ResultsReturned R) (hanswer : c.AnswerReturned R event)
    (hstep : c.step event = some (d, writes)) : d.ResultsReturned R := by
  cases idStep hstep with
  | keeps hrequests hphase hevicts => exact .of_not_isCollecting hphase
  | prepares cached =>
    rw [prepareQueries]
    split
    · exact .of_not_isCollecting fun h => h
    · exact fun _ _ hphase => by cases hphase
  | @sends i left hphase =>
    cases left with
    | nil =>
      intro left results hwaits
      cases hwaits
      exact fun _ _ _ _ hmem => by cases hmem
    | cons j left => exact fun _ _ hwaits => by cases hwaits
  | stores hphase =>
    intro left results hwaits
    cases hwaits
    exact h.concat hanswer hphase
  | @handles i results answer hphase =>
    exact .of_not_isCollecting (handleResults_not_isCollecting _)

/-- The ids that a step writes to the cache were returned. -/
theorem ResultsReturned.writes_returned (h : c.ResultsReturned R) (hanswer : c.AnswerReturned R event)
    (hstep : c.step event = some (d, writes)) {connection : κ}
    (hconnection : c.connection = some connection) :
    ∀ write ∈ writes, write.2 ≠ [] → R connection write.1 write.2 := by
  cases idStep hstep with
  | keeps hrequests hphase hevicts => exact fun write hwrite hne => absurd (hevicts write hwrite) hne
  | prepares | sends | stores => exact fun _ hwrite => by cases hwrite
  | handles hphase =>
    exact handleResults_writes _ hconnection (h.concat hanswer hphase)

/-- The cache that a step reads has only ids that were returned over the connection. -/
def TakesReturned (R : κ → Bytes → Bytes → Prop) (c : SessionCall κ) : Event κ → Prop
  | .prepare cached => c.CachedReturned R cached
  | _ => True

theorem Matched.step (h : c.Matched R) (hresults : c.ResultsReturned R)
    (hanswer : c.AnswerReturned R event) (htakes : c.TakesReturned R event)
    (hstep : c.step event = some (d, writes)) : d.Matched R := by
  cases idStep hstep with
  | keeps hrequests hphase hevicts =>
    refine ⟨?_, fun hcollecting => absurd hcollecting hphase⟩
    rw [SendsReturned, hrequests]
    exact h.sends
  | prepares cached => exact .prepareQueries h.sends htakes
  | @sends i left hphase =>
    have hids : c.IdsReturned R := h.ids (by rw [hphase]; trivial)
    refine ⟨h.sends.sendPrepares left, fun _ => ?_⟩
    cases left with
    | nil => exact hids
    | cons j left => exact hids
  | stores hphase => exact ⟨h.sends, fun _ => h.ids (by rw [hphase]; trivial)⟩
  | handles hphase =>
    have hids : c.IdsReturned R := h.ids (by rw [hphase]; trivial)
    exact ⟨h.sends.handleResults _ hids (hresults.concat hanswer hphase),
      fun hcollecting => absurd hcollecting (handleResults_not_isCollecting _)⟩

end SessionCall

/-! ## The sessions of all factories -/

/-- What a session reads of the session configuration of its factory. -/
structure SessionFactory where
  defaultKeySpace : Bytes
  prepareAllQueries : Bool
  deriving DecidableEq, Repr

/-- A connection in the pool of a factory. -/
structure NodeConnection where
  node : Nat
  /-- The default keyspace that the connection was made with. -/
  keySpace : Bytes
  /-- Tells apart the connections to a node. -/
  number : Nat
  deriving DecidableEq, Repr

/-- A call of a session of a factory. -/
structure FactoryCall where
  factory : SessionFactory
  call : SessionCall NodeConnection
  deriving DecidableEq, Repr

/-- An id in a response to PREPARE. -/
structure PreparedId where
  node : Nat
  keySpace : Bytes
  queryStr : Bytes
  preparedQueryId : Bytes
  deriving DecidableEq, Repr

/-- The nodes of a collection and the calls that reach them. -/
structure SharedNodes where
  /-- The cache of each node; an empty id is none. -/
  preparedQueryIds : Nat → Bytes → Bytes
  /-- The keyspace of the connection whose call has written an entry of a cache last. -/
  keySpaces : Nat → Bytes → Bytes
  calls : List FactoryCall
  /-- All ids that were returned so far. -/
  returned : List PreparedId

namespace SharedNodes

/-- No factory has used the nodes yet. -/
def create : SharedNodes := ⟨fun _ _ => [], fun _ _ => [], [], []⟩

/-- Write one id to the cache of the node of a connection. -/
def store (connection : NodeConnection) (s : SharedNodes) (write : Bytes × Bytes) : SharedNodes :=
  { s with
    preparedQueryIds := Function.update s.preparedQueryIds connection.node
      (Function.update (s.preparedQueryIds connection.node) write.1 write.2)
    keySpaces := Function.update s.keySpaces connection.node
      (Function.update (s.keySpaces connection.node) write.1 connection.keySpace) }

/-- Write what a step of a call writes to the cache of its node. -/
def storeAll (s : SharedNodes) (connection : Option NodeConnection)
    (writes : SessionCall.CacheWrites) : SharedNodes :=
  match connection with
  | some connection => writes.foldl (store connection) s
  | none => s

/-- A new call. -/
def addCall (s : SharedNodes) (factory : SessionFactory) (call : SessionCall NodeConnection) :
    SharedNodes :=
  { s with calls := s.calls ++ [⟨factory, call⟩] }

/-- One step of a call. -/
def stepCall (s : SharedNodes) (i : Nat) (c : FactoryCall)
    (event : SessionCall.Event NodeConnection) : Option SharedNodes :=
  (c.call.step event).map fun result =>
    { s.storeAll c.call.connection result.2 with
      calls := s.calls.set i { c with call := result.1 } }

/-- The ids that the server has returned when a call receives an answer. -/
def returnedBy (call : SessionCall NodeConnection) (answer : Answer) : List PreparedId :=
  match answer, call.awaited with
  | .result kind preparedQueryId, some (connection, query) =>
    if kind = ResultKind.prepared then
      [⟨connection.node, connection.keySpace, query, preparedQueryId⟩]
    else
      []
  | _, _ => []

/-- What can happen next. -/
inductive Event
  | query (factory : SessionFactory) (command : Option (Query × Nat))
  | execute (factory : SessionFactory) (command : Option (Query × Nat))
  | batchExecute (factory : SessionFactory) (command : Option CommandData)
  /-- A call gets a connection from the pool of its factory. -/
  | connected (i node number stream : Nat)
  /-- The queries of a call are prepared. -/
  | prepare (i : Nat)
  | received (i : Nat) (answer : Answer)
  /-- Any other step of a call. -/
  | attempt (i : Nat)
  | sent (i : Nat)
  | failed (i : Nat) (ex : Exception)
  | finished (i : Nat) (moved : Bool)

variable (serverId : Bytes → Bytes → Bytes)

/-- One event-loop task. The server makes an id from the keyspace and the query. -/
def step (s : SharedNodes) : Event → Option SharedNodes
  | .query factory command =>
    some (s.addCall factory (Session.query factory.prepareAllQueries command))
  | .execute factory command =>
    some (s.addCall factory (Session.execute factory.prepareAllQueries command))
  | .batchExecute factory command =>
    some (s.addCall factory (Session.batchExecute factory.prepareAllQueries command))
  | .connected i node number stream =>
    s.calls[i]?.bind fun c =>
      s.stepCall i c (.connected ⟨node, c.factory.defaultKeySpace, number⟩ stream)
  | .prepare i =>
    s.calls[i]?.bind fun c =>
      c.call.connection.bind fun connection =>
        s.stepCall i c (.prepare (s.preparedQueryIds connection.node))
  | .received i answer =>
    s.calls[i]?.bind fun c =>
      if ∀ id ∈ returnedBy c.call answer, id.preparedQueryId = serverId id.keySpace id.queryStr then
        stepCall { s with returned := s.returned ++ returnedBy c.call answer } i c (.received answer)
      else
        none
  | .attempt i => s.calls[i]?.bind fun c => s.stepCall i c .attempt
  | .sent i => s.calls[i]?.bind fun c => s.stepCall i c .sent
  | .failed i ex => s.calls[i]?.bind fun c => s.stepCall i c (.failed ex)
  | .finished i moved => s.calls[i]?.bind fun c => s.stepCall i c (.finished moved)

/-- The nodes of a collection from their first use on. -/
def system : Math.TransitionSystem SharedNodes Event where
  start s := s = create
  step := step serverId

/-- The server has returned an id for a query on the node of a connection, over a connection
with the same default keyspace. -/
def Returned (s : SharedNodes) (connection : NodeConnection) (query id : Bytes) : Prop :=
  ⟨connection.node, connection.keySpace, query, id⟩ ∈ s.returned

/-- Every id that was sent was returned. -/
def IdsMatch (s : SharedNodes) : Prop := ∀ c ∈ s.calls, c.call.SendsReturned s.Returned

/-- A step takes no id from the cache that was stored over a connection with another default
keyspace. -/
def TakesOwn (s : SharedNodes) : Event → Prop
  | .prepare i => ∀ c ∈ s.calls[i]?, ∀ connection ∈ c.call.connection,
      ∀ query ∈ c.call.queries, query.2 = true → s.preparedQueryIds connection.node query.1 ≠ [] →
        s.keySpaces connection.node query.1 = connection.keySpace
  | _ => True

instance (s : SharedNodes) : DecidablePred s.TakesOwn
  | .prepare i => inferInstanceAs (Decidable (∀ c ∈ s.calls[i]?, ∀ connection ∈ c.call.connection,
      ∀ query ∈ c.call.queries, query.2 = true → s.preparedQueryIds connection.node query.1 ≠ [] →
        s.keySpaces connection.node query.1 = connection.keySpace))
  | .query _ _ | .execute _ _ | .batchExecute _ _ | .connected _ _ _ _ | .received _ _ | .attempt _
  | .sent _ | .failed _ _ | .finished _ _ => inferInstanceAs (Decidable True)

/-! ## What is cached was returned -/

variable {serverId} {s t : SharedNodes} {event : Event} {connection : NodeConnection}
  {writes : SessionCall.CacheWrites}

/-- What the caches and the pending responses have was returned, as the server makes it. -/
structure Stored (serverId : Bytes → Bytes → Bytes) (s : SharedNodes) : Prop where
  results : ∀ c ∈ s.calls, c.call.ResultsReturned s.Returned
  cached : ∀ node query, s.preparedQueryIds node query ≠ [] →
    ⟨node, s.keySpaces node query, query, s.preparedQueryIds node query⟩ ∈ s.returned
  made : ∀ id ∈ s.returned, id.preparedQueryId = serverId id.keySpace id.queryStr

@[simp] theorem storeAll_calls (connection : Option NodeConnection) :
    (s.storeAll connection writes).calls = s.calls := by
  cases connection with
  | none => rfl
  | some connection =>
    induction writes generalizing s with
    | nil => rfl
    | cons write writes ih => exact ih

@[simp] theorem storeAll_returned (connection : Option NodeConnection) :
    (s.storeAll connection writes).returned = s.returned := by
  cases connection with
  | none => rfl
  | some connection =>
    induction writes generalizing s with
    | nil => rfl
    | cons write writes ih => exact ih

theorem Stored.store {write : Bytes × Bytes} (h : s.Stored serverId)
    (hwrite : write.2 ≠ [] → s.Returned connection write.1 write.2) :
    (s.store connection write).Stored serverId where
  results := h.results
  cached := by
    intro node query hne
    simp only [SharedNodes.store] at hne ⊢
    by_cases hnode : node = connection.node
    · subst hnode
      rw [Function.update_self] at hne ⊢
      by_cases hquery : query = write.1
      · subst hquery
        simp only [Function.update_self] at hne ⊢
        exact hwrite hne
      · simp only [Function.update_of_ne hquery, Function.update_self] at hne ⊢
        exact h.cached _ query hne
    · simp only [Function.update_of_ne hnode] at hne ⊢
      exact h.cached node query hne
  made := h.made

theorem Stored.storeAll {held : Option NodeConnection} (h : s.Stored serverId)
    (hwrites : ∀ connection, held = some connection → ∀ write ∈ writes, write.2 ≠ [] →
      s.Returned connection write.1 write.2) :
    (s.storeAll held writes).Stored serverId := by
  cases held with
  | none => exact h
  | some connection =>
    have hall := hwrites connection rfl
    clear hwrites
    rw [SharedNodes.storeAll]
    induction writes generalizing s with
    | nil => exact h
    | cons write writes ih =>
      exact ih (h.store (hall write List.mem_cons_self))
        fun later hlater => hall later (List.mem_cons_of_mem _ hlater)

/-! ## The steps -/

/-- What a step does: a new call, or one step of a call for which the server may have returned
an id. -/
inductive StepTo (serverId : Bytes → Bytes → Bytes) (s : SharedNodes) (event : Event) :
    SharedNodes → Prop
  | calls {factory : SessionFactory} {call : SessionCall NodeConnection}
      (requests : call.requests = []) (phase : ¬ call.phase.IsCollecting) :
      StepTo serverId s event (s.addCall factory call)
  | steps {i : Nat} {c : FactoryCall} {new : List PreparedId}
      {callEvent : SessionCall.Event NodeConnection} {call : SessionCall NodeConnection}
      {writes : SessionCall.CacheWrites} (found : s.calls[i]? = some c)
      (made : ∀ id ∈ new, id.preparedQueryId = serverId id.keySpace id.queryStr)
      (answer : c.call.AnswerReturned
        (Returned { s with returned := s.returned ++ new }) callEvent)
      (takes : ∀ cached, callEvent = .prepare cached → event = .prepare i ∧
        ∃ connection, c.call.connection = some connection ∧
          s.preparedQueryIds connection.node = cached)
      (steps : c.call.step callEvent = some (call, writes)) :
      StepTo serverId s event
        { storeAll { s with returned := s.returned ++ new } c.call.connection writes with
          calls := s.calls.set i { c with call } }

theorem call_fresh {κ : Type} (kind : CallKind) (prepareAllQueries : Bool)
    (command : Option CommandData) :
    (Session.call kind prepareAllQueries command : SessionCall κ).requests = [] ∧
      ¬ (Session.call kind prepareAllQueries command : SessionCall κ).phase.IsCollecting := by
  cases command with
  | none => exact ⟨rfl, fun h => h⟩
  | some command =>
    refine ⟨rfl, ?_⟩
    by_cases hempty : command.queries = []
    · simp [Session.call, Session.start, hempty, CallPhase.IsCollecting]
    · simp [Session.call, Session.start, hempty, CallPhase.IsCollecting]

/-- An answer that returns no id, or the id that is logged. -/
theorem answerReturned_returnedBy (s : SharedNodes) (call : SessionCall NodeConnection)
    (answer : Answer) :
    call.AnswerReturned (Returned { s with returned := s.returned ++ returnedBy call answer })
      (.received answer) := by
  cases answer with
  | result kind preparedQueryId =>
    rintro rfl connection query hawaited
    refine List.mem_append_right _ ?_
    simp [returnedBy, hawaited]
  | error | other => trivial

/-- A step of a call for which the server returns nothing. -/
theorem stepTo_of_stepCall {i : Nat} {c : FactoryCall}
    {callEvent : SessionCall.Event NodeConnection} (hc : s.calls[i]? = some c)
    (hstep : s.stepCall i c callEvent = some t) (hanswer : ∀ R, c.call.AnswerReturned R callEvent)
    (htakes : ∀ cached, callEvent = .prepare cached → event = .prepare i ∧
      ∃ connection, c.call.connection = some connection ∧
        s.preparedQueryIds connection.node = cached) : s.StepTo serverId event t := by
  obtain ⟨⟨call, writes⟩, hcall, rfl⟩ := Option.map_eq_some_iff.mp hstep
  have hsteps := @StepTo.steps serverId s event i c [] callEvent call writes hc
    (by rintro _ ⟨⟩) (hanswer _) htakes hcall
  simpa using hsteps

theorem stepTo (h : step serverId s event = some t) : s.StepTo serverId event t := by
  cases event with
  | query factory command =>
    cases h
    exact .calls (call_fresh ..).1 (call_fresh ..).2
  | execute factory command =>
    cases h
    exact .calls (call_fresh ..).1 (call_fresh ..).2
  | batchExecute factory command =>
    cases h
    exact .calls (call_fresh ..).1 (call_fresh ..).2
  | prepare i =>
    obtain ⟨c, hc, hprepare⟩ := Option.bind_eq_some_iff.mp h
    obtain ⟨connection, hconnection, hstep⟩ := Option.bind_eq_some_iff.mp hprepare
    refine stepTo_of_stepCall hc hstep (fun _ => trivial) fun cached hcached => ?_
    cases hcached
    exact ⟨rfl, connection, hconnection, rfl⟩
  | received i answer =>
    obtain ⟨c, hc, hreceived⟩ := Option.bind_eq_some_iff.mp h
    obtain ⟨hmade, hstep⟩ := Option.ite_none_right_eq_some.mp hreceived
    obtain ⟨⟨call, writes⟩, hcall, rfl⟩ := Option.map_eq_some_iff.mp hstep
    exact .steps hc hmade (answerReturned_returnedBy s c.call answer) (by rintro _ ⟨⟩) hcall
  | connected i | attempt i | sent i | failed i | finished i =>
    obtain ⟨c, hc, hstep⟩ := Option.bind_eq_some_iff.mp h
    exact stepTo_of_stepCall hc hstep (fun _ => trivial) (by rintro _ ⟨⟩)

/-! ## Every run -/

theorem returned_of_append {new : List PreparedId} {query id : Bytes}
    (h : s.Returned connection query id) :
    Returned { s with returned := s.returned ++ new } connection query id :=
  List.mem_append_left _ h

theorem Stored.step (h : s.Stored serverId) (hstep : s.StepTo serverId event t) :
    t.Stored serverId := by
  cases hstep with
  | @calls factory call hrequests hphase =>
    refine ⟨fun c hc => ?_, h.cached, h.made⟩
    rcases List.mem_append.mp hc with hold | hnew
    · exact h.results c hold
    · cases List.mem_singleton.mp hnew
      exact .of_not_isCollecting hphase
  | @steps i c new callEvent call writes hc hmade hanswer htakes hcall =>
    have hlogged : Stored serverId { s with returned := s.returned ++ new } := by
      refine ⟨fun c hc => ?_, fun node query hne => ?_, fun id hid => ?_⟩
      · exact (h.results c hc).mono fun _ _ _ => returned_of_append
      · exact List.mem_append_left _ (h.cached node query hne)
      · exact (List.mem_append.mp hid).elim (h.made id) (hmade id)
    have hresults := hlogged.results c (List.mem_of_getElem? hc)
    have hstored := hlogged.storeAll
      fun connection hconnection => hresults.writes_returned hanswer hcall hconnection
    refine ⟨fun d hd => ?_, hstored.cached, hstored.made⟩
    rcases List.mem_or_eq_of_mem_set hd with hold | rfl
    · exact hstored.results d (by rwa [storeAll_calls])
    · exact (hresults.step hanswer hcall).mono fun _ _ _ hreturned => by simpa [Returned] using hreturned

theorem Stored.create : create.Stored serverId where
  results := fun _ hc => absurd hc List.not_mem_nil
  cached := fun _ _ hne => absurd rfl hne
  made := fun _ hid => absurd hid List.not_mem_nil

theorem stored_of_reachable (h : (system serverId).Reachable s) : s.Stored serverId := by
  refine h.invariant (Stored serverId) ?_ fun s event t hs hstep => hs.step (stepTo hstep)
  rintro _ rfl
  exact .create

/-- What all calls have sent and are about to send was returned. -/
def AllMatched (s : SharedNodes) : Prop := ∀ c ∈ s.calls, c.call.Matched s.Returned

theorem AllMatched.step (h : s.AllMatched) (hstored : s.Stored serverId) (hown : s.TakesOwn event)
    (hstep : s.StepTo serverId event t) : t.AllMatched := by
  cases hstep with
  | @calls factory call hrequests hphase =>
    intro c hc
    rcases List.mem_append.mp hc with hold | hnew
    · exact h c hold
    · cases List.mem_singleton.mp hnew
      refine ⟨fun connection request hsent => ?_, fun hcollecting => absurd hcollecting hphase⟩
      rw [hrequests] at hsent
      cases hsent
  | @steps i c new callEvent call writes hc hmade hanswer htakes hcall =>
    have hmem := List.mem_of_getElem? hc
    have hresults : c.call.ResultsReturned (Returned { s with returned := s.returned ++ new }) :=
      (hstored.results c hmem).mono fun _ _ _ => returned_of_append
    have hmatched : ∀ d ∈ s.calls, d.call.Matched (Returned { s with returned := s.returned ++ new }) :=
      fun d hd => (h d hd).mono fun _ _ _ => returned_of_append
    have htaken : c.call.TakesReturned (Returned { s with returned := s.returned ++ new })
        callEvent := by
      cases callEvent with
      | prepare cached =>
        obtain ⟨rfl, connection, hconnection, rfl⟩ := htakes cached rfl
        intro _ hsame query hquery hneeds hne
        rw [hconnection] at hsame
        cases hsame
        -- the cached id was returned for the keyspace it was stored for, which is the own one
        have hcached := hstored.cached _ _ hne
        rw [hown c hc connection hconnection query hquery hneeds hne] at hcached
        exact returned_of_append hcached
      | attempt | connected | sent | received | failed | finished => trivial
    intro d hd
    have hreturned : ∀ k query id, Returned { s with returned := s.returned ++ new } k query id →
        Returned { storeAll { s with returned := s.returned ++ new } c.call.connection writes with
          calls := s.calls.set i { c with call } } k query id := by
      simp [Returned]
    rcases List.mem_or_eq_of_mem_set hd with hold | rfl
    · exact (hmatched d hold).mono hreturned
    · exact ((hmatched c hmem).step hresults hanswer htaken hcall).mono hreturned

/-- In a run in which every step takes its own ids, every id that is sent was returned for its
query on its node, over a connection with the same default keyspace. -/
theorem idsMatch_of_takesOwn (serverId : Bytes → Bytes → Bytes)
    (h : (system serverId).ReachableWhen TakesOwn s) : s.IdsMatch := by
  have hboth : s.Stored serverId ∧ s.AllMatched := by
    refine h.invariant (fun s => s.Stored serverId ∧ s.AllMatched) ?_ ?_
    · rintro _ rfl
      exact ⟨.create, fun _ hc => absurd hc List.not_mem_nil⟩
    · intro s event t hs hown hstep
      exact ⟨hs.1.step (stepTo hstep), hs.2.step hs.1 hown (stepTo hstep)⟩
  exact fun c hc => (hboth.2 c hc).sends

/-- A factory prepares a query, and a second one takes the id over for its own keyspace. -/
def twoFactories (first second : Bytes) : List Event :=
  [.query ⟨first, true⟩ (some (⟨[3], none⟩, 0)), .attempt 0, .connected 0 0 0 1, .prepare 0, .sent 0,
    .received 0 (.result ResultKind.prepared (first ++ [3])),
    .query ⟨second, true⟩ (some (⟨[3], none⟩, 0)), .attempt 1, .connected 1 0 1 1, .prepare 1]

theorem idsMatch_sameKeySpace :
    ∃ s, (system (· ++ ·)).runWhen TakesOwn create (twoFactories [1] [1]) = some s ∧
      s.IdsMatch := by
  obtain ⟨s, hrun⟩ :
      ∃ s, (system (· ++ ·)).runWhen TakesOwn create (twoFactories [1] [1]) = some s := ⟨_, rfl⟩
  exact ⟨s, hrun, idsMatch_of_takesOwn (· ++ ·) (.of_runWhen (.start rfl) hrun)⟩

theorem not_idsMatch_otherKeySpace :
    ¬ ∀ s, (system (· ++ ·)).Reachable s → s.IdsMatch := by
  intro hall
  obtain ⟨s, hrun, hcalls, hreturned⟩ : ∃ s,
      (system (· ++ ·)).run create (twoFactories [1] [2]) = some s ∧
      s.calls[1]?.map (fun c => c.call.requests) = some [(⟨0, [2], 1⟩, .execute [1, 3] [3])] ∧
      s.returned = [⟨0, [1], [3], [1, 3]⟩] := ⟨_, rfl, rfl, rfl⟩
  obtain ⟨c, hc, hrequests⟩ := Option.map_eq_some_iff.mp hcalls
  have hmatch := hall s (Math.TransitionSystem.reachable_of_run rfl hrun) c (List.mem_of_getElem? hc)
    ⟨0, [2], 1⟩ (.execute [1, 3] [3]) (by rw [hrequests]; exact List.mem_cons_self)
    [1, 3] [3] List.mem_cons_self
  rw [Returned, hreturned] at hmatch
  exact absurd hmatch (by decide)

/-! ## Taking an id of another keyspace -/

/-- A single query whose id is cached is executed at once. -/
theorem execute_mem_prepareQueries {call : SessionCall NodeConnection} {cached : Bytes → Bytes}
    {query : Bytes} (hkind : call.kind ≠ .batchExecute) (hqueries : call.queries = [(query, true)])
    (hconnection : call.connection = some connection) (hne : cached query ≠ []) :
    (connection, .execute (cached query) query) ∈ (call.prepareQueries cached).requests := by
  have hid : SessionCall.cachedId cached (query, true) = some (cached query) := if_pos ⟨rfl, hne⟩
  cases hcall : call.kind with
  | batchExecute => exact absurd hcall hkind
  | query | execute =>
    simp [SessionCall.prepareQueries, SessionCall.sendRequest, SessionCall.sendMessage,
      SessionCall.request, hqueries, hid, hconnection, hcall, hne]

/-- An id that was cached for another keyspace is sent as it is taken. When the server has
another id for the own keyspace, it does not match. -/
theorem not_idsMatch_of_foreign {i : Nat} {c : FactoryCall} {query : Bytes}
    (h : (system serverId).Reachable s) (hc : s.calls[i]? = some c)
    (hkind : c.call.kind ≠ .batchExecute) (hqueries : c.call.queries = [(query, true)])
    (hconnection : c.call.connection = some connection)
    (hne : s.preparedQueryIds connection.node query ≠ [])
    (hforeign : serverId (s.keySpaces connection.node query) query ≠
      serverId connection.keySpace query)
    (hstep : step serverId s (.prepare i) = some t) : ¬ t.IdsMatch := by
  intro hmatch
  have hstored := stored_of_reachable h
  obtain ⟨_, hsame, hprepare⟩ := Option.bind_eq_some_iff.mp hstep
  rw [hc] at hsame
  cases hsame
  obtain ⟨_, hsame, hcall⟩ := Option.bind_eq_some_iff.mp hprepare
  rw [hconnection] at hsame
  cases hsame
  obtain ⟨⟨call, writes⟩, hcallStep, rfl⟩ := Option.map_eq_some_iff.mp hcall
  have hsent : (connection, .execute (s.preparedQueryIds connection.node query) query) ∈
      call.requests := by
    rw [SessionCall.step] at hcallStep
    split at hcallStep
    · cases hcallStep
      exact execute_mem_prepareQueries hkind hqueries hconnection hne
    · cases hcallStep
  have hmem : ({ c with call } : FactoryCall) ∈ s.calls.set i { c with call } :=
    List.mem_set (List.getElem?_eq_some_iff.mp hc).1 _
  have hreturned := hmatch _ hmem _ _ hsent _ _ List.mem_cons_self
  rw [Returned, storeAll_returned] at hreturned
  -- the id was made for the keyspace it was cached for, and for the own keyspace
  have hcached := hstored.made _ (hstored.cached _ _ hne)
  exact hforeign (hcached.symm.trans (hstored.made _ hreturned))

end SharedNodes

end CqlDriver
