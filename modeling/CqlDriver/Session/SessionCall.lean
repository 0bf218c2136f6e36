import CqlDriver.Session.RetryFlow

/-!
# A call of a session

`Session::query`, `execute` and `batchExecute` repeat one attempt until it succeeds or
`determinate` passes an exception on: get a connection and a stream, prepare the queries
that need it, send the request, wait for its response, and return the connection
whatever has happened. Preparing a batch sends all PREPARE messages before it waits for
the first response, and handles no response before it has them all; for `query` and
`execute` there is one query, so the same code serves them.

The connection and stream of an attempt live in variables of the call. `obtained` and
`released` record the streams that were taken from the pool and given back, `requests`
the messages given to a connection, and `ended` how each attempt has ended.

## Main definitions

* `SessionCall` — a call between two event-loop tasks
* `Session.query`, `Session.execute`, `Session.batchExecute` — a call that has just
  been made
* `SessionCall.step` — one task, with the writes to the cache of prepared ids

## Main results

* `SessionCall.stepTo` — what a step requires and does
-/

namespace CqlDriver

/-- Which function of `Session` was called. -/
inductive CallKind
  | query
  | execute
  | batchExecute
  deriving DecidableEq, Repr

/-- A query of a command. -/
structure Query where
  queryStr : Bytes
  /-- `none` takes the default of the session. -/
  needPrepare : Option Bool
  deriving DecidableEq, Repr

/-- What a `Command` or a `BatchCommand` says about its retries and its queries. -/
structure CommandData where
  queries : List Query
  maxRetries : Nat
  deriving DecidableEq, Repr

/-- A request message. A batch entry is the prepared id, empty for none, and the query. -/
inductive Request
  | query (queryStr : Bytes)
  | prepare (queryStr : Bytes)
  | execute (preparedQueryId queryStr : Bytes)
  | batch (entries : List (Bytes × Bytes))
  deriving DecidableEq, Repr

/-- How an attempt has ended. -/
inductive AttemptEnd
  | success
  /-- A step failed by itself. -/
  | exception (ex : Exception)
  /-- The server answered with an error message. -/
  | errorMessage (errorCode : Int) (ex : CallError)
  /-- An unexpected message or result kind. -/
  | unexpected (ex : CallError)
  deriving DecidableEq, Repr

/-- What the call is resolved with if the attempt is the last one. -/
def AttemptEnd.result : AttemptEnd → Except CallError Unit
  | .success => .ok ()
  | .exception ex => .error (.exception ex)
  | .errorMessage _ ex => .error ex
  | .unexpected ex => .error ex

/-- What a call waits for. -/
inductive CallPhase
  /-- The next attempt is about to start. -/
  | starting
  /-- `getConnection` is pending. -/
  | connecting
  /-- The continuation that prepares the queries is pending. -/
  | preparing
  /-- The PREPARE message of the first of these queries is being sent. -/
  | prepareSending (left : List Nat)
  /-- The response for the first of these queries is awaited. -/
  | prepareWaiting (left : List Nat) (results : List (Nat × Answer))
  | sending
  | waiting
  /-- The `finally` of an attempt is pending; `none` asks for another attempt. -/
  | finishing (next : Option (Except CallError Unit))
  | resolved (result : Except CallError Unit)
  deriving DecidableEq, Repr

/-- The attempt has its stream and has not ended. -/
def CallPhase.IsOpen : CallPhase → Prop
  | .preparing | .prepareSending _ | .prepareWaiting _ _ | .sending | .waiting => True
  | .starting | .connecting | .finishing _ | .resolved _ => False

/-- A call of a session; `κ` names the connections. -/
structure SessionCall (κ : Type) where
  kind : CallKind
  /-- The queries, each with whether it needs preparation. -/
  queries : List (Bytes × Bool)
  retryFlow : RetryFlow
  /-- `none` is a null pointer. -/
  connection : Option κ
  /-- `none` is an invalid stream; a valid one belongs to a connection. -/
  stream : Option (κ × Nat)
  /-- The queries whose PREPARE messages are sent in this attempt. -/
  prepareIndexes : List Nat
  /-- The prepared ids of the request, `none` for a query that was not prepared. -/
  preparedQueryIds : List (Option Bytes)
  /-- The kind of the result, where `query` has one. -/
  result : Option Int
  phase : CallPhase
  attempts : Nat
  ended : List AttemptEnd
  obtained : List (κ × Nat)
  released : List (κ × Nat)
  requests : List (κ × Request)
  deriving DecidableEq, Repr

namespace Session

variable {κ : Type}

/-- The variables of a call before its first attempt. -/
def start (kind : CallKind) (queries : List (Bytes × Bool)) (maxRetries : Nat)
    (phase : CallPhase) : SessionCall κ where
  kind := kind
  queries := queries
  retryFlow := .create maxRetries
  connection := none
  stream := none
  prepareIndexes := []
  preparedQueryIds := []
  result := none
  phase := phase
  attempts := 0
  ended := []
  obtained := []
  released := []
  requests := []

/-- Set default values in a command from the session configuration. -/
def setDefaultValues (prepareAllQueries : Bool) (queries : List Query) : List (Bytes × Bool) :=
  queries.map fun query => (query.queryStr, query.needPrepare.getD prepareAllQueries)

/-- The start of all three functions; `none` is an invalid command. -/
def call (kind : CallKind) (prepareAllQueries : Bool) : Option CommandData → SessionCall κ
  | none => start kind [] 0 (.resolved (.error (.exception (logicException "invalid command"))))
  | some command =>
    start kind (setDefaultValues prepareAllQueries command.queries) command.maxRetries
      -- a command has one query, so the shortcut for an empty batch is never taken for it
      (if command.queries = [] then .resolved (.ok ()) else .starting)

/-- A command has one query. -/
def ofCommand (command : Option (Query × Nat)) : Option CommandData :=
  command.map fun command => ⟨[command.1], command.2⟩

/-- Execute the query command and return the result set. -/
def query (prepareAllQueries : Bool) (command : Option (Query × Nat)) : SessionCall κ :=
  call .query prepareAllQueries (ofCommand command)

/-- Execute a single modification command. -/
def execute (prepareAllQueries : Bool) (command : Option (Query × Nat)) : SessionCall κ :=
  call .execute prepareAllQueries (ofCommand command)

/-- Perform multiple modification commands in batch. -/
def batchExecute (prepareAllQueries : Bool) (command : Option CommandData) : SessionCall κ :=
  call .batchExecute prepareAllQueries command

end Session

namespace SessionCall

variable {κ : Type}

/-- Writes to the cache of prepared ids of a node, in order; an empty id evicts. -/
abbrev CacheWrites := List (Bytes × Bytes)

/-! ## The texts of the exceptions -/

/-- The type of the request in the text of an exception. -/
def requestType (c : SessionCall κ) : String :=
  match c.kind with
  | .query | .execute => "QUERY"
  | .batchExecute => "BATCH"

/-- The label in front of the queries in the text of an exception. -/
def queriesLabel (c : SessionCall κ) : String :=
  match c.kind with
  | .query | .execute => ", query: "
  | .batchExecute => ", queries: "

/-- The queries in the text of an exception. A batch has a semicolon and a space behind
each of them, and drops the last character. -/
def queriesText (c : SessionCall κ) : Bytes :=
  match c.kind with
  | .query | .execute => c.queries.flatMap Prod.fst
  | .batchExecute => (c.queries.flatMap fun query => query.1 ++ [0x3b, 0x20]).dropLast

def unexpectedMessage (requestType : String) : CallError :=
  .exception (logicException ("unexpected response to " ++ requestType ++ " message:"))

def unexpectedResultKind (requestType : String) : CallError :=
  .exception (logicException ("unexpected result kind to " ++ requestType ++ " message:"))

/-! ## The end of an attempt -/

/-- The exception handler of an attempt, reached with a budget and an exception. -/
def fail (c : SessionCall κ) (flow : RetryFlow) (attempt : AttemptEnd) (ex : CallError) :
    SessionCall κ :=
  { c with
    retryFlow := (flow.determinate ex).1
    phase := .finishing ((flow.determinate ex).2.map Except.error)
    ended := c.ended ++ [attempt] }

/-- A step failed by itself. -/
def failWith (c : SessionCall κ) (ex : Exception) : SessionCall κ :=
  c.fail c.retryFlow (.exception ex) (.exception ex)

/-- Handle error message. -/
def handleErrorMessage (c : SessionCall κ) (errorCode : Int) (errorMessage : Bytes) :
    SessionCall κ :=
  let flow := c.retryFlow.handleErrorMessage errorCode
  let ex := flow.errorMessageException errorCode errorMessage c.queriesLabel c.queriesText
  c.fail flow (.errorMessage errorCode ex) ex

/-- The evictions of an error message: every query that needs preparation. -/
def evictions (c : SessionCall κ) (errorCode : Int) : CacheWrites :=
  if c.retryFlow.Evicts errorCode then
    (c.queries.filter Prod.snd).map fun query => (query.1, [])
  else
    []

/-- Handle unexpected message or unexpected kind in result message. -/
def handleUnexpected (c : SessionCall κ) (ex : CallError) : SessionCall κ :=
  c.fail c.retryFlow.handleUnexpected (.unexpected ex) ex

/-- The attempt was successful. -/
def succeed (c : SessionCall κ) : SessionCall κ :=
  { c with phase := .finishing (some (.ok ())), ended := c.ended ++ [.success] }

/-! ## Sending -/

/-- The QUERY, EXECUTE or BATCH message. -/
def request (c : SessionCall κ) : Request :=
  match c.kind, c.queries, c.preparedQueryIds with
  | .batchExecute, queries, ids =>
    .batch ((ids.map fun id => id.getD []).zip (queries.map Prod.fst))
  | _, (queryStr, _) :: _, some id :: _ => .execute id queryStr
  | _, (queryStr, _) :: _, _ => .query queryStr
  | _, [], _ => .query []

/-- Give a message to the connection. -/
def sendMessage (c : SessionCall κ) (request : Request) : SessionCall κ :=
  { c with requests := c.requests ++ (c.connection.map fun connection => (connection, request)).toList }

/-- Send QUERY, EXECUTE or BATCH. -/
def sendRequest (c : SessionCall κ) : SessionCall κ :=
  { c.sendMessage c.request with phase := .sending }

/-- Send the PREPARE messages that are left, or wait for the first response. -/
def sendPrepares (c : SessionCall κ) : List Nat → SessionCall κ
  | [] => { c with phase := .prepareWaiting c.prepareIndexes [] }
  | i :: left =>
    { c.sendMessage (.prepare ((c.queries[i]?.map Prod.fst).getD [])) with
      phase := .prepareSending (i :: left) }

/-- The id that the cache of the node has for a query that needs preparation. -/
def cachedId (cached : Bytes → Bytes) (query : Bytes × Bool) : Option Bytes :=
  if query.2 = true ∧ cached query.1 ≠ [] then some (cached query.1) else none

/-- Prepare the queries: hits of the cache are taken over, the others are prepared. -/
def prepareQueries (c : SessionCall κ) (cached : Bytes → Bytes) : SessionCall κ :=
  let prepareIndexes := (List.range c.queries.length).filter fun i =>
    match c.queries[i]? with
    | some query => query.2 && (cached query.1).isEmpty
    | none => false
  let prepared := { c with prepareIndexes, preparedQueryIds := c.queries.map (cachedId cached) }
  match prepareIndexes with
  | [] => prepared.sendRequest
  | first :: left => prepared.sendPrepares (first :: left)

/-- Handle the results of the PREPARE messages in order. -/
def handleResults (c : SessionCall κ) : List (Nat × Answer) → SessionCall κ × CacheWrites
  | [] => (c.sendRequest, [])
  | (i, .result kind preparedQueryId) :: rest =>
    if kind = ResultKind.prepared then
      let result :=
        handleResults { c with preparedQueryIds := c.preparedQueryIds.set i (some preparedQueryId) }
          rest
      (result.1, ((c.queries[i]?.map Prod.fst).getD [], preparedQueryId) :: result.2)
    else
      (c.handleUnexpected (unexpectedResultKind "PREPARE"), [])
  | (_, .error errorCode errorMessage) :: _ =>
    (c.handleErrorMessage errorCode errorMessage, c.evictions errorCode)
  | (_, .other _) :: _ => (c.handleUnexpected (unexpectedMessage "PREPARE"), [])

/-- Handle the response to QUERY, EXECUTE or BATCH. -/
def handleResponse (c : SessionCall κ) : Answer → SessionCall κ × CacheWrites
  | .result kind _ =>
    let result := match c.kind with
      | .query => some kind
      | .execute | .batchExecute => none
    ({ c with result }.succeed, [])
  | .error errorCode errorMessage =>
    (c.handleErrorMessage errorCode errorMessage, c.evictions errorCode)
  | .other _ => (c.handleUnexpected (unexpectedMessage c.requestType), [])

/-- The end of the call, with the assertion of `query`. -/
def resolve (c : SessionCall κ) : Except CallError Unit → Except CallError Unit
  | .ok () =>
    match c.kind, c.result with
    | .query, none => .error (.exception (logicException "returning invalid result"))
    | _, _ => .ok ()
  | .error ex => .error ex

/-- What follows an attempt: the next one, or the end of the call. -/
def nextPhase (c : SessionCall κ) : Option (Except CallError Unit) → CallPhase
  | none => .starting
  | some result => .resolved (c.resolve result)

/-! ## Events -/

/-- What can happen next. -/
inductive Event (κ : Type)
  /-- The next iteration starts. -/
  | attempt
  /-- `getConnection` is resolved. -/
  | connected (connection : κ) (stream : Nat)
  /-- The continuation that prepares, with the cache of the node at that moment. -/
  | prepare (cached : Bytes → Bytes)
  | sent
  | received (answer : Answer)
  /-- `getConnection`, preparing, a send or a wait fails. -/
  | failed (ex : Exception)
  /-- The `finally` of an attempt; `moved` tells that the connection went to a waiter. -/
  | finished (moved : Bool)

/-- One task of the call. -/
def step (c : SessionCall κ) : Event κ → Option (SessionCall κ × CacheWrites)
  | .attempt =>
    match c.phase with
    | .starting => some ({ c with phase := .connecting, attempts := c.attempts + 1 }, [])
    | _ => none
  | .connected connection stream =>
    match c.phase with
    | .connecting =>
      some ({ c with
        connection := some connection
        -- the move assignment closes a stream that is still valid
        stream := some (connection, stream)
        obtained := c.obtained ++ [(connection, stream)]
        released := c.released ++ c.stream.toList
        phase := .preparing }, [])
    | _ => none
  | .prepare cached =>
    match c.phase with
    | .preparing => some (c.prepareQueries cached, [])
    | _ => none
  | .sent =>
    match c.phase with
    | .prepareSending (_ :: left) => some (c.sendPrepares left, [])
    | .sending => some ({ c with phase := .waiting }, [])
    | _ => none
  | .received answer =>
    match c.phase with
    | .prepareWaiting [i] results => some (c.handleResults (results ++ [(i, answer)]))
    | .prepareWaiting (i :: j :: left) results =>
      some ({ c with phase := .prepareWaiting (j :: left) (results ++ [(i, answer)]) }, [])
    | .waiting => some (c.handleResponse answer)
    | _ => none
  | .failed ex =>
    match c.phase with
    | .connecting | .preparing | .prepareSending _ | .prepareWaiting _ _ | .sending | .waiting =>
      some (c.failWith ex, [])
    | _ => none
  | .finished moved =>
    match c.phase with
    | .finishing next =>
      match c.connection, c.stream with
      | some connection, some stream =>
        some ({ c with
          connection := if moved then none else some connection
          stream := none
          released := c.released ++ [stream]
          phase := c.nextPhase next }, [])
      | _, _ => some ({ c with phase := c.nextPhase next }, [])
    | _ => none

/-! ## What the steps do -/

/-- The tasks that are left in an attempt, and more than that before the next one. -/
def rank (c : SessionCall κ) : Nat :=
  match c.phase with
  | .starting => 2 * c.queries.length + 7
  | .connecting => 2 * c.queries.length + 6
  | .preparing => 2 * c.queries.length + 5
  | .prepareSending left => c.queries.length + 4 + left.length
  | .prepareWaiting left _ => 4 + left.length
  | .sending => 4
  | .waiting => 3
  | .finishing none => 2 * c.queries.length + 8
  | .finishing (some _) => 1
  | .resolved _ => 0

/-- No more PREPARE messages than queries. -/
def Fits (c : SessionCall κ) : Prop := c.prepareIndexes.length ≤ c.queries.length

/-- What the steps between two attempts leave alone. -/
structure SameAttempt (c d : SessionCall κ) : Prop where
  kind : d.kind = c.kind
  queries : d.queries = c.queries
  connection : d.connection = c.connection
  stream : d.stream = c.stream
  attempts : d.attempts = c.attempts
  obtained : d.obtained = c.obtained
  released : d.released = c.released

/-- The attempt goes on. -/
structure GoesOn (c d : SessionCall κ) : Prop extends SameAttempt c d where
  isOpen : d.phase.IsOpen
  retryFlow : d.retryFlow = c.retryFlow
  ended : d.ended = c.ended
  fits : c.Fits → d.Fits ∧ d.rank < c.rank

/-- The attempt ends with an exception, which reaches `determinate` with this budget. -/
structure EndsWith (c : SessionCall κ) (flow : RetryFlow) (attempt : AttemptEnd) (ex : CallError)
    (d : SessionCall κ) : Prop extends SameAttempt c d where
  retryFlow : d.retryFlow = (flow.determinate ex).1
  phase : d.phase = .finishing ((flow.determinate ex).2.map Except.error)
  ended : d.ended = c.ended ++ [attempt]
  prepareIndexes : d.prepareIndexes = c.prepareIndexes

/-- How an attempt ends. -/
inductive Ends (c : SessionCall κ) (d : SessionCall κ) : Prop
  | exception {ex : Exception} (ends : EndsWith c c.retryFlow (.exception ex) (.exception ex) d)
  | errorMessage {errorCode : Int} {errorMessage : Bytes} {label : String} {queries : Bytes}
      {ex : CallError}
      (ex_eq : ex = (c.retryFlow.handleErrorMessage errorCode).errorMessageException errorCode
        errorMessage label queries)
      (ends : EndsWith c (c.retryFlow.handleErrorMessage errorCode) (.errorMessage errorCode ex)
        ex d)
  | unexpected {ex : CallError} (ne_retry : ex ≠ .retry)
      (ends : EndsWith c c.retryFlow.handleUnexpected (.unexpected ex) ex d)
  | success (same : SameAttempt c d) (retryFlow : d.retryFlow = c.retryFlow)
      (phase : d.phase = .finishing (some (.ok ()))) (ended : d.ended = c.ended ++ [.success])
      (prepareIndexes : d.prepareIndexes = c.prepareIndexes)
      (result : d.kind = .query → d.result ≠ none)

/-- What a step requires and does. -/
inductive StepTo (c : SessionCall κ) : SessionCall κ → Prop
  | started (phase_eq : c.phase = .starting) :
      StepTo c { c with phase := .connecting, attempts := c.attempts + 1 }
  | connected {connection : κ} {stream : Nat} (phase_eq : c.phase = .connecting) :
      StepTo c { c with
        connection := some connection
        stream := some (connection, stream)
        obtained := c.obtained ++ [(connection, stream)]
        released := c.released ++ c.stream.toList
        phase := .preparing }
  | goesOn {d : SessionCall κ} (isOpen : c.phase.IsOpen) (goesOn : c.GoesOn d) : StepTo c d
  | ends {d : SessionCall κ} (isOpen : c.phase.IsOpen) (ends : c.Ends d) : StepTo c d
  | notConnected {ex : Exception} (phase_eq : c.phase = .connecting) : StepTo c (c.failWith ex)
  | returned {next : Option (Except CallError Unit)} {connection : κ} {stream : κ × Nat}
      {left : Option κ} (phase_eq : c.phase = .finishing next)
      (connection_eq : c.connection = some connection) (stream_eq : c.stream = some stream) :
      StepTo c { c with
        connection := left
        stream := none
        released := c.released ++ [stream]
        phase := c.nextPhase next }
  | nothingToReturn {next : Option (Except CallError Unit)} (phase_eq : c.phase = .finishing next)
      (nothing : c.connection = none ∨ c.stream = none) :
      StepTo c { c with phase := c.nextPhase next }

variable {c d : SessionCall κ}

theorem SameAttempt.refl (c : SessionCall κ) : SameAttempt c c := ⟨rfl, rfl, rfl, rfl, rfl, rfl, rfl⟩

theorem handleErrorMessage_ends (c : SessionCall κ) (errorCode : Int) (errorMessage : Bytes) :
    c.Ends (c.handleErrorMessage errorCode errorMessage) :=
  .errorMessage rfl ⟨⟨rfl, rfl, rfl, rfl, rfl, rfl, rfl⟩, rfl, rfl, rfl, rfl⟩

theorem handleUnexpected_ends {ex : CallError} (h : ex ≠ .retry) :
    c.Ends (c.handleUnexpected ex) :=
  .unexpected h ⟨⟨rfl, rfl, rfl, rfl, rfl, rfl, rfl⟩, rfl, rfl, rfl, rfl⟩

theorem handleResponse_ends (c : SessionCall κ) (answer : Answer) :
    c.Ends (c.handleResponse answer).1 := by
  cases answer with
  | result kind preparedQueryId =>
    refine .success ⟨rfl, rfl, rfl, rfl, rfl, rfl, rfl⟩ rfl rfl rfl rfl fun hquery => ?_
    have hkind : c.kind = .query := hquery
    simp [handleResponse, succeed, hkind]
  | error errorCode errorMessage => exact c.handleErrorMessage_ends errorCode errorMessage
  | other opCode => exact handleUnexpected_ends CallError.noConfusion

/-- Sending the request goes on from any open phase before it. -/
theorem sendRequest_goesOn (hrank : 4 < c.rank) : c.GoesOn c.sendRequest where
  toSameAttempt := ⟨rfl, rfl, rfl, rfl, rfl, rfl, rfl⟩
  isOpen := trivial
  retryFlow := rfl
  ended := rfl
  fits := fun hfits => ⟨hfits, hrank⟩

/-! The prepared ids are only read when the request is made. -/

section PreparedIds

variable {ids : List (Option Bytes)}

theorem SameAttempt.of_ids (h : SameAttempt { c with preparedQueryIds := ids } d) :
    SameAttempt c d :=
  ⟨h.kind, h.queries, h.connection, h.stream, h.attempts, h.obtained, h.released⟩

theorem GoesOn.of_ids (h : GoesOn { c with preparedQueryIds := ids } d) : GoesOn c d :=
  ⟨h.toSameAttempt.of_ids, h.isOpen, h.retryFlow, h.ended, h.fits⟩

theorem EndsWith.of_ids {flow : RetryFlow} {attempt : AttemptEnd} {ex : CallError}
    (h : EndsWith { c with preparedQueryIds := ids } flow attempt ex d) :
    EndsWith c flow attempt ex d :=
  ⟨h.toSameAttempt.of_ids, h.retryFlow, h.phase, h.ended, h.prepareIndexes⟩

theorem Ends.of_ids (h : Ends { c with preparedQueryIds := ids } d) : Ends c d := by
  cases h with
  | exception ends => exact .exception ends.of_ids
  | errorMessage ex_eq ends => exact .errorMessage ex_eq ends.of_ids
  | unexpected ne_retry ends => exact .unexpected ne_retry ends.of_ids
  | success same retryFlow phase ended prepareIndexes result =>
    exact .success same.of_ids retryFlow phase ended prepareIndexes result

end PreparedIds

/-- Either every PREPARE message was answered with an id and the request is sent, or the
attempt ends. -/
theorem handleResults_cases (results : List (Nat × Answer)) (hrank : 4 < c.rank) :
    c.GoesOn (c.handleResults results).1 ∨ c.Ends (c.handleResults results).1 := by
  induction results generalizing c with
  | nil => exact .inl (sendRequest_goesOn hrank)
  | cons first rest ih =>
    obtain ⟨i, answer⟩ := first
    cases answer with
    | result kind preparedQueryId =>
      rw [handleResults]
      split
      · have hrest := @ih { c with
          preparedQueryIds := c.preparedQueryIds.set i (some preparedQueryId) } hrank
        exact hrest.imp GoesOn.of_ids Ends.of_ids
      · exact .inr (handleUnexpected_ends CallError.noConfusion)
    | error errorCode errorMessage => exact .inr (c.handleErrorMessage_ends errorCode errorMessage)
    | other opCode => exact .inr (handleUnexpected_ends CallError.noConfusion)

/-- Preparing sends the request or the first PREPARE message. -/
theorem prepareQueries_goesOn (cached : Bytes → Bytes) (hphase : c.phase = .preparing) :
    c.GoesOn (c.prepareQueries cached) := by
  have hrank : c.rank = 2 * c.queries.length + 5 := by
    rw [rank, hphase]
  have hlength : ∀ test : Nat → Bool,
      ((List.range c.queries.length).filter test).length ≤ c.queries.length := by
    intro test
    exact (List.length_filter_le _ _).trans (Nat.le_of_eq List.length_range)
  simp only [prepareQueries]
  split
  next hnone =>
    refine ⟨⟨rfl, rfl, rfl, rfl, rfl, rfl, rfl⟩, trivial, rfl, rfl, fun _ => ⟨hlength _, ?_⟩⟩
    rw [hrank]
    show 4 < 2 * c.queries.length + 5
    omega
  next first left hsome =>
    refine ⟨⟨rfl, rfl, rfl, rfl, rfl, rfl, rfl⟩, trivial, rfl, rfl, fun _ => ⟨hlength _, ?_⟩⟩
    have hle := hlength fun i =>
      match c.queries[i]? with
      | some query => query.2 && (cached query.1).isEmpty
      | none => false
    rw [hsome] at hle
    rw [hrank]
    show c.queries.length + 4 + (first :: left).length < _
    omega

/-- A PREPARE message was sent: the next one, or the wait for the first response. -/
theorem sendPrepares_goesOn {i : Nat} {left : List Nat}
    (hphase : c.phase = .prepareSending (i :: left)) : c.GoesOn (c.sendPrepares left) := by
  have hrank : c.rank = c.queries.length + 4 + (left.length + 1) := by
    rw [rank, hphase]
    rfl
  cases left with
  | nil =>
    refine ⟨⟨rfl, rfl, rfl, rfl, rfl, rfl, rfl⟩, trivial, rfl, rfl, fun hfits => ⟨hfits, ?_⟩⟩
    have hle : c.prepareIndexes.length ≤ c.queries.length := hfits
    rw [hrank]
    show 4 + c.prepareIndexes.length < _
    omega
  | cons j left =>
    refine ⟨⟨rfl, rfl, rfl, rfl, rfl, rfl, rfl⟩, trivial, rfl, rfl, fun hfits => ⟨hfits, ?_⟩⟩
    rw [hrank]
    show c.queries.length + 4 + (left.length + 1) < _
    exact Nat.lt_succ_self _

/-- Every step is one of these. -/
theorem stepTo {event : Event κ} {writes : CacheWrites} (h : c.step event = some (d, writes)) :
    c.StepTo d := by
  cases event with
  | attempt =>
    simp only [step] at h
    split at h
    next hphase =>
      cases h
      exact .started hphase
    · cases h
  | connected connection stream =>
    simp only [step] at h
    split at h
    next hphase =>
      cases h
      exact .connected hphase
    · cases h
  | prepare cached =>
    simp only [step] at h
    split at h
    next hphase =>
      cases h
      have hopen : c.phase.IsOpen := by rw [hphase]; trivial
      exact .goesOn hopen (prepareQueries_goesOn cached hphase)
    · cases h
  | sent =>
    simp only [step] at h
    split at h
    next hphase =>
      cases h
      have hopen : c.phase.IsOpen := by rw [hphase]; trivial
      exact .goesOn hopen (sendPrepares_goesOn hphase)
    next hphase =>
      cases h
      have hopen : c.phase.IsOpen := by rw [hphase]; trivial
      refine .goesOn hopen ⟨⟨rfl, rfl, rfl, rfl, rfl, rfl, rfl⟩, trivial, rfl, rfl,
        fun hfits => ⟨hfits, ?_⟩⟩
      have hrank : c.rank = 4 := by rw [rank, hphase]
      rw [hrank]
      exact Nat.lt_succ_self 3
    · cases h
  | received answer =>
    simp only [step] at h
    split at h
    next hphase =>
      have hopen : c.phase.IsOpen := by rw [hphase]; trivial
      have hrank : 4 < c.rank := by
        rw [rank, hphase]
        exact Nat.lt_succ_self 4
      have hd := congrArg Prod.fst (Option.some.inj h)
      subst hd
      rcases c.handleResults_cases _ hrank with hgoes | hends
      · exact .goesOn hopen hgoes
      · exact .ends hopen hends
    next hphase =>
      cases h
      have hopen : c.phase.IsOpen := by rw [hphase]; trivial
      refine .goesOn hopen ⟨⟨rfl, rfl, rfl, rfl, rfl, rfl, rfl⟩, trivial, rfl, rfl,
        fun hfits => ⟨hfits, ?_⟩⟩
      rename_i i j left results
      have hrank : c.rank = 4 + (left.length + 2) := by rw [rank, hphase]; rfl
      rw [hrank]
      exact Nat.lt_succ_self _
    next hphase =>
      have hopen : c.phase.IsOpen := by rw [hphase]; trivial
      have hd := congrArg Prod.fst (Option.some.inj h)
      subst hd
      exact .ends hopen (c.handleResponse_ends answer)
    · cases h
  | failed ex =>
    have hends : c.Ends (c.failWith ex) :=
      .exception ⟨⟨rfl, rfl, rfl, rfl, rfl, rfl, rfl⟩, rfl, rfl, rfl, rfl⟩
    cases hphase : c.phase with
    | connecting =>
      simp only [step, hphase] at h
      cases h
      exact .notConnected hphase
    | preparing | prepareSending | prepareWaiting | sending | waiting =>
      simp only [step, hphase] at h
      cases h
      exact .ends (by rw [hphase]; trivial) hends
    | starting | finishing | resolved =>
      simp only [step, hphase] at h
      cases h
  | finished moved =>
    simp only [step] at h
    split at h
    next next hphase =>
      split at h
      next connection stream hconnection hstream =>
        cases h
        exact .returned hphase hconnection hstream
      next hnothing =>
        cases h
        refine .nothingToReturn hphase ?_
        cases hconnection : c.connection with
        | none => exact .inl rfl
        | some connection =>
          cases hstream : c.stream with
          | none => exact .inr rfl
          | some stream => exact absurd hstream (hnothing connection stream hconnection)
    · cases h

end SessionCall

end CqlDriver
