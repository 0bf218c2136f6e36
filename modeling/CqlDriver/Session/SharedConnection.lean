import CqlDriver.Connection.Effect

/-!
# Flows that share one connection

`Session::query`, `execute` and `batchExecute` use a connection in the same way: a
flow takes a stream, sends requests on it one after the other, waits for as many
responses, and releases the stream when it has them all or when a send or a wait
has failed. `sendMessage` writes one request at a time, in the order of the calls,
and closes the connection when a write fails.

The server answers each request with one frame that carries the stream id of the
request, and the requests of one stream in order. A response is named by the flow
and the position of the request it answers.

## Main definitions

* `Flow` — how far one flow has come
* `SharedConnection` — the connection, its flows and the server
* `SharedConnection.system` — all of them driven by events in any order
* `SharedConnection.receivedBy` — the messages a flow has received

## Main results

* `SharedConnection.stepTo` — what each event requires and does
-/

namespace CqlDriver

/-- The response to a request of a flow. -/
structure Response where
  flow : Nat
  /-- How many requests the flow had sent before this one. -/
  position : Nat
  deriving DecidableEq, Repr

/-- What a flow is doing when it does not wait for a response. -/
inductive FlowStatus
  | idle
  /-- A call of `sendMessage` is pending. -/
  | sending
  /-- A call of `sendMessage` has failed. -/
  | failed
  /-- The stream was released. -/
  | released
  deriving DecidableEq, Repr

/-- One attempt of a session call, from the opening of its stream. -/
structure Flow where
  stream : Nat
  /-- The number of calls of `sendMessage`. -/
  sent : Nat
  /-- The number of those that succeeded. -/
  succeeded : Nat
  status : FlowStatus
  deriving DecidableEq, Repr

/-- A pending call of `sendMessage`. -/
structure Sending where
  stream : Nat
  /-- The response its request will get. -/
  response : Response
  /-- The request was given to the socket. -/
  isWritten : Bool
  deriving DecidableEq, Repr

/-- One connection with its flows and the server at the other end. -/
structure SharedConnection where
  receiver : Receiver Nat Response
  /-- The free stream ids, with the end of the code's vector first. -/
  freeStreamIds : List Nat
  /-- All flows so far; a flow is named by its index. -/
  flows : List Flow
  /-- The calls of `sendMessage` in order; the first one has its turn. -/
  sending : List Sending
  /-- The requests the server has not answered, with their stream ids. -/
  server : List (Nat × Response)
  deriving DecidableEq, Repr

namespace SharedConnection

/-- A connection that has just become ready. -/
def create (maxStreams maxPendingMessages : Nat) : SharedConnection where
  receiver := .create maxStreams maxPendingMessages
  freeStreamIds := List.range' 1 (maxStreams - 1)
  flows := []
  sending := []
  server := []

/-- The messages a flow has received, in order. -/
def receivedBy (c : SharedConnection) (f : Nat) : List Response :=
  c.receiver.resolved.filterMap fun entry =>
    if entry.waiter = f then entry.outcome.message? else none

/-- A wait of the flow has failed. -/
def WaitFailed (c : SharedConnection) (f : Nat) : Prop :=
  ∃ entry ∈ c.receiver.resolved, entry.waiter = f ∧ entry.outcome.message? = none

instance (c : SharedConnection) (f : Nat) : Decidable (c.WaitFailed f) :=
  inferInstanceAs (Decidable (∃ entry ∈ c.receiver.resolved, _ ∧ _))

/-- The flow waits for nothing, and nothing it did has failed. -/
def CanGoOn (c : SharedConnection) (f : Nat) (flow : Flow) : Prop :=
  flow.status = .idle ∧ c.receiver.slot flow.stream ≠ some f ∧ ¬ c.WaitFailed f

instance (c : SharedConnection) (f : Nat) (flow : Flow) : Decidable (c.CanGoOn f flow) :=
  inferInstanceAs (Decidable (_ ∧ _ ∧ _))

/-- The flow has ended: it has all its responses, or a send or a wait has failed. -/
def HasEnded (c : SharedConnection) (f : Nat) (flow : Flow) : Prop :=
  flow.status = .failed ∨ (flow.status = .idle ∧ c.receiver.slot flow.stream ≠ some f ∧
    (c.WaitFailed f ∨ (c.receivedBy f).length = flow.sent))

instance (c : SharedConnection) (f : Nat) (flow : Flow) : Decidable (c.HasEnded f flow) :=
  inferInstanceAs (Decidable (_ ∨ (_ ∧ _ ∧ (_ ∨ _))))

/-- Rewrite one flow. -/
def setFlow (c : SharedConnection) (f : Nat) (flow : Flow) : SharedConnection :=
  { c with flows := c.flows.set f flow }

/-- What can happen next. -/
inductive Event
  /-- A new flow opens a stream. -/
  | openStream
  /-- A flow calls `sendMessage`. -/
  | callSend (f : Nat)
  /-- The request whose turn it is goes to the socket. -/
  | startSend
  /-- Its write succeeds. -/
  | finishSend
  /-- Its encoding or its write fails. -/
  | failSend
  /-- The server answers its first pending request on a stream. -/
  | serverAnswer (stream : Nat)
  /-- A flow calls `waitNextMessage`. -/
  | callWait (f : Nat)
  | receiveHeader
  | receiveBody
  | receiveError
  | startError
  | close
  /-- A flow releases its stream. -/
  | release (f : Nat)
  deriving DecidableEq, Repr

/-- One event-loop task. -/
def step (c : SharedConnection) : Event → Option SharedConnection
  | .openStream =>
    match c.freeStreamIds with
    | [] => none
    | stream :: rest =>
      some { c with freeStreamIds := rest, flows := c.flows ++ [⟨stream, 0, 0, .idle⟩] }
  | .callSend f =>
    match c.flows[f]? with
    | some flow =>
      if c.CanGoOn f flow then
        some { c.setFlow f { flow with sent := flow.sent + 1, status := .sending } with
          sending := c.sending ++ [⟨flow.stream, ⟨f, flow.sent⟩, false⟩] }
      else
        none
    | none => none
  | .startSend =>
    match c.sending with
    | ⟨stream, response, false⟩ :: rest =>
      if c.receiver.isConnected then
        some { c with
          sending := ⟨stream, response, true⟩ :: rest
          server := c.server ++ [(stream, response)] }
      else
        none
    | _ => none
  | .finishSend =>
    match c.sending with
    | ⟨_, response, true⟩ :: rest =>
      match c.flows[response.flow]? with
      | some flow =>
        some { c.setFlow response.flow
            { flow with succeeded := flow.succeeded + 1, status := .idle } with
          sending := rest }
      | none => none
    | _ => none
  | .failSend =>
    match c.sending with
    | ⟨_, response, _⟩ :: rest =>
      match c.flows[response.flow]? with
      | some flow =>
        some { c.setFlow response.flow { flow with status := .failed } with
          sending := rest
          receiver := c.receiver.close }
      | none => none
    | _ => none
  | .serverAnswer stream =>
    match c.server.find? fun request => request.1 = stream with
    | some (_, response) =>
      (c.receiver.step (.arrive stream response)).map fun receiver =>
        { c with receiver, server := c.server.eraseP fun request => request.1 = stream }
    | none => none
  | .callWait f =>
    match c.flows[f]? with
    | some flow =>
      if c.CanGoOn f flow ∧ (c.receivedBy f).length < flow.succeeded then
        (c.receiver.step (.wait flow.stream f)).map fun receiver => { c with receiver }
      else
        none
    | none => none
  | .receiveHeader => (c.receiver.step .receiveHeader).map fun receiver => { c with receiver }
  | .receiveBody => (c.receiver.step .receiveBody).map fun receiver => { c with receiver }
  | .receiveError => (c.receiver.step .receiveError).map fun receiver => { c with receiver }
  | .startError => (c.receiver.step .startError).map fun receiver => { c with receiver }
  | .close => (c.receiver.step .close).map fun receiver => { c with receiver }
  | .release f =>
    match c.flows[f]? with
    | some flow =>
      if c.HasEnded f flow then
        some { c.setFlow f { flow with status := .released } with
          freeStreamIds := flow.stream :: c.freeStreamIds }
      else
        none
    | none => none

/-- What each event requires and does. -/
inductive StepTo (c : SharedConnection) : SharedConnection → Prop
  | openStream {stream : Nat} {rest : List Nat} (free : c.freeStreamIds = stream :: rest) :
      StepTo c { c with freeStreamIds := rest, flows := c.flows ++ [⟨stream, 0, 0, .idle⟩] }
  | callSend {f : Nat} {flow : Flow} (flow_eq : c.flows[f]? = some flow)
      (goOn : c.CanGoOn f flow) :
      StepTo c { c.setFlow f { flow with sent := flow.sent + 1, status := .sending } with
        sending := c.sending ++ [⟨flow.stream, ⟨f, flow.sent⟩, false⟩] }
  | startSend {stream : Nat} {response : Response} {rest : List Sending}
      (turn : c.sending = ⟨stream, response, false⟩ :: rest)
      (connected : c.receiver.isConnected = true) :
      StepTo c { c with
        sending := ⟨stream, response, true⟩ :: rest
        server := c.server ++ [(stream, response)] }
  | finishSend {stream : Nat} {response : Response} {rest : List Sending} {flow : Flow}
      (turn : c.sending = ⟨stream, response, true⟩ :: rest)
      (flow_eq : c.flows[response.flow]? = some flow) :
      StepTo c { c.setFlow response.flow
          { flow with succeeded := flow.succeeded + 1, status := .idle } with sending := rest }
  | failSend {stream : Nat} {response : Response} {isWritten : Bool} {rest : List Sending}
      {flow : Flow} (turn : c.sending = ⟨stream, response, isWritten⟩ :: rest)
      (flow_eq : c.flows[response.flow]? = some flow) :
      StepTo c { c.setFlow response.flow { flow with status := .failed } with
        sending := rest, receiver := c.receiver.close }
  | serverAnswer {stream : Nat} {response : Response} {before after : List (Nat × Response)}
      (first : ∀ request ∈ before, request.1 ≠ stream)
      (split : c.server = before ++ (stream, response) :: after)
      (connected : c.receiver.isConnected = true) :
      StepTo c { c with
        receiver := { c.receiver with
          incoming := c.receiver.incoming ++ [(stream, response)]
          arrived := c.receiver.arrived ++ [(stream, response)] }
        server := before ++ after }
  | callWait {f : Nat} {flow : Flow} (flow_eq : c.flows[f]? = some flow)
      (goOn : c.CanGoOn f flow) (lt : (c.receivedBy f).length < flow.succeeded)
      (stream_lt : flow.stream < c.receiver.receivingPromiseMap.length) :
      StepTo c { c with receiver := c.receiver.waitNextMessage flow.stream f }
  | receive {event : Receiver.Event Nat Response} {receiver : Receiver Nat Response}
      (internal : event.IsInternal) (step : c.receiver.step event = some receiver) :
      StepTo c { c with receiver }
  | release {f : Nat} {flow : Flow} (flow_eq : c.flows[f]? = some flow)
      (ended : c.HasEnded f flow) :
      StepTo c { c.setFlow f { flow with status := .released } with
        freeStreamIds := flow.stream :: c.freeStreamIds }

/-- Every step is one of these. -/
theorem stepTo {c d : SharedConnection} {event : Event} (h : c.step event = some d) :
    c.StepTo d := by
  have hreceive : ∀ event : Receiver.Event Nat Response, event.IsInternal →
      (c.receiver.step event).map (fun receiver => { c with receiver }) = some d → c.StepTo d := by
    intro event hinternal hmap
    obtain ⟨receiver, hstep, rfl⟩ := Option.map_eq_some_iff.mp hmap
    exact .receive hinternal hstep
  cases event with
  | openStream =>
    simp only [step] at h
    split at h
    · cases h
    next hfree =>
      cases h
      exact .openStream hfree
  | callSend f =>
    simp only [step] at h
    split at h
    next hflow =>
      split at h
      next hgoOn =>
        cases h
        exact .callSend hflow hgoOn
      · cases h
    · cases h
  | startSend =>
    simp only [step] at h
    split at h
    next hturn =>
      split at h
      next hconnected =>
        cases h
        exact .startSend hturn hconnected
      · cases h
    · cases h
  | finishSend =>
    simp only [step] at h
    split at h
    next hturn =>
      split at h
      next hflow =>
        cases h
        exact .finishSend hturn hflow
      · cases h
    · cases h
  | failSend =>
    simp only [step] at h
    split at h
    next hturn =>
      split at h
      next hflow =>
        cases h
        exact .failSend hturn hflow
      · cases h
    · cases h
  | serverAnswer stream =>
    simp only [step] at h
    split at h
    next tag response hfind =>
      obtain ⟨receiver, hstep, rfl⟩ := Option.map_eq_some_iff.mp h
      obtain ⟨htag, before, after, hserver, hbefore⟩ := List.find?_eq_some_iff_append.mp hfind
      have heq : tag = stream := of_decide_eq_true htag
      subst heq
      have hfirst : ∀ request ∈ before, request.1 ≠ tag := by
        intro request hmem
        exact of_decide_eq_false (by simpa using hbefore request hmem)
      have herase : c.server.eraseP (fun request => request.1 = tag) = before ++ after := by
        rw [hserver, List.eraseP_append_right]
        · rw [List.eraseP_cons_of_pos (by simp)]
        · intro request hmem
          simpa using hfirst request hmem
      rw [herase]
      cases Receiver.stepTo hstep with
      | arrive connected => exact .serverAnswer hfirst hserver connected
    · cases h
  | callWait f =>
    simp only [step] at h
    split at h
    next hflow =>
      split at h
      next hgoOn =>
        obtain ⟨receiver, hstep, rfl⟩ := Option.map_eq_some_iff.mp h
        cases Receiver.stepTo hstep with
        | wait lt => exact .callWait hflow hgoOn.1 hgoOn.2 lt
      · cases h
    · cases h
  | receiveHeader => exact hreceive .receiveHeader trivial h
  | receiveBody => exact hreceive .receiveBody trivial h
  | receiveError => exact hreceive .receiveError trivial h
  | startError => exact hreceive .startError trivial h
  | close => exact hreceive .close trivial h
  | release f =>
    simp only [step] at h
    split at h
    next hflow =>
      split at h
      next hended =>
        cases h
        exact .release hflow hended
      · cases h
    · cases h

/-- A ready connection shared by flows that come at any time. -/
def system (maxStreams maxPendingMessages : Nat) :
    Math.TransitionSystem SharedConnection Event where
  start c := c = create maxStreams maxPendingMessages
  step := step

end SharedConnection

end CqlDriver
