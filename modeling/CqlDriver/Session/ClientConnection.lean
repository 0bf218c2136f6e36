import CqlDriver.Connection.Conversation
import CqlDriver.Connection.Effect

/-!
# Session calls on one connection

The whole of a connection at work: its stream objects, its send side, its receive side over the
bytes of the peer, and the attempts of session calls that use them. A flow is the part of a call
that has one stream. It sends its requests one after another, waits for as many messages, and gives
the stream back when it has all of them or when something has failed; then the next flow may get
the same stream id.

A flow is named by its stream object. `callers` and `waiters` say which flow has made each call of
`sendMessage` and of `waitNextMessage`. The connection is ready at the start, and `bytes` are what
comes from the peer behind the handshake.

## Main definitions

* `ClientConnection` — the parts of a connection and who uses them
* `ClientConnection.callsOf`, `ClientConnection.receivedBy` — what a flow has sent and got
* `ClientConnection.system` — flows, socket and loop in any order

## Main results

* `ClientConnection.receiver_reachable`, `ClientConnection.sender_reachable` — what the parts do in
  a connection they can do alone
-/

namespace CqlDriver

open Math (valuesOf)

/-- The promise of the call was resolved with an exception. -/
def SendCall.hasFailed (call : SendCall) : Bool :=
  match call.status with
  | .failed _ => true
  | .queued | .putting | .flushing | .sent | .throwing _ => false

/-- How many tasks a call has in front of it at most: its turn, the put, the flush, and the handler
of an exception. -/
def SendCall.tasks (call : SendCall) : Nat :=
  match call.status with
  | .queued => 4
  | .putting => 3
  | .flushing => 2
  | .throwing _ => 1
  | .sent | .failed _ => 0

/-- The tasks of the calls that were made. -/
def SendSide.Event.isOfCall {ω μ : Type*} : SendSide.Event ω μ → Bool
  | .resume _ | .putDone _ | .flushDone _ | .writeFailed _ _ | .handleException _ => true
  | .sendMessage _ _ | .setCompressor | .finishReady | .receive _ => false

/-- The tasks of the loop and the closing. -/
def ByteReceiver.Event.isOfLoop : ByteReceiver.Event → Bool
  | .wait _ => false
  | .readHeader | .readBody _ _ _ | .readFailed | .startError | .close => true

/-- A connection and the flows that use it. -/
structure ClientConnection where
  sender : SendSide Nat ReceivedFrame
  /-- The streams of the calls of `waitNextMessage`. -/
  waits : List Nat
  unread : Bytes
  cut : List Nat
  /-- The vector of free ids, and the stream object of each flow. -/
  heap : StreamHeap
  callers : List Nat
  waiters : List Nat

namespace ClientConnection

/-- A connection that has just become ready. -/
def create (maxStreams : MaxStreams) (maxPendingMessages : Nat) (hasCompressor : Bool)
    (bytes : Bytes) : ClientConnection where
  sender := { SendSide.create maxStreams.value maxPendingMessages with
    isInitializing := false
    isReady := true
    hasCompressor }
  waits := []
  unread := bytes
  cut := []
  heap := ⟨[.create 0 maxStreams], []⟩
  callers := []
  waiters := []

/-- The receive side. -/
def receiver (c : ClientConnection) : ByteReceiver :=
  ⟨⟨c.sender.receiver, c.waits⟩, c.unread, c.cut⟩

/-- The receive side has moved; what is closed is not ready, and has no compressor. -/
def withReceiver (c : ClientConnection) (receiver : ByteReceiver) : ClientConnection :=
  let isConnected := receiver.side.receiver.isConnected
  { c with
    sender := { c.sender with
      receiver := receiver.side.receiver
      isReady := c.sender.isReady && isConnected
      hasCompressor := c.sender.hasCompressor && isConnected }
    waits := receiver.side.waits
    unread := receiver.unread
    cut := receiver.cut }

/-! ## Flows -/

/-- The calls of `sendMessage` that a flow has made. -/
def callsOf (c : ClientConnection) (f : Nat) : List SendCall :=
  valuesOf (c.callers.zip c.sender.calls) f

/-- The messages a flow has got. -/
def receivedBy (c : ClientConnection) (f : Nat) : List ReceivedFrame :=
  c.sender.receiver.resolved.filterMap fun entry =>
    if c.waiters[entry.waiter]? = some f then entry.outcome.message? else none

/-- The flow has its stream. -/
def Uses (c : ClientConnection) (f : Nat) (stream : ConnectionStream) : Prop :=
  c.heap.stream? f = some stream ∧ stream.isValid = true

instance (c : ClientConnection) (f : Nat) (stream : ConnectionStream) :
    Decidable (c.Uses f stream) := inferInstanceAs (Decidable (_ ∧ _))

/-- A wait of the flow is pending. -/
def IsWaiting (c : ClientConnection) (f : Nat) : Prop :=
  ∃ entry ∈ c.sender.receiver.waiting, c.waiters[entry.2]? = some f

instance (c : ClientConnection) (f : Nat) : Decidable (c.IsWaiting f) :=
  inferInstanceAs (Decidable (∃ entry ∈ c.sender.receiver.waiting, _))

/-- Nothing that the flow has called is pending. -/
def IsIdle (c : ClientConnection) (f : Nat) : Prop :=
  (∀ call ∈ c.callsOf f, call.result.isSome = true) ∧ ¬ c.IsWaiting f

instance (c : ClientConnection) (f : Nat) : Decidable (c.IsIdle f) :=
  inferInstanceAs (Decidable ((∀ call ∈ c.callsOf f, _) ∧ _))

/-- A wait of the flow has failed. -/
def WaitFailed (c : ClientConnection) (f : Nat) : Prop :=
  ∃ entry ∈ c.sender.receiver.resolved,
    c.waiters[entry.waiter]? = some f ∧ entry.outcome.message? = none

instance (c : ClientConnection) (f : Nat) : Decidable (c.WaitFailed f) :=
  inferInstanceAs (Decidable (∃ entry ∈ c.sender.receiver.resolved, _))

/-- Something that the flow has called has failed. -/
def HasFailed (c : ClientConnection) (f : Nat) : Prop :=
  (∃ call ∈ c.callsOf f, call.hasFailed = true) ∨ c.WaitFailed f

instance (c : ClientConnection) (f : Nat) : Decidable (c.HasFailed f) :=
  inferInstanceAs (Decidable ((∃ call ∈ c.callsOf f, _) ∨ _))

/-- The flow can make its next call. -/
def CanGoOn (c : ClientConnection) (f : Nat) : Prop := c.IsIdle f ∧ ¬ c.HasFailed f

instance (c : ClientConnection) (f : Nat) : Decidable (c.CanGoOn f) :=
  inferInstanceAs (Decidable (_ ∧ _))

/-- The flow has a message for each request, or something has failed. -/
def HasEnded (c : ClientConnection) (f : Nat) : Prop :=
  c.IsIdle f ∧ (c.HasFailed f ∨ (c.receivedBy f).length = (c.callsOf f).length)

instance (c : ClientConnection) (f : Nat) : Decidable (c.HasEnded f) :=
  inferInstanceAs (Decidable (_ ∧ _))

/-! ## Events -/

/-- What can happen next. -/
inductive Event
  /-- A new flow asks for a stream; if there is none, its object is invalid. -/
  | openStream
  | callSend (f : Nat) (message : RequestMessage)
  | send (event : SendSide.Event Nat ReceivedFrame)
  | callWait (f : Nat)
  | receive (event : ByteReceiver.Event)
  /-- The flow ends, and its stream object closes. -/
  | release (f : Nat)

/-- One event-loop task. -/
def step (compress : Bytes → Appended) (c : ClientConnection) : Event → Option ClientConnection
  | .openStream => (c.heap.step (.openStream 0)).map fun heap => { c with heap }
  | .callSend f message =>
    match c.heap.stream? f with
    | some stream =>
      if c.Uses f stream ∧ c.CanGoOn f then
        (c.sender.step compress (.sendMessage message stream)).map fun sender =>
          { c with sender, callers := c.callers ++ [f] }
      else
        none
    | none => none
  | .send event =>
    if event.isOfCall then (c.sender.step compress event).map fun sender => { c with sender }
    else none
  | .callWait f =>
    match c.heap.stream? f with
    | some stream =>
      if c.Uses f stream ∧ c.CanGoOn f ∧ (c.receivedBy f).length < (c.callsOf f).length then
        (c.receiver.step (.wait stream.streamId.toNat)).map fun receiver =>
          { c.withReceiver receiver with waiters := c.waiters ++ [f] }
      else
        none
    | none => none
  | .receive event =>
    if event.isOfLoop then (c.receiver.step event).map c.withReceiver else none
  | .release f =>
    match c.heap.stream? f with
    | some stream =>
      if c.Uses f stream ∧ c.HasEnded f then
        (c.heap.step (.close f)).map fun heap => { c with heap }
      else
        none
    | none => none

/-- A ready connection used by flows that come at any time. -/
def system (compress : Bytes → Appended) (maxStreams : MaxStreams) (maxPendingMessages : Nat)
    (bytes : Bytes) : Math.TransitionSystem ClientConnection Event where
  start c := ∃ hasCompressor, c = create maxStreams maxPendingMessages hasCompressor bytes
  step := step compress

/-- What a step requires and does. -/
inductive StepTo (compress : Bytes → Appended) (c : ClientConnection) :
    Event → ClientConnection → Prop
  | openStream {heap : StreamHeap} (step : c.heap.step (.openStream 0) = some heap) :
      StepTo compress c .openStream { c with heap }
  | callSend {f : Nat} {message : RequestMessage} {stream : ConnectionStream} {sender}
      (uses : c.Uses f stream) (goOn : c.CanGoOn f)
      (step : c.sender.step compress (.sendMessage message stream) = some sender) :
      StepTo compress c (.callSend f message) { c with sender, callers := c.callers ++ [f] }
  | send {event : SendSide.Event Nat ReceivedFrame} {sender} (isOfCall : event.isOfCall = true)
      (step : c.sender.step compress event = some sender) :
      StepTo compress c (.send event) { c with sender }
  | callWait {f : Nat} {stream : ConnectionStream} {receiver : ByteReceiver}
      (uses : c.Uses f stream) (goOn : c.CanGoOn f)
      (lt : (c.receivedBy f).length < (c.callsOf f).length)
      (step : c.receiver.step (.wait stream.streamId.toNat) = some receiver) :
      StepTo compress c (.callWait f)
        { c.withReceiver receiver with waiters := c.waiters ++ [f] }
  | receive {event : ByteReceiver.Event} {receiver : ByteReceiver}
      (isOfLoop : event.isOfLoop = true) (step : c.receiver.step event = some receiver) :
      StepTo compress c (.receive event) (c.withReceiver receiver)
  | release {f : Nat} {stream : ConnectionStream} {heap : StreamHeap} (uses : c.Uses f stream)
      (ended : c.HasEnded f) (step : c.heap.step (.close f) = some heap) :
      StepTo compress c (.release f) { c with heap }

variable {compress : Bytes → Appended} {c d : ClientConnection} {event : Event}

/-- Every step is one of these. -/
theorem stepTo (h : c.step compress event = some d) : c.StepTo compress event d := by
  cases event with
  | openStream =>
    obtain ⟨heap, hheap, rfl⟩ := Option.map_eq_some_iff.mp h
    exact .openStream hheap
  | callSend f message =>
    simp only [step] at h
    split at h
    · split at h
      next hcan =>
        obtain ⟨sender, hsender, rfl⟩ := Option.map_eq_some_iff.mp h
        exact .callSend hcan.1 hcan.2 hsender
      · cases h
    · cases h
  | send event =>
    simp only [step] at h
    split at h
    next hcall =>
      obtain ⟨sender, hsender, rfl⟩ := Option.map_eq_some_iff.mp h
      exact .send hcall hsender
    · cases h
  | callWait f =>
    simp only [step] at h
    split at h
    · split at h
      next hcan =>
        obtain ⟨receiver, hreceiver, rfl⟩ := Option.map_eq_some_iff.mp h
        exact .callWait hcan.1 hcan.2.1 hcan.2.2 hreceiver
      · cases h
    · cases h
  | receive event =>
    simp only [step] at h
    split at h
    next hloop =>
      obtain ⟨receiver, hreceiver, rfl⟩ := Option.map_eq_some_iff.mp h
      exact .receive hloop hreceiver
    · cases h
  | release f =>
    simp only [step] at h
    split at h
    · split at h
      next hcan =>
        obtain ⟨heap, hheap, rfl⟩ := Option.map_eq_some_iff.mp h
        exact .release hcan.1 hcan.2 hheap
      · cases h
    · cases h

end ClientConnection

/-! ## What the tasks of the send side do -/

namespace SendSide

variable {ω μ : Type*} {compress : Bytes → Appended} {s t : SendSide ω μ} {k : Nat}
  {old new : SendCall}

/-- A task of a call writes the record of this call. An exception that is handled closes the
connection, and without a connection nothing is given to the socket. -/
structure MovesCall (s t : SendSide ω μ) (k : Nat) (old new : SendCall) : Prop where
  old_eq : s.calls[k]? = some old
  calls : t.calls = s.calls.set k new
  message : new.message = old.message
  frame : s.receiver.isConnected = false → new.frame = old.frame
  tasks_lt : new.tasks < old.tasks
  settles : (t.receiver = s.receiver ∧ t.isReady = s.isReady ∧
      t.hasCompressor = s.hasCompressor ∧ new.hasFailed = false) ∨
    (t.receiver = s.receiver.close ∧ t.isReady = false ∧ t.hasCompressor = false)

theorem movesCall_startSending (h : s.calls[k]? = some old) (hqueued : old.status = .queued) :
    ∃ new, s.MovesCall (s.startSending compress k old) k old new := by
  have htasks : old.tasks = 4 := by rw [SendCall.tasks, hqueued]
  have hthrows : 1 < old.tasks := by rw [htasks]; decide
  rw [startSending]
  split
  · exact ⟨_, h, rfl, rfl, fun _ => rfl, hthrows, .inl ⟨rfl, rfl, rfl, rfl⟩⟩
  · split
    next hconnected =>
      refine ⟨_, h, rfl, rfl, fun hclosed => ?_, ?_, .inl ⟨rfl, rfl, rfl, rfl⟩⟩
      · rw [hconnected] at hclosed
        cases hclosed
      · show 3 < old.tasks
        rw [htasks]
        decide
    · exact ⟨_, h, rfl, rfl, fun _ => rfl, hthrows, .inl ⟨rfl, rfl, rfl, rfl⟩⟩

theorem movesCall_handleException (h : s.calls[k]? = some old) (ex : Exception)
    (htasks : 0 < old.tasks) : ∃ new, s.MovesCall (s.handleException k old ex) k old new :=
  ⟨_, h, rfl, rfl, fun _ => rfl, htasks, .inr ⟨rfl, rfl, rfl⟩⟩

/-- A task that writes only the status, and not that of a failed call. -/
theorem movesCall_setCall (h : s.calls[k]? = some old) {status : SendStatus}
    (hstatus : ({ old with status } : SendCall).hasFailed = false)
    (htasks : ({ old with status } : SendCall).tasks < old.tasks) :
    ∃ new, s.MovesCall (s.setCall k { old with status }) k old new :=
  ⟨_, h, rfl, rfl, fun _ => rfl, htasks, .inl ⟨rfl, rfl, rfl, hstatus⟩⟩

/-- Every task of a call does so. -/
theorem exists_movesCall [DecidableEq ω] [DecidableEq μ] {event : Event ω μ}
    (hcall : event.isOfCall = true) (h : s.step compress event = some t) :
    ∃ k old new, s.MovesCall t k old new := by
  cases event with
  | sendMessage | setCompressor | finishReady | receive => cases hcall
  | resume k =>
    simp only [step] at h
    split at h
    next hold =>
      -- the call before was sent, or its exception is passed on
      rw [resume] at h
      split at h
      · cases h
        exact ⟨k, _, movesCall_startSending hold rfl⟩
      · cases h
        exact ⟨k, _, movesCall_handleException hold _ (Nat.zero_lt_succ _)⟩
      · cases h
    · cases h
  | putDone k =>
    simp only [step] at h
    split at h
    next hold =>
      cases h
      rw [startFlush]
      split
      · exact ⟨k, _, movesCall_setCall hold rfl (by simp [SendCall.tasks])⟩
      · exact ⟨k, _, movesCall_setCall hold rfl (by simp [SendCall.tasks])⟩
    · cases h
  | flushDone k =>
    simp only [step] at h
    split at h
    next hold =>
      cases h
      exact ⟨k, _, movesCall_setCall hold rfl (by simp [SendCall.tasks])⟩
    · cases h
  | writeFailed k ex =>
    simp only [step] at h
    -- a put or a flush; the exception is handled in a task of its own
    split at h
    next hold =>
      cases h
      exact ⟨k, _, movesCall_setCall hold rfl (by simp [SendCall.tasks])⟩
    next hold =>
      cases h
      exact ⟨k, _, movesCall_setCall hold rfl (by simp [SendCall.tasks])⟩
    · cases h
  | handleException k =>
    simp only [step] at h
    split at h
    next hold =>
      cases h
      exact ⟨k, _, movesCall_handleException hold _ (Nat.zero_lt_succ _)⟩
    · cases h

theorem MovesCall.messages (h : s.MovesCall t k old new) :
    t.calls.map SendCall.message = s.calls.map SendCall.message := by
  have hset : (s.setCall k new).calls.map SendCall.message = s.calls.map SendCall.message :=
    messages_setCall h.old_eq h.message
  rwa [setCall, ← h.calls] at hset

/-- A call of `sendMessage` with a stream that is open. -/
theorem step_sendMessage [DecidableEq ω] [DecidableEq μ] {message : RequestMessage}
    {stream : ConnectionStream} (hvalid : stream.isValid = true) :
    s.step compress (.sendMessage message stream) = some { s with
      calls := s.calls ++ [⟨{ message with streamId := stream.streamId }, .queued, none⟩] } := by
  rw [step, ConnectionStream.getStreamId, if_pos hvalid]

/-- What is closed is not ready. -/
def LostWithSocket (s : SendSide ω μ) : Prop :=
  s.receiver.isConnected = false → s.isReady = false ∧ s.hasCompressor = false

/-- A step of the receive side, on a connection that is not ready when it is closed. -/
theorem step_receive [DecidableEq ω] [DecidableEq μ] (hlost : s.LostWithSocket)
    {event : Receiver.Event ω μ} {q : Receiver ω μ} (h : s.receiver.step event = some q) :
    s.step compress (.receive event) = some { s with
      receiver := q
      isReady := s.isReady && q.isConnected
      hasCompressor := s.hasCompressor && q.isConnected } := by
  rw [step, h, Option.map_some]
  cases hconnected : s.receiver.isConnected with
  | true =>
    have hsame : ({ s.receiver with isConnected := true } : Receiver ω μ) = s.receiver := by
      rw [← hconnected]
    simp [callsClose, hsame, h]
  | false =>
    -- a closed connection has lost both already
    obtain ⟨hready, hcompressor⟩ := hlost hconnected
    simp [hready, hcompressor]

end SendSide

/-! ## What the tasks of the receive side do -/

namespace ByteReceiver

variable {s t : ByteReceiver} {event : Event}

theorem exists_of_stepSide {sideEvent : Receiver.Event Unit ReceivedFrame}
    (h : s.stepSide sideEvent = some t) :
    ∃ receiver, s.side.receiver.step (ReceiveSide.number s.side.waits.length sideEvent) =
      some receiver ∧
        t = { s with side := ⟨receiver, s.side.waits ++ ReceiveSide.waitStream sideEvent⟩ } := by
  obtain ⟨side, hside, rfl⟩ := Option.map_eq_some_iff.mp h
  obtain ⟨receiver, hreceiver, rfl⟩ := Option.map_eq_some_iff.mp hside
  exact ⟨receiver, hreceiver, rfl⟩

/-- A call of `waitNextMessage`. -/
theorem exists_of_wait {stream : Nat} (h : s.step (.wait stream) = some t) :
    stream < s.side.receiver.receivingPromiseMap.length ∧ t = { s with
      side := ⟨s.side.receiver.waitNextMessage stream s.side.waits.length,
        s.side.waits ++ [stream]⟩ } := by
  obtain ⟨receiver, hreceiver, rfl⟩ := exists_of_stepSide h
  cases Receiver.stepTo hreceiver with
  | wait lt => exact ⟨lt, rfl⟩

/-- A task of the loop closes the connection, goes on with the next frame, or reads the header of
a frame whose bytes are there. -/
theorem exists_of_isOfLoop (hloop : event.isOfLoop = true) (h : s.step event = some t) :
    t.side.waits = s.side.waits ∧
      ((∃ receiverEvent : Receiver.Event Nat ReceivedFrame, receiverEvent.IsInternal ∧
          s.side.receiver.step receiverEvent = some t.side.receiver) ∨
        ∃ stream frame, s.side.receiver.isConnected = true ∧
          s.side.receiver.loop = .readingHeader ∧ t.side.receiver = { s.side.receiver with
            loop := .readingBody stream frame
            arrived := s.side.receiver.arrived ++ [(stream, frame)] }) := by
  have hside : ∀ sideEvent, (ReceiveSide.number s.side.waits.length sideEvent).IsInternal →
      ReceiveSide.waitStream sideEvent = [] → ∀ next : ByteReceiver,
        s.stepSide sideEvent = some next → next.side.waits = s.side.waits ∧
          ∃ receiverEvent : Receiver.Event Nat ReceivedFrame, receiverEvent.IsInternal ∧
            s.side.receiver.step receiverEvent = some next.side.receiver := by
    intro sideEvent hinternal hwaits next hnext
    obtain ⟨receiver, hreceiver, rfl⟩ := exists_of_stepSide hnext
    exact ⟨by rw [hwaits, List.append_nil], _, hinternal, hreceiver⟩
  cases event with
  | wait => cases hloop
  | readHeader =>
    simp only [step] at h
    split at h
    next hconnected hreading =>
      -- a header that is not accepted ends the loop
      split at h
      next header bodyLength haccept =>
        cases h
        exact ⟨rfl, .inr ⟨_, _, hconnected, hreading, rfl⟩⟩
      · cases h
        refine ⟨rfl, .inl ⟨.receiveError, trivial, Receiver.step_receiveError ?_⟩⟩
        rw [hreading]
        rintro ⟨⟩
    · cases h
  | readBody compressor used memory =>
    simp only [step] at h
    split at h
    next stream frame hreading =>
      -- so does a body that cannot be decoded
      split at h
      next message hdecode =>
        obtain ⟨receiver, hreceiver, rfl⟩ := exists_of_stepSide h
        exact ⟨List.append_nil _, .inl ⟨.receiveBody, trivial, hreceiver⟩⟩
      · cases h
        refine ⟨rfl, .inl ⟨.receiveError, trivial, Receiver.step_receiveError ?_⟩⟩
        rw [hreading]
        rintro ⟨⟩
      · cases h
    · cases h
  | readFailed =>
    obtain ⟨hwaits, hstep⟩ := hside .receiveError trivial rfl t h
    exact ⟨hwaits, .inl hstep⟩
  | startError =>
    obtain ⟨hwaits, hstep⟩ := hside .startError trivial rfl t h
    exact ⟨hwaits, .inl hstep⟩
  | close =>
    obtain ⟨hwaits, hstep⟩ := hside .close trivial rfl t h
    exact ⟨hwaits, .inl hstep⟩

end ByteReceiver

/-! ## The parts of a connection -/

namespace ClientConnection

variable {compress : Bytes → Appended} {c d : ClientConnection} {event : Event}
  {maxStreams : MaxStreams} {maxPendingMessages : Nat} {bytes : Bytes} {order : IterationOrder}

/-- The receive side stays, or makes one step of its own. -/
theorem receiver_step (h : c.StepTo compress event d) :
    d.receiver = c.receiver ∨ ∃ event, c.receiver.step event = some d.receiver := by
  cases h with
  | openStream step => exact .inl rfl
  | @callSend f message stream sender uses goOn step =>
    rw [SendSide.step_sendMessage uses.2] at step
    cases step
    exact .inl rfl
  | send isOfCall step =>
    obtain ⟨k, old, new, hmoves⟩ := SendSide.exists_movesCall isOfCall step
    rcases hmoves.settles with ⟨hreceiver, -⟩ | ⟨hreceiver, -⟩
    · left
      rw [receiver, hreceiver]
      rfl
    · -- the handler of the exception closes the connection
      refine .inr ⟨.close, ?_⟩
      simp [receiver, hreceiver, ByteReceiver.step, ByteReceiver.stepSide, ReceiveSide.step,
        ReceiveSide.number, Receiver.step, ReceiveSide.waitStream]
  | callWait uses goOn lt step => exact .inr ⟨_, step⟩
  | receive isOfLoop step => exact .inr ⟨_, step⟩
  | release uses ended step => exact .inl rfl

/-- The receive side of a connection with its flows runs like one alone. -/
theorem receiver_reachable
    (h : (system compress maxStreams maxPendingMessages bytes).Reachable c) :
    (ByteReceiver.system maxStreams.value maxPendingMessages bytes).Reachable c.receiver := by
  refine h.invariant (fun c => (ByteReceiver.system maxStreams.value maxPendingMessages
    bytes).Reachable c.receiver) ?_ fun c event d hc hstep => ?_
  · rintro _ ⟨hasCompressor, rfl⟩
    exact .of_start rfl
  · rcases receiver_step (stepTo hstep) with hsame | ⟨event, hreceiver⟩
    · rw [hsame]
      exact hc
    · exact hc.of_step hreceiver

/-- Only calls of `sendMessage` are restricted. -/
def RestrictsCalls (sends : SendSide Nat ReceivedFrame → SendSide.Event Nat ReceivedFrame → Prop) :
    Prop :=
  ∀ s event, (∀ message stream, event ≠ .sendMessage message stream) → sends s event

/-- What is known of the send side along a run. -/
structure SenderRuns (compress : Bytes → Appended) (maxStreams : MaxStreams)
    (maxPendingMessages : Nat)
    (sends : SendSide Nat ReceivedFrame → SendSide.Event Nat ReceivedFrame → Prop)
    (c : ClientConnection) : Prop where
  restricts : RestrictsCalls sends
  reachable : (SendSide.system compress maxStreams.value maxPendingMessages).ReachableWhen sends
    c.sender
  lost : c.sender.LostWithSocket

section SenderRuns

variable {sends : SendSide Nat ReceivedFrame → SendSide.Event Nat ReceivedFrame → Prop}

/-- A step of the receive side, seen from the send side. -/
theorem SenderRuns.receive (h : c.SenderRuns compress maxStreams maxPendingMessages sends)
    {receiverEvent : Receiver.Event Nat ReceivedFrame} {q : Receiver Nat ReceivedFrame}
    (hstep : c.sender.receiver.step receiverEvent = some q) :
    SenderRuns compress maxStreams maxPendingMessages sends { c with sender := { c.sender with
      receiver := q
      isReady := c.sender.isReady && q.isConnected
      hasCompressor := c.sender.hasCompressor && q.isConnected } } := by
  refine ⟨h.restricts, .step h.reachable (a := .receive receiverEvent)
    (h.restricts _ _ fun _ _ => by rintro ⟨⟩) ?_, fun hclosed => ?_⟩
  · show c.sender.step compress (.receive receiverEvent) = _
    exact SendSide.step_receive h.lost hstep
  · have hq : q.isConnected = false := hclosed
    simp [hq]

theorem SenderRuns.step (h : c.SenderRuns compress maxStreams maxPendingMessages sends)
    (hincoming : c.sender.receiver.incoming = [])
    (hallowed : ∀ f message, event = .callSend f message →
      ∀ stream, sends c.sender (.sendMessage message stream))
    (hstep : c.StepTo compress event d) :
    d.SenderRuns compress maxStreams maxPendingMessages sends := by
  cases hstep with
  | openStream step => exact ⟨h.restricts, h.reachable, h.lost⟩
  | @callSend f message stream sender uses goOn step =>
    refine ⟨h.restricts, .step h.reachable (a := .sendMessage message stream)
      (hallowed f message rfl stream) step, ?_⟩
    rw [SendSide.step_sendMessage uses.2] at step
    cases step
    exact h.lost
  | @send event sender isOfCall step =>
    refine ⟨h.restricts, .step h.reachable (a := event) ?_ step, ?_⟩
    · -- only a call brings a message
      refine h.restricts _ _ fun message stream hsame => ?_
      rw [hsame] at isOfCall
      cases isOfCall
    · obtain ⟨k, old, new, hmoves⟩ := SendSide.exists_movesCall isOfCall step
      intro hclosed
      rcases hmoves.settles with ⟨hreceiver, hready, hcompressor, -⟩ | ⟨-, hnot⟩
      · have hbefore : c.sender.receiver.isConnected = false := hreceiver ▸ hclosed
        exact (h.lost hbefore).imp hready.trans hcompressor.trans
      · exact hnot
  | @callWait f stream receiver uses goOn lt step =>
    obtain ⟨hlt, rfl⟩ := ByteReceiver.exists_of_wait step
    have hwait : c.sender.receiver.step (.wait stream.streamId.toNat c.waits.length) =
        some (c.sender.receiver.waitNextMessage stream.streamId.toNat c.waits.length) := if_pos hlt
    have hnext := h.receive hwait
    exact ⟨h.restricts, hnext.reachable, hnext.lost⟩
  | @receive event receiver isOfLoop step =>
    rcases (ByteReceiver.exists_of_isOfLoop isOfLoop step).2 with
      ⟨receiverEvent, -, hreceiver⟩ | ⟨stream, frame, hconnected, hreading, hreceiver⟩
    · have hnext := h.receive hreceiver
      exact ⟨h.restricts, hnext.reachable, hnext.lost⟩
    · -- the frame arrives, and its header is read
      have hopen : c.sender.receiver.isConnected = true := hconnected
      obtain ⟨q, harrive, hq, hheader⟩ := @Receiver.exists_of_arrive _ _ _ stream hopen hreading
        hincoming frame
      have hsecond : q.step .receiveHeader = some receiver.side.receiver := by
        rw [hreceiver]
        exact hheader
      have hnext := (h.receive harrive).receive hsecond
      simp only [hq, Bool.and_true] at hnext
      exact ⟨h.restricts, hnext.reachable, hnext.lost⟩
  | release uses ended step => exact ⟨h.restricts, h.reachable, h.lost⟩

/-- The send side of a connection with its flows runs like one alone. -/
theorem sender_reachable_of {allowed : ClientConnection → Event → Prop}
    (hrestricts : RestrictsCalls sends)
    (hallowed : ∀ c f message, allowed c (.callSend f message) →
      ∀ stream, sends c.sender (.sendMessage message stream))
    (h : (system compress maxStreams maxPendingMessages bytes).ReachableWhen allowed c) :
    (SendSide.system compress maxStreams.value maxPendingMessages).ReachableWhen sends
      c.sender := by
  have hboth : (system compress maxStreams maxPendingMessages bytes).Reachable c ∧
      c.SenderRuns compress maxStreams maxPendingMessages sends := by
    induction h with
    | @start c hstart =>
      refine ⟨.of_start hstart, ?_⟩
      obtain ⟨hasCompressor, rfl⟩ := hstart
      refine ⟨hrestricts, ?_, fun hclosed => by cases hclosed⟩
      -- the chain of `ready()` may have chosen a compressor before it ended
      have hcreate : (SendSide.system (ω := Nat) (μ := ReceivedFrame) compress maxStreams.value
          maxPendingMessages).ReachableWhen sends
            (.create maxStreams.value maxPendingMessages) := .start rfl
      have hfinish : ∀ s, sends s .finishReady := fun s =>
        hrestricts s _ fun _ _ => by rintro ⟨⟩
      have hset : ∀ s, sends s .setCompressor := fun s =>
        hrestricts s _ fun _ _ => by rintro ⟨⟩
      cases hasCompressor with
      | true =>
        exact .step (a := .finishReady) (.step (a := .setCompressor) hcreate (hset _) rfl)
          (hfinish _) rfl
      | false => exact .step (a := .finishReady) hcreate (hfinish _) rfl
    | @step c event d hc hevent hstep ih =>
      obtain ⟨hreach, hruns⟩ := ih
      have hincoming := (ByteReceiver.reads_of_reachable (receiver_reachable hreach)).incoming
      refine ⟨hreach.of_step hstep, hruns.step hincoming ?_ (stepTo hstep)⟩
      rintro f message rfl
      exact hallowed c f message hevent
  exact hboth.2.reachable

end SenderRuns

end ClientConnection

end CqlDriver
