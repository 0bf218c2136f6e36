import CqlDriver.Connection.EncodeMessage
import CqlDriver.Connection.Receiver
import CqlDriver.Connection.StreamIds

/-!
# The send side of a connection

`Connection::sendMessage` takes the future of the previous call and leaves a future
of its own for the next one. When the previous future is resolved, the call encodes
its message into the sending buffer, gives the buffer to the socket without copying
it, flushes, and resolves its own promise. One handler serves every exception on the
way: it passes the exception to the next call and closes the connection.

The model has one step per event-loop task. A call is named by its position in the
order of the calls. `written` records what was given to the socket.

## Main definitions

* `SendCall` — how far one call has come
* `SendSide` — the calls, the sending buffer and the receive side
* `SendSide.resume`, `SendSide.handleException` — the continuations of a call
* `SendSide.system` — calls, socket and receive side in any order

## Main results

* `SendSide.stepTo` — what each event requires and does
-/

namespace CqlDriver

/-- How far a call of `sendMessage` has come. -/
inductive SendStatus
  /-- The future of the previous call is pending. -/
  | queued
  /-- The put of the sending buffer is pending. -/
  | putting
  | flushing
  | sent
  /-- An exception was thrown and its handler is pending. -/
  | throwing (ex : Exception)
  /-- The promise of the call was resolved with this exception. -/
  | failed (ex : Exception)
  deriving DecidableEq, Repr

/-- A call of `sendMessage`. -/
structure SendCall where
  message : RequestMessage
  status : SendStatus
  /-- What the call gave to the socket. -/
  frame : Option Bytes
  deriving DecidableEq, Repr

namespace SendCall

/-- The socket has a part of the sending buffer to write. -/
def IsWriting (call : SendCall) : Prop := call.status = .putting ∨ call.status = .flushing

/-- The promise of the call is resolved. -/
def IsSettled (call : SendCall) : Prop := call.status = .sent ∨ ∃ ex, call.status = .failed ex

/-- What the caller's future is resolved with. -/
def result (call : SendCall) : Option (Except Exception Unit) :=
  match call.status with
  | .sent => some (.ok ())
  | .failed _ => some (.error ⟨.network, "send message to failed:"⟩)
  | .queued | .putting | .flushing | .throwing _ => none

end SendCall

/-- A connection as the senders see it; `receiver` holds the socket. -/
structure SendSide (ω μ : Type*) where
  receiver : Receiver ω μ
  /-- The chain of `ready()` has not ended. -/
  isInitializing : Bool
  isReady : Bool
  /-- `compressor_` is not null. -/
  hasCompressor : Bool
  sendingBuffer : Bytes
  /-- All calls of `sendMessage`, in order. -/
  calls : List SendCall
  written : Bytes
  deriving DecidableEq, Repr

namespace SendSide

variable {ω μ : Type*}

/-- A connection whose socket has just been connected. -/
def create (maxStreams maxPendingMessages : Nat) : SendSide ω μ where
  receiver := .create maxStreams maxPendingMessages
  isInitializing := true
  isReady := false
  hasCompressor := false
  sendingBuffer := []
  calls := []
  written := []

/-- `close`. -/
def close (s : SendSide ω μ) : SendSide ω μ :=
  { s with receiver := s.receiver.close, isReady := false, hasCompressor := false }

/-- Write the record of one call. -/
def setCall (s : SendSide ω μ) (k : Nat) (call : SendCall) : SendSide ω μ :=
  { s with calls := s.calls.set k call }

/-- How the future of the previous call is resolved; the first call finds a ready one. -/
def previous (s : SendSide ω μ) : Nat → Option SendStatus
  | 0 => some .sent
  | k + 1 => s.calls[k]?.map SendCall.status

/-- `socket_.out()` throws without a socket. -/
def notConnected : Exception := logicException "socket is not connected"

/-- The handler of exceptions. -/
def handleException (s : SendSide ω μ) (k : Nat) (call : SendCall) (ex : Exception) :
    SendSide ω μ :=
  (s.setCall k { call with status := .failed ex }).close

/-- The turn of a call: encode the message and start to put it. -/
def startSending (compress : Bytes → Appended) (s : SendSide ω μ) (k : Nat) (call : SendCall) :
    SendSide ω μ :=
  match Connection.encodeMessage compress (s.isReady && s.hasCompressor) call.message with
  | (sendingBuffer, some ex) =>
    { s.setCall k { call with status := .throwing ex } with sendingBuffer }
  | (sendingBuffer, none) =>
    if s.receiver.isConnected then
      { s.setCall k { call with status := .putting, frame := some sendingBuffer } with
        sendingBuffer
        written := s.written ++ sendingBuffer }
    else
      { s.setCall k { call with status := .throwing notConnected } with sendingBuffer }

/-- The future of the previous call is resolved. -/
def resume (compress : Bytes → Appended) (s : SendSide ω μ) (k : Nat) (call : SendCall) :
    Option (SendSide ω μ) :=
  match s.previous k with
  | some .sent => some (s.startSending compress k call)
  -- the exception passes both continuations and reaches the handler
  | some (.failed ex) => some (s.handleException k call ex)
  | _ => none

/-- The put has succeeded: flush. -/
def startFlush (s : SendSide ω μ) (k : Nat) (call : SendCall) : SendSide ω μ :=
  if s.receiver.isConnected then
    s.setCall k { call with status := .flushing }
  else
    s.setCall k { call with status := .throwing notConnected }

/-- The step of the receive side calls `close()`: a connected socket would be gone. -/
def callsClose [DecidableEq ω] [DecidableEq μ] (r : Receiver ω μ) (event : Receiver.Event ω μ) :
    Bool :=
  match ({ r with isConnected := true } : Receiver ω μ).step event with
  | some next => !next.isConnected
  | none => false

/-- What can happen next. -/
inductive Event (ω μ : Type*)
  | sendMessage (message : RequestMessage) (stream : ConnectionStream)
  /-- The continuation of a call whose previous future is resolved. -/
  | resume (k : Nat)
  | putDone (k : Nat)
  | flushDone (k : Nat)
  /-- A put or a flush fails. -/
  | writeFailed (k : Nat) (ex : Exception)
  | handleException (k : Nat)
  /-- `ready()` chooses a compressor. -/
  | setCompressor
  /-- The last continuation of `ready()`. -/
  | finishReady
  | receive (event : Receiver.Event ω μ)
  deriving DecidableEq, Repr

/-- One event-loop task. -/
def step [DecidableEq ω] [DecidableEq μ] (compress : Bytes → Appended) (s : SendSide ω μ) :
    Event ω μ → Option (SendSide ω μ)
  | .sendMessage message stream =>
    match stream.getStreamId with
    | .ok streamId =>
      some { s with calls := s.calls ++ [⟨{ message with streamId }, .queued, none⟩] }
    -- thrown before the chain is touched
    | .error _ => some s
  | .resume k =>
    match s.calls[k]? with
    | some ⟨message, .queued, frame⟩ => s.resume compress k ⟨message, .queued, frame⟩
    | _ => none
  | .putDone k =>
    match s.calls[k]? with
    | some ⟨message, .putting, frame⟩ => some (s.startFlush k ⟨message, .putting, frame⟩)
    | _ => none
  | .flushDone k =>
    match s.calls[k]? with
    | some ⟨message, .flushing, frame⟩ => some (s.setCall k ⟨message, .sent, frame⟩)
    | _ => none
  | .writeFailed k ex =>
    match s.calls[k]? with
    | some ⟨message, .putting, frame⟩ => some (s.setCall k ⟨message, .throwing ex, frame⟩)
    | some ⟨message, .flushing, frame⟩ => some (s.setCall k ⟨message, .throwing ex, frame⟩)
    | _ => none
  | .handleException k =>
    match s.calls[k]? with
    | some ⟨message, .throwing ex, frame⟩ =>
      some (s.handleException k ⟨message, .throwing ex, frame⟩ ex)
    | _ => none
  | .setCompressor => if s.isInitializing then some { s with hasCompressor := true } else none
  | .finishReady =>
    if s.isInitializing then some { s with isInitializing := false, isReady := true } else none
  | .receive event =>
    (s.receiver.step event).map fun receiver =>
      let closes := callsClose s.receiver event
      { s with
        receiver
        isReady := s.isReady && !closes
        hasCompressor := s.hasCompressor && !closes }

/-- A connection from the moment its socket is connected. -/
def system [DecidableEq ω] [DecidableEq μ] (compress : Bytes → Appended)
    (maxStreams maxPendingMessages : Nat) : Math.TransitionSystem (SendSide ω μ) (Event ω μ) where
  start s := s = create maxStreams maxPendingMessages
  step := step compress

/-! ## What the steps do -/

section Steps

variable {compress : Bytes → Appended} {s t : SendSide ω μ} {r q : Receiver ω μ}

/-- A ready connection has ended the chain of `ready()`. -/
def Initialized (s : SendSide ω μ) : Prop := s.isReady = true → s.isInitializing = false

/-- What a step that moves no call leaves alone. Once `ready()` has ended and the
connection is closed, it stays closed. -/
structure KeepsCalls (s t : SendSide ω μ) : Prop where
  calls : t.calls = s.calls
  sendingBuffer : t.sendingBuffer = s.sendingBuffer
  written : t.written = s.written
  ready : s.Initialized → t.Initialized
  initialized : s.isInitializing = false → t.isInitializing = false
  notReady : s.isInitializing = false → s.isReady = false → t.isReady = false
  noCompressor : s.isInitializing = false → s.hasCompressor = false → t.hasCompressor = false
  disconnected : s.receiver.isConnected = false → t.receiver.isConnected = false

/-- What a step requires and does. -/
inductive StepTo (compress : Bytes → Appended) (s : SendSide ω μ) : SendSide ω μ → Prop
  | called {message : RequestMessage} :
      StepTo compress s { s with calls := s.calls ++ [⟨message, .queued, none⟩] }
  | started {k : Nat} {call : SendCall} {bytes : Bytes} (call_eq : s.calls[k]? = some call)
      (queued : call.status = .queued) (turn : s.previous k = some .sent)
      (encoded : Connection.encodeMessage compress (s.isReady && s.hasCompressor) call.message =
        (bytes, none)) :
      StepTo compress s { s.setCall k { call with status := .putting, frame := some bytes } with
        sendingBuffer := bytes, written := s.written ++ bytes }
  | threw {k : Nat} {call : SendCall} {bytes : Bytes} {ex : Exception}
      (call_eq : s.calls[k]? = some call) (queued : call.status = .queued)
      (turn : s.previous k = some .sent) :
      StepTo compress s { s.setCall k { call with status := .throwing ex } with
        sendingBuffer := bytes }
  | forwarded {k : Nat} {call : SendCall} {ex : Exception} (call_eq : s.calls[k]? = some call)
      (queued : call.status = .queued) (turn : s.previous k = some (.failed ex)) :
      StepTo compress s (s.handleException k call ex)
  | flushing {k : Nat} {call : SendCall} (call_eq : s.calls[k]? = some call)
      (writing : call.IsWriting) : StepTo compress s (s.setCall k { call with status := .flushing })
  | finished {k : Nat} {call : SendCall} (call_eq : s.calls[k]? = some call)
      (writing : call.IsWriting) : StepTo compress s (s.setCall k { call with status := .sent })
  | broke {k : Nat} {call : SendCall} {ex : Exception} (call_eq : s.calls[k]? = some call)
      (writing : call.IsWriting) :
      StepTo compress s (s.setCall k { call with status := .throwing ex })
  | handled {k : Nat} {call : SendCall} {ex : Exception} (call_eq : s.calls[k]? = some call)
      (throwing : call.status = .throwing ex) : StepTo compress s (s.handleException k call ex)
  | other {t : SendSide ω μ} (keeps : s.KeepsCalls t) : StepTo compress s t

/-- Nothing connects a closed socket again. -/
theorem disconnected_of_receiver {event : Receiver.Event ω μ} (h : r.step event = some q)
    (hclosed : r.isConnected = false) : q.isConnected = false := by
  have hend : ∀ r : Receiver ω μ, r.endIteration.isConnected = r.isConnected := fun _ => rfl
  cases Receiver.stepTo h with
  | wait lt =>
    rw [Receiver.waitNextMessage]
    split
    · exact hclosed
    · split
      · exact hclosed
      · split
        · rw [Receiver.startReceiver]
          split
          · exact hclosed
          · exact hclosed
        · exact hclosed
  | arrive connected =>
    rw [hclosed] at connected
    cases connected
  | receiveHeader connected reading next =>
    rw [hclosed] at connected
    cases connected
  | receiveBody reading =>
    rw [Receiver.receiveBody]
    split
    · rfl
    · split
      · split
        · rfl
        · exact (hend _).trans hclosed
      · split
        · exact (hend _).trans hclosed
        · rfl
  | receiveError running => rfl
  | startError broken => rfl
  | close => rfl

theorem stepTo_resume {k : Nat} {call : SendCall} (hcall : s.calls[k]? = some call)
    (hqueued : call.status = .queued) (h : s.resume compress k call = some t) :
    s.StepTo compress t := by
  rw [resume] at h
  split at h
  next hturn =>
    cases h
    rw [startSending]
    split
    · exact .threw hcall hqueued hturn
    next hencoded =>
      split
      · exact .started hcall hqueued hturn hencoded
      · exact .threw hcall hqueued hturn
  next hturn =>
    cases h
    exact .forwarded hcall hqueued hturn
  · cases h

/-- Every step is one of these. -/
theorem stepTo [DecidableEq ω] [DecidableEq μ] {event : Event ω μ}
    (h : s.step compress event = some t) : s.StepTo compress t := by
  cases event with
  | sendMessage message stream =>
    rw [step] at h
    split at h
    · cases h
      exact .called
    · cases h
      exact .other ⟨rfl, rfl, rfl, id, id, fun _ => id, fun _ => id, id⟩
  | resume k =>
    rw [step] at h
    split at h
    next hcall => exact stepTo_resume hcall rfl h
    · cases h
  | putDone k =>
    rw [step] at h
    split at h
    next hcall =>
      cases h
      rw [startFlush]
      split
      · exact .flushing hcall (.inl rfl)
      · exact .broke hcall (.inl rfl)
    · cases h
  | flushDone k =>
    rw [step] at h
    split at h
    next hcall =>
      cases h
      exact .finished hcall (.inr rfl)
    · cases h
  | writeFailed k ex =>
    rw [step] at h
    split at h
    next hcall =>
      cases h
      exact .broke hcall (.inl rfl)
    next hcall =>
      cases h
      exact .broke hcall (.inr rfl)
    · cases h
  | handleException k =>
    rw [step] at h
    split at h
    next hcall =>
      cases h
      exact .handled hcall rfl
    · cases h
  | setCompressor =>
    rw [step] at h
    split at h
    next hinit =>
      cases h
      refine .other ⟨rfl, rfl, rfl, id, id, fun _ => id, fun hended => ?_, id⟩
      rw [hinit] at hended
      cases hended
    · cases h
  | finishReady =>
    rw [step] at h
    split at h
    next hinit =>
      cases h
      refine .other ⟨rfl, rfl, rfl, fun _ _ => rfl, fun _ => rfl, fun hended => ?_, fun _ => id, id⟩
      rw [hinit] at hended
      cases hended
    · cases h
  | receive event =>
    obtain ⟨receiver, hreceive, rfl⟩ := Option.map_eq_some_iff.mp h
    refine .other ⟨rfl, rfl, rfl, fun h hready => ?_, id, fun _ hready => ?_,
      fun _ hcompressor => ?_, ?_⟩
    · exact h (Bool.and_eq_true_iff.mp hready).1
    · exact Bool.and_eq_false_iff.mpr (.inl hready)
    · exact Bool.and_eq_false_iff.mpr (.inl hcompressor)
    · exact disconnected_of_receiver hreceive

end Steps

end SendSide

end CqlDriver
