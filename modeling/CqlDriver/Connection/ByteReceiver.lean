import CqlDriver.Connection.DecodeMessage
import CqlDriver.Connection.Waits
import CqlDriver.Protocol.BodyExtent

/-!
# Receiving from a stream of bytes

The receive loop reads the header of a frame, then as many bytes as the header announces,
decodes them, and passes the message on. `read_exactly` returns fewer bytes than it was asked
for at the end of the stream only.

Here the receive side works on the bytes of the peer. Its frames are headers with the bytes
that were read for their bodies, and the read of a body takes its bytes when it is issued.
What the socket gives is a list of bytes, and behind them the stream ends. `cut` records the
waits that were pending when a read came back short.

## Main definitions

* `MessageHeader.decodeHeader`, `Connection.acceptHeader` — the header
* `ReceivedFrame.decode` — the body
* `ByteReceiver.system` — the receive side over a stream of bytes
* `ByteReceiver.NoTruncation` — no message comes of a frame that was cut short
* `ByteReceiver.Notices` — a body that was cut short lacks a member

## Main results

* `ByteReceiver.receives` — the loop over bytes moves like the loop over frames
* `ByteReceiver.noTruncation_of_notices`
* `ByteReceiver.not_noTruncation_rows` — rows that were cut behind their count
-/

namespace CqlDriver

open Math (Decode Cursor)

/-! ## Headers -/

/-- The header of a frame. -/
structure MessageHeader where
  direction : Nat
  flags : Nat
  streamId : Nat
  opCode : Nat
  bodyLength : Int
  deriving DecidableEq, Repr

namespace MessageHeader

/-- The bit of the direction in the version. -/
def directionMask : Nat := 0x80

/-- Decode message header from binary data. -/
def decodeHeader : Decoder Unit MessageHeader := do
  let version ← ProtocolByte.decode
  let flags ← ProtocolByte.decode
  let streamId ← ProtocolShort.decode
  let opCode ← ProtocolByte.decode
  let bodyLength ← ProtocolInt.decode
  return ⟨version &&& directionMask, flags, streamId, opCode, bodyLength⟩

/-- Get the length of message body (aka frame payload). -/
def getBodyLength (header : MessageHeader) : Except Failure Nat :=
  if header.bodyLength < 0 then .error (.exception (logicException "body length < 0"))
  else .ok header.bodyLength.toNat

end MessageHeader

/-- Whether the factory has a message for an opcode. -/
def ResponseMessageFactory.makeResponseMessage (opCode : Nat) : Except Failure Unit :=
  if opCode ∈ [MessageType.result, MessageType.error, MessageType.event, MessageType.ready,
      MessageType.supported, MessageType.authenticate, MessageType.authSuccess,
      MessageType.authChallenge] then .ok ()
  else .error ResponseMessage.unsupportedMessageType

namespace Connection

/-- Version 1, flags 1, stream 2, opcode 1, length 4. -/
def headerSize : Nat := 9

/-- The first half of an iteration: the header in a buffer, and the length of the body. -/
def acceptHeader (buffer : Bytes) : Except Failure (MessageHeader × Nat) :=
  match MessageHeader.decodeHeader ⟨(), buffer⟩ with
  | .error failure _ => .error failure
  | .ok header _ =>
    match header.getBodyLength with
    | .error failure => .error failure
    | .ok bodyLength =>
      if maximumMessageBodySize < bodyLength then
        .error (.exception (logicException "message body too large:"))
      else
        (ResponseMessageFactory.makeResponseMessage header.opCode).map fun _ => (header, bodyLength)

end Connection

/-- A header with the bytes that were read for the body. -/
structure ReceivedFrame where
  header : MessageHeader
  body : Bytes
  deriving DecidableEq, Repr

namespace ReceivedFrame

/-- Decode the body into a message object that may have been used before. -/
def decode (frame : ReceivedFrame) (compressor : Option LZ4) (used : ResultMessage)
    (memory : OptionMemory) : Except Failure ResponseMessage :=
  Connection.decodeMessage compressor (.ofByte frame.header.flags) frame.body
    (ResponseMessage.decodeBody used memory frame.header.opCode)

/-- The stream has ended inside the body. -/
def IsCut (frame : ReceivedFrame) : Prop := (frame.body.length : Int) < frame.header.bodyLength

instance (frame : ReceivedFrame) : Decidable frame.IsCut := inferInstanceAs (Decidable (_ < _))

/-- Behind what the flags announce, the bytes have all members of the message. -/
def HasMembers (frame : ReceivedFrame) (compressor : Option LZ4) : Prop :=
  Connection.decodeMessage compressor (.ofByte frame.header.flags) frame.body
    (BodyExtent.check frame.header.opCode) = .ok ()

instance (frame : ReceivedFrame) (compressor : Option LZ4) : Decidable (frame.HasMembers compressor) :=
  inferInstanceAs (Decidable (_ = _))

end ReceivedFrame

/-! ## Messages that are passed on -/

namespace Receiver

variable {ω μ : Type*} {r q t : Receiver ω μ} {stream : Nat} {waiter : ω} {message : μ}

/-- A message is in a queue, or was given to a wait. -/
def Holds (r : Receiver ω μ) (message : μ) : Prop :=
  (∃ stream, message ∈ r.queue stream) ∨ ∃ entry ∈ r.resolved, entry.outcome = .message message

/-- At most the given message was passed on, and nothing is being read that was not before. -/
structure Passes (r : Receiver ω μ) (passed : List μ) (q : Receiver ω μ) : Prop where
  incoming : q.incoming = r.incoming
  loop : ∀ stream message, q.loop = .readingBody stream message →
    r.loop = .readingBody stream message
  resolved : r.resolved <+: q.resolved
  holds : ∀ message, q.Holds message → r.Holds message ∨ message ∈ passed

theorem Passes.trans {passed : List μ} (h : r.Passes passed q) (h' : q.Passes [] t) :
    r.Passes passed t where
  incoming := h'.incoming.trans h.incoming
  loop := fun stream message hloop => h.loop stream message (h'.loop stream message hloop)
  resolved := h.resolved.trans h'.resolved
  holds := fun message ht => (h'.holds message ht).elim (h.holds message) fun hmem => by cases hmem

/-- Steps that leave queues and resolutions alone. -/
theorem Passes.frame (hsame : (q.incoming, q.resolved, q.receivedMessageQueueMap) =
      (r.incoming, r.resolved, r.receivedMessageQueueMap))
    (hloop : ∀ stream message, q.loop = .readingBody stream message →
      r.loop = .readingBody stream message) : r.Passes [] q := by
  simp only [Prod.mk.injEq] at hsame
  obtain ⟨hincoming, hresolved, hqueues⟩ := hsame
  refine ⟨hincoming, hloop, hresolved ▸ List.prefix_refl _, ?_⟩
  · rintro message (⟨stream, hqueue⟩ | hresolution)
    · refine .inl (.inl ⟨stream, ?_⟩)
      rwa [queue, hqueues] at hqueue
    · exact .inl (.inr (hresolved ▸ hresolution))

theorem passes_resolve (outcome : Outcome μ) :
    r.Passes outcome.message?.toList (r.resolve stream waiter outcome) where
  incoming := rfl
  loop := fun _ _ h => h
  resolved := List.prefix_append _ _
  holds := by
    rintro message (hqueue | ⟨entry, hentry, houtcome⟩)
    · exact .inl (.inl hqueue)
    · rcases List.mem_append.mp hentry with hold | hnew
      · exact .inl (.inr ⟨entry, hold, houtcome⟩)
      · cases List.mem_singleton.mp hnew
        obtain rfl : outcome = .message message := houtcome
        exact .inr (Option.mem_toList.mpr rfl)

theorem passes_close : r.Passes [] r.close where
  incoming := rfl
  loop := fun _ _ h => h
  resolved := List.prefix_append _ _
  holds := by
    rintro message (hqueue | ⟨entry, hentry, houtcome⟩)
    · exact .inl (.inl hqueue)
    · rcases List.mem_append.mp hentry with hold | hnew
      · exact .inl (.inr ⟨entry, hold, houtcome⟩)
      · obtain ⟨_, -, rfl⟩ := List.mem_map.mp hnew
        cases houtcome

theorem passes_closeLoop : r.Passes [] r.closeLoop :=
  passes_close.trans (.frame rfl (fun _ _ h => by cases h))

theorem passes_endIteration : r.Passes [] r.endIteration := by
  refine .frame rfl fun _ _ h => ?_
  rw [endIteration] at h
  dsimp only at h
  split at h
  · cases h
  · cases h

theorem passes_setQueue {messages passed : List μ}
    (hmessages : ∀ message ∈ messages, message ∈ r.queue stream ∨ message ∈ passed) :
    r.Passes passed (r.setQueue stream messages) where
  incoming := rfl
  loop := fun _ _ h => h
  resolved := List.prefix_refl _
  holds := by
    rintro message (⟨other, hqueue⟩ | hresolution)
    · by_cases hlt : stream < r.receivedMessageQueueMap.length
      · rw [queue_setQueue hlt] at hqueue
        split at hqueue
        · exact (hmessages message hqueue).imp (fun h => .inl ⟨stream, h⟩) id
        · exact .inl (.inl ⟨other, hqueue⟩)
      · rw [setQueue, queue, List.set_eq_of_length_le (Nat.not_lt.mp hlt)] at hqueue
        exact .inl (.inl ⟨other, hqueue⟩)
    · exact .inl (.inr hresolution)

theorem passes_waitNextMessage : r.Passes [] (r.waitNextMessage stream waiter) := by
  rw [waitNextMessage]
  split
  next message rest hqueue =>
    -- the message was in the queue
    have htaken : r.Passes [] (r.setQueue stream rest) :=
      passes_setQueue fun other hother => .inl (by rw [hqueue]; exact List.mem_cons_of_mem _ hother)
    have hresolved := @passes_resolve _ _ (r.setQueue stream rest) stream waiter (.message message)
    refine ⟨rfl, fun _ _ h => h, hresolved.resolved, fun other hother => .inl ?_⟩
    rcases hresolved.holds other hother with hold | hnew
    · exact (htaken.holds other hold).resolve_right fun h => by cases h
    · cases List.mem_singleton.mp hnew
      exact .inl ⟨stream, by rw [hqueue]; exact List.mem_cons_self⟩
  next hqueue =>
    split
    · exact passes_resolve .alreadyWaiting
    · split
      · rw [startReceiver]
        split
        · exact .frame rfl fun _ _ h => by cases h
        · exact .frame rfl fun _ _ h => h
      · exact .frame rfl fun _ _ h => h

theorem passes_receiveBody : r.Passes [message] (r.receiveBody stream message) := by
  have hclosed : r.Passes [message] r.closeLoop := by
    have h := @passes_closeLoop _ _ r
    exact ⟨h.incoming, h.loop, h.resolved, fun _ hq => (h.holds _ hq).imp_right fun h => by cases h⟩
  rw [receiveBody]
  split
  · exact hclosed
  split
  next waiter hslot =>
    have hset : r.Passes [] (r.setSlot stream none) := .frame rfl fun _ _ h => h
    have hpassed : r.Passes [message] ((r.setSlot stream none).resolve stream waiter (.message message)) := by
      have h := @passes_resolve _ _ (r.setSlot stream none) stream waiter (.message message)
      exact ⟨rfl, fun _ _ h => h, h.resolved, h.holds⟩
    split
    · exact hpassed.trans passes_closeLoop
    · refine Passes.trans (hpassed.trans ?_) passes_endIteration
      exact .frame rfl fun _ _ h => h
  · split
    · refine (passes_setQueue fun other hother => ?_).trans passes_endIteration
      exact (List.mem_append.mp hother)
    · exact hclosed

/-- A loop that runs can be ended by an exception. -/
theorem step_receiveError (hrunning : r.loop ≠ .stopped) :
    r.step .receiveError = some r.closeLoop := by
  rw [step]
  split
  next hstopped => exact absurd hstopped hrunning
  · rfl

/-- A frame whose bytes are there arrives, and its header is read. -/
theorem exists_of_arrive (hconnected : r.isConnected = true)
    (hreading : r.loop = .readingHeader) (hincoming : r.incoming = []) (message : μ) :
    ∃ q, r.step (.arrive stream message) = some q ∧ q.isConnected = true ∧
      q.step .receiveHeader = some { r with
        loop := .readingBody stream message
        arrived := r.arrived ++ [(stream, message)] } := by
  refine ⟨_, if_pos hconnected, hconnected, ?_⟩
  simp [step, hconnected, hreading, hincoming]

end Receiver

/-! ## The stream of bytes -/

/-- The receive side and the bytes that it has not read. -/
structure ByteReceiver where
  side : ReceiveSide ReceivedFrame
  unread : Bytes
  /-- The waits that were pending when a read came back short. -/
  cut : List Nat

namespace ByteReceiver

/-- A connection that has just been connected. -/
def create (maxStreams maxPendingMessages : Nat) (bytes : Bytes) : ByteReceiver :=
  ⟨⟨.create maxStreams maxPendingMessages, []⟩, bytes, []⟩

/-- The pending waits. -/
def waiters (s : ByteReceiver) : List Nat := s.side.receiver.waiting.map Prod.snd

/-- A read came back, short or not. -/
def afterRead (s : ByteReceiver) (short : Bool) : ByteReceiver :=
  { s with cut := if short then s.cut ++ s.waiters else s.cut }

/-- The loop ends with the connection closed. -/
def closeLoop (s : ByteReceiver) : ByteReceiver :=
  { s with side := { s.side with receiver := s.side.receiver.closeLoop } }

/-- A header was read: the read of its body is issued. -/
def issueBody (s : ByteReceiver) (header : MessageHeader) (bodyLength : Nat) : ByteReceiver :=
  let frame : ReceivedFrame := ⟨header, s.unread.take bodyLength⟩
  let receiver := s.side.receiver
  { s with
    side := { s.side with
      receiver := { receiver with
        loop := .readingBody header.streamId frame
        arrived := receiver.arrived ++ [(header.streamId, frame)] } }
    unread := s.unread.drop bodyLength }

/-- What can happen next. -/
inductive Event
  | wait (stream : Nat)
  | readHeader
  /-- The read of a body came back. The compressor and the state of the thread are what they
  are at that moment. -/
  | readBody (compressor : Option LZ4) (used : ResultMessage) (memory : OptionMemory)
  /-- A read fails. -/
  | readFailed
  /-- The exception of a loop that was started without a socket is handled. -/
  | startError
  /-- A send error or the destructor closes the connection. -/
  | close

/-- An event of the receive side that reads nothing. -/
def stepSide (s : ByteReceiver) (event : Receiver.Event Unit ReceivedFrame) : Option ByteReceiver :=
  (s.side.step event).map fun side => { s with side }

/-- One event-loop task. There is none after undefined behaviour. -/
def step (s : ByteReceiver) : Event → Option ByteReceiver
  | .wait stream => s.stepSide (.wait stream ())
  | .readHeader =>
    match s.side.receiver.isConnected, s.side.receiver.loop with
    | true, .readingHeader =>
      let buffer := s.unread.take Connection.headerSize
      let read := { s.afterRead (buffer.length < Connection.headerSize) with
        unread := s.unread.drop Connection.headerSize }
      match Connection.acceptHeader buffer with
      | .ok (header, bodyLength) => some (read.issueBody header bodyLength)
      | .error _ => some read.closeLoop
    | _, _ => none
  | .readBody compressor used memory =>
    match s.side.receiver.loop with
    | .readingBody _ frame =>
      match frame.decode compressor used memory with
      | .ok _ => (s.afterRead frame.IsCut).stepSide .receiveBody
      | .error (.exception _) => some (s.afterRead frame.IsCut).closeLoop
      | .error _ => none
    | _ => none
  | .readFailed => s.stepSide .receiveError
  | .startError => s.stepSide .startError
  | .close => s.stepSide .close

/-- The receive side over a stream of bytes. -/
def system (maxStreams maxPendingMessages : Nat) (bytes : Bytes) :
    Math.TransitionSystem ByteReceiver Event where
  start s := s = create maxStreams maxPendingMessages bytes
  step := step

/-- Every message was decoded from as many bytes as its header announced, and the waits that
were pending when a frame was cut short have failed and nothing else. -/
structure NoTruncation (s : ByteReceiver) : Prop where
  decoded : ∀ frame, s.side.receiver.Holds frame →
    ∃ compressor used memory message, frame.decode compressor used memory = .ok message
  whole : ∀ frame, s.side.receiver.Holds frame → frame.body.length = frame.header.bodyLength
  failed : ∀ n ∈ s.cut, ∃ entry ∈ s.side.receiver.resolved, entry.waiter = n ∧
    entry.outcome = .failed
  nothing_else : ∀ n ∈ s.cut, ∀ entry ∈ s.side.receiver.resolved, entry.waiter = n →
    entry.outcome = .failed

/-- Where the stream ends inside a body, the part that was read lacks a member. -/
def Notices (s : ByteReceiver) : Event → Prop
  | .readBody compressor _ _ => ∀ frame ∈ s.side.receiver.loop.frame.map Prod.snd,
      frame.IsCut → ¬ frame.HasMembers compressor
  | _ => True

instance (s : ByteReceiver) (event : Event) : Decidable (s.Notices event) :=
  match event with
  | .readBody compressor _ _ =>
    inferInstanceAs (Decidable (∀ frame ∈ s.side.receiver.loop.frame.map Prod.snd,
      frame.IsCut → ¬ frame.HasMembers compressor))
  | .wait _ | .readHeader | .readFailed | .startError | .close => .isTrue trivial

/-! ## What a step does -/

variable {maxStreams maxPendingMessages : Nat} {bytes : Bytes} {s t : ByteReceiver} {event : Event}

/-- A header that is decoded is complete. -/
theorem headerSize_le_of_decodeHeader {buffer : Bytes} {header : MessageHeader} {c : Cursor Unit}
    (h : MessageHeader.decodeHeader ⟨(), buffer⟩ = .ok header c) :
    Connection.headerSize ≤ buffer.length := by
  obtain ⟨version, c₁, hversion, h₁⟩ := Decode.exists_of_bind_ok h
  obtain ⟨flags, c₂, hflags, h₂⟩ := Decode.exists_of_bind_ok h₁
  obtain ⟨streamId, c₃, hstreamId, h₃⟩ := Decode.exists_of_bind_ok h₂
  obtain ⟨opCode, c₄, hopCode, h₄⟩ := Decode.exists_of_bind_ok h₃
  obtain ⟨length, c₅, hlength, -⟩ := Decode.exists_of_bind_ok h₄
  obtain ⟨number, c₆, hnumber, -⟩ := Decode.exists_of_bind_ok hlength
  have hleft := (Decode.number_ok hnumber).1
  rw [(Decode.number_ok hopCode).2, (Decode.number_ok hstreamId).2, (Decode.number_ok hflags).2,
    (Decode.number_ok hversion).2] at hleft
  simp only [List.length_drop] at hleft
  rw [Connection.headerSize]
  omega

/-- A header that is accepted is complete, and the length is the one it announces. -/
theorem acceptHeader_ok {buffer : Bytes} {header : MessageHeader} {bodyLength : Nat}
    (h : Connection.acceptHeader buffer = .ok (header, bodyLength)) :
    Connection.headerSize ≤ buffer.length ∧ header.bodyLength = bodyLength := by
  rw [Connection.acceptHeader] at h
  split at h
  · cases h
  next decoded c hdecode =>
    refine ⟨headerSize_le_of_decodeHeader hdecode, ?_⟩
    split at h
    · cases h
    next length hlength =>
      split at h
      · cases h
      · have hpair : (decoded, length) = (header, bodyLength) := by
          cases hmake : ResponseMessageFactory.makeResponseMessage decoded.opCode with
          | error failure =>
            rw [hmake] at h
            cases h
          | ok =>
            rw [hmake] at h
            exact Except.ok.inj h
        cases hpair
        rw [MessageHeader.getBodyLength] at hlength
        split at hlength
        · cases hlength
        next hnonneg =>
          cases hlength
          exact (Int.toNat_of_nonneg (Int.not_lt.mp hnonneg)).symm

/-- What a step does. -/
inductive StepTo (s : ByteReceiver) : Event → ByteReceiver → Prop
  | moves {event : Event} {sideEvent : Receiver.Event Unit ReceivedFrame}
      {side : ReceiveSide ReceivedFrame} (step : s.side.step sideEvent = some side)
      (passes : s.side.receiver.Passes [] side.receiver) : StepTo s event { s with side }
  | headerError {short : Bool} (reading : s.side.receiver.loop = .readingHeader) :
      StepTo s .readHeader
        { s.afterRead short with unread := s.unread.drop Connection.headerSize }.closeLoop
  | header {header : MessageHeader} {bodyLength : Nat}
      (connected : s.side.receiver.isConnected = true)
      (reading : s.side.receiver.loop = .readingHeader)
      (announced : header.bodyLength = bodyLength) :
      StepTo s .readHeader
        ({ s with unread := s.unread.drop Connection.headerSize }.issueBody header bodyLength)
  | body {stream : Nat} {frame : ReceivedFrame} {compressor : Option LZ4} {used : ResultMessage}
      {memory : OptionMemory} {message : ResponseMessage}
      (reading : s.side.receiver.loop = .readingBody stream frame)
      (decodes : frame.decode compressor used memory = .ok message) :
      StepTo s (.readBody compressor used memory)
        { s.afterRead frame.IsCut with
          side := ⟨s.side.receiver.receiveBody stream frame, s.side.waits⟩ }
  | bodyError {stream : Nat} {frame : ReceivedFrame} {compressor : Option LZ4}
      {used : ResultMessage} {memory : OptionMemory}
      (reading : s.side.receiver.loop = .readingBody stream frame) :
      StepTo s (.readBody compressor used memory) (s.afterRead frame.IsCut).closeLoop

theorem stepSide_moves {sideEvent : Receiver.Event Unit ReceivedFrame}
    (hpasses : ∀ receiver : Receiver Nat ReceivedFrame,
      s.side.receiver.step (ReceiveSide.number s.side.waits.length sideEvent) = some receiver →
        s.side.receiver.Passes [] receiver)
    (h : s.stepSide sideEvent = some t) : s.StepTo event t := by
  obtain ⟨side, hside, rfl⟩ := Option.map_eq_some_iff.mp h
  obtain ⟨receiver, hreceiver, rfl⟩ := Option.map_eq_some_iff.mp hside
  exact .moves hside (hpasses receiver hreceiver)

theorem stepTo (h : step s event = some t) : s.StepTo event t := by
  cases event with
  | wait stream =>
    refine stepSide_moves (fun receiver hreceiver => ?_) h
    cases Receiver.stepTo hreceiver with
    | wait lt => exact Receiver.passes_waitNextMessage
  | readFailed =>
    refine stepSide_moves (fun receiver hreceiver => ?_) h
    cases Receiver.stepTo hreceiver with
    | receiveError running => exact Receiver.passes_closeLoop
  | startError =>
    refine stepSide_moves (fun receiver hreceiver => ?_) h
    cases Receiver.stepTo hreceiver with
    | startError broken => exact Receiver.passes_close.trans (.frame rfl fun _ _ h => h)
  | close =>
    refine stepSide_moves (fun receiver hreceiver => ?_) h
    cases Receiver.stepTo hreceiver with
    | close => exact Receiver.passes_close
  | readHeader =>
    simp only [step] at h
    split at h
    next hconnected hreading =>
      split at h
      next header bodyLength haccept =>
        cases h
        obtain ⟨hlength, hannounced⟩ := acceptHeader_ok haccept
        have hshort : decide ((s.unread.take Connection.headerSize).length <
            Connection.headerSize) = false := decide_eq_false (Nat.not_lt.mpr hlength)
        rw [hshort]
        exact .header hconnected hreading hannounced
      · cases h
        exact .headerError hreading
    · cases h
  | readBody compressor used memory =>
    simp only [step] at h
    split at h
    next stream frame hreading =>
      split at h
      next message hdecode =>
        obtain ⟨side, hside, rfl⟩ := Option.map_eq_some_iff.mp h
        have hsame : side = ⟨s.side.receiver.receiveBody stream frame, s.side.waits⟩ := by
          rw [ReceiveSide.step, ReceiveSide.number, Receiver.step] at hside
          simp only [afterRead, hreading, Option.map_some, Option.some.injEq] at hside
          simp [← hside, ReceiveSide.waitStream]
        rw [hsame]
        exact .body hreading hdecode
      · cases h
        exact .bodyError hreading
      · cases h
    · cases h

/-! ## The loop over frames -/

/-- The frame that is being read came with its header, and no more bytes than announced were
read for it. -/
structure Reads (maxStreams maxPendingMessages : Nat) (s : ByteReceiver) : Prop where
  side : (ReceiveSide.system maxStreams maxPendingMessages).Reachable s.side
  incoming : s.side.receiver.incoming = []
  body : ∀ stream frame, s.side.receiver.loop = .readingBody stream frame →
    (frame.body.length : Int) ≤ frame.header.bodyLength

theorem closeLoop_reachable (h : (ReceiveSide.system maxStreams maxPendingMessages).Reachable s.side)
    (hrunning : s.side.receiver.loop ≠ .stopped) :
    (ReceiveSide.system maxStreams maxPendingMessages).Reachable
      (⟨s.side.receiver.closeLoop, s.side.waits⟩ : ReceiveSide ReceivedFrame) := by
  refine h.of_step (a := .receiveError) ?_
  show (ReceiveSide.step s.side .receiveError) = _
  rw [ReceiveSide.step, ReceiveSide.number, Receiver.step_receiveError hrunning]
  simp [ReceiveSide.waitStream]

theorem Reads.step (h : s.Reads maxStreams maxPendingMessages) (hstep : s.StepTo event t) :
    t.Reads maxStreams maxPendingMessages := by
  cases hstep with
  | moves step passes =>
    refine ⟨h.side.of_step step, passes.incoming.trans h.incoming, fun stream frame hloop => ?_⟩
    exact h.body stream frame (passes.loop stream frame hloop)
  | headerError reading =>
    have hrunning : s.side.receiver.loop ≠ .stopped := by rw [reading]; rintro ⟨⟩
    exact ⟨closeLoop_reachable h.side hrunning, h.incoming, fun _ _ hloop => by cases hloop⟩
  | @header header bodyLength connected reading announced =>
    let frame : ReceivedFrame := ⟨header, (s.unread.drop Connection.headerSize).take bodyLength⟩
    refine ⟨?_, h.incoming, fun stream other hloop => ?_⟩
    · -- the frame arrives, and its header is read
      obtain ⟨q, harrive, -, hheader⟩ := @Receiver.exists_of_arrive _ _ _ header.streamId connected
        reading h.incoming frame
      have hside : ReceiveSide.step s.side (.arrive header.streamId frame) =
          some ⟨q, s.side.waits⟩ := by
        rw [ReceiveSide.step, ReceiveSide.number, harrive]
        simp [ReceiveSide.waitStream]
      refine (h.side.of_step hside).of_step (a := .receiveHeader) ?_
      show ReceiveSide.step ⟨q, s.side.waits⟩ .receiveHeader = _
      rw [ReceiveSide.step, ReceiveSide.number, hheader]
      simp [ReceiveSide.waitStream, issueBody, frame]
    · cases hloop
      show (((s.unread.drop Connection.headerSize).take bodyLength).length : Int) ≤ _
      rw [announced, List.length_take]
      omega
  | @body stream frame compressor used memory message reading decodes =>
    have hpasses := @Receiver.passes_receiveBody _ _ s.side.receiver stream frame
    refine ⟨h.side.of_step (a := .receiveBody) ?_, hpasses.incoming.trans h.incoming, ?_⟩
    · show ReceiveSide.step s.side .receiveBody = _
      simp [ReceiveSide.step, ReceiveSide.number, Receiver.step, ReceiveSide.waitStream, reading]
    · exact fun place other hloop => h.body place other (hpasses.loop place other hloop)
  | bodyError reading =>
    have hrunning : s.side.receiver.loop ≠ .stopped := by rw [reading]; rintro ⟨⟩
    exact ⟨closeLoop_reachable h.side hrunning, h.incoming, fun _ _ hloop => by cases hloop⟩

theorem reads_of_reachable (h : (system maxStreams maxPendingMessages bytes).Reachable s) :
    s.Reads maxStreams maxPendingMessages := by
  refine h.invariant _ ?_ fun s event t hs hstep => hs.step (stepTo hstep)
  rintro _ rfl
  exact ⟨.of_start rfl, rfl, fun _ _ hloop => by cases hloop⟩

/-- The loop over bytes moves like the loop over frames. -/
theorem receives (h : (system maxStreams maxPendingMessages bytes).Reachable s) :
    (ReceiveSide.system maxStreams maxPendingMessages).Reachable s.side :=
  (reads_of_reachable h).side

/-! ## Frames that are cut short -/

/-- A body that is decoded has all its members. -/
theorem hasMembers_of_decode {frame : ReceivedFrame} {compressor : Option LZ4} {used : ResultMessage}
    {memory : OptionMemory} {message : ResponseMessage}
    (h : frame.decode compressor used memory = .ok message) : frame.HasMembers compressor := by
  obtain ⟨content, hdecode, hsame⟩ := Connection.decodeMessage_ok h
  rw [ReceivedFrame.HasMembers, hsame]
  exact BodyExtent.check_of_decodeBody hdecode

/-- What is kept in a run that notices every cut. -/
structure Delivered (s : ByteReceiver) : Prop where
  decoded : ∀ frame, s.side.receiver.Holds frame →
    ∃ compressor used memory message, frame.decode compressor used memory = .ok message
  whole : ∀ frame, s.side.receiver.Holds frame → frame.body.length = frame.header.bodyLength
  failed : ∀ n ∈ s.cut, ∃ entry ∈ s.side.receiver.resolved, entry.waiter = n ∧
    entry.outcome = .failed

/-- Closing after a read fails the waits that were pending. -/
theorem Delivered.closeLoop (h : s.Delivered) (short : Bool) (unread : Bytes) :
    ({ s.afterRead short with unread }.closeLoop).Delivered := by
  have hpasses := @Receiver.passes_closeLoop _ _ s.side.receiver
  have hold : ∀ frame, s.side.receiver.closeLoop.Holds frame → s.side.receiver.Holds frame :=
    fun frame hholds => (hpasses.holds frame hholds).resolve_right fun hmem => by cases hmem
  refine ⟨fun frame hholds => h.decoded frame (hold frame hholds),
    fun frame hholds => h.whole frame (hold frame hholds), fun n hn => ?_⟩
  have hcut : n ∈ s.cut ∨ n ∈ s.waiters := by
    cases short with
    | true => exact List.mem_append.mp hn
    | false => exact .inl hn
  rcases hcut with hbefore | hwaits
  · obtain ⟨entry, hentry, hfailed⟩ := h.failed n hbefore
    exact ⟨entry, hpasses.resolved.subset hentry, hfailed⟩
  · obtain ⟨⟨stream, _⟩, hwaiting, rfl⟩ := List.mem_map.mp hwaits
    exact ⟨_, List.mem_append_right _ (List.mem_map_of_mem hwaiting), rfl, rfl⟩

theorem Delivered.step (h : s.Delivered) (hreads : s.Reads maxStreams maxPendingMessages)
    (hnotices : s.Notices event) (hstep : s.StepTo event t) : t.Delivered := by
  cases hstep with
  | moves step passes =>
    have hold : ∀ frame, Receiver.Holds _ frame → s.side.receiver.Holds frame :=
      fun frame hholds => (passes.holds frame hholds).resolve_right fun hmem => by cases hmem
    refine ⟨fun frame hholds => h.decoded frame (hold frame hholds),
      fun frame hholds => h.whole frame (hold frame hholds), fun n hn => ?_⟩
    obtain ⟨entry, hentry, hfailed⟩ := h.failed n hn
    exact ⟨entry, passes.resolved.subset hentry, hfailed⟩
  | headerError reading => exact h.closeLoop _ _
  | header connected reading announced => exact ⟨h.decoded, h.whole, h.failed⟩
  | @body stream frame compressor used memory message reading decodes =>
    have hpasses := @Receiver.passes_receiveBody _ _ s.side.receiver stream frame
    -- a body that was cut short would lack a member
    have huncut : ¬ frame.IsCut := by
      intro hcut
      refine hnotices frame ?_ hcut (hasMembers_of_decode decodes)
      rw [reading]
      exact List.mem_cons_self
    have hlength : (frame.body.length : Int) = frame.header.bodyLength :=
      le_antisymm (hreads.body stream frame reading) (not_lt.mp huncut)
    refine ⟨fun other hholds => ?_, fun other hholds => ?_, fun n hn => ?_⟩
    · rcases hpasses.holds other hholds with hold | hnew
      · exact h.decoded other hold
      · cases List.mem_singleton.mp hnew
        exact ⟨compressor, used, memory, message, decodes⟩
    · rcases hpasses.holds other hholds with hold | hnew
      · exact h.whole other hold
      · cases List.mem_singleton.mp hnew
        exact hlength
    · have hbefore : n ∈ s.cut := by simpa [afterRead, huncut] using hn
      obtain ⟨entry, hentry, hfailed⟩ := h.failed n hbefore
      exact ⟨entry, hpasses.resolved.subset hentry, hfailed⟩
  | bodyError reading => exact h.closeLoop _ _

/-- In a run in which every body that is cut short lacks a member, no message comes of a frame
that was cut short. -/
theorem noTruncation_of_notices (maxStreams maxPendingMessages : Nat) (bytes : Bytes)
    (h : (system maxStreams maxPendingMessages bytes).ReachableWhen Notices s) :
    s.NoTruncation := by
  have hboth : s.Reads maxStreams maxPendingMessages ∧ s.Delivered := by
    refine h.invariant (fun s => s.Reads maxStreams maxPendingMessages ∧ s.Delivered) ?_ ?_
    · rintro _ rfl
      refine ⟨⟨.of_start rfl, rfl, fun _ _ hloop => by cases hloop⟩, ?_⟩
      have hnone : ∀ frame, ¬ (Receiver.create maxStreams maxPendingMessages :
          Receiver Nat ReceivedFrame).Holds frame := by
        rintro frame (⟨stream, hqueue⟩ | ⟨entry, hentry, -⟩)
        · rw [Receiver.queue_create] at hqueue
          cases hqueue
        · cases hentry
      exact ⟨fun frame hholds => absurd hholds (hnone frame),
        fun frame hholds => absurd hholds (hnone frame), fun n hn => by cases hn⟩
    · intro s event t hs hnotices hstep
      exact ⟨hs.1.step (stepTo hstep), hs.2.step hs.1 hnotices (stepTo hstep)⟩
  obtain ⟨hreads, hdelivered⟩ := hboth
  refine ⟨hdelivered.decoded, hdelivered.whole, hdelivered.failed, fun n hn entry hentry hwaiter => ?_⟩
  obtain ⟨failed, hfailed, hsame, houtcome⟩ := hdelivered.failed n hn
  -- a wait is resolved once
  have honce := (ReceiveSide.sound_and_numbered_of_reachable hreads.side).2.once
  have hnodup : (s.side.receiver.resolved.map (·.waiter)).Nodup :=
    (List.nodup_append.mp (honce.nodup_iff.mpr List.nodup_range)).1
  have heq : entry = failed :=
    List.inj_on_of_nodup_map hnodup hentry hfailed (hwaiter.trans hsame.symm)
  rw [heq]
  exact houtcome

/-- An error message without the last byte of its text, for stream 1. -/
def cutError : Bytes := [0x84, 0, 0, 1, 0, 0, 0, 0, 8, 0, 0, 0x10, 0, 0, 2, 0x61]

/-- The text that was cut short fails the wait. -/
theorem noTruncation_cutError : ∃ s,
    (system 2 10 cutError).ReachableWhen Notices s ∧ s.cut = [0] ∧ s.NoTruncation := by
  have hrun : ((system 2 10 cutError).runWhen Notices (create 2 10 cutError)
      [.wait 1, .readHeader, .readBody none .create .create]).map cut = some [0] := by decide
  obtain ⟨s, hs, hcut⟩ := Option.map_eq_some_iff.mp hrun
  have hreachable : (system 2 10 cutError).ReachableWhen Notices s := .of_runWhen (.start rfl) hs
  exact ⟨s, hreachable, hcut, noTruncation_of_notices 2 10 cutError hreachable⟩

/-- The header of a RESULT message of 21 bytes for stream 1, and 16 of the bytes: no metadata,
one column, and the count of a row that does not come. -/
def cutRows : Bytes :=
  [0x84, 0, 0, 1, 8, 0, 0, 0, 21, 0, 0, 0, 2, 0, 0, 0, 4, 0, 0, 0, 1, 0, 0, 0, 1]

/-- The rows that were cut behind their count are passed on. -/
theorem not_noTruncation_rows :
    ¬ ∀ s, (system 2 10 cutRows).Reachable s → s.NoTruncation := by
  intro hall
  have hrun : ((system 2 10 cutRows).run (create 2 10 cutRows)
      [.wait 1, .readHeader, .readBody none .create .create]).map (fun s => s.side.receiver.resolved) =
        some [⟨1, 0, .message ⟨⟨0x80, 0, 1, 8, 21⟩, cutRows.drop 9⟩⟩] := by decide
  obtain ⟨s, hs, hresolved⟩ := Option.map_eq_some_iff.mp hrun
  have hholds : s.side.receiver.Holds ⟨⟨0x80, 0, 1, 8, 21⟩, cutRows.drop 9⟩ := by
    refine .inr ⟨⟨1, 0, .message _⟩, ?_, rfl⟩
    rw [hresolved]
    exact List.mem_singleton.mpr rfl
  have hwhole := (hall s (Math.TransitionSystem.reachable_of_run rfl hs)).whole _ hholds
  exact absurd hwhole (by decide)

end ByteReceiver

end CqlDriver
