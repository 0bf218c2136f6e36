import CqlDriver.Math.Lists
import CqlDriver.Math.Transition

/-!
# The receive side of a connection

`Connection::waitNextMessage` takes a message from the stream's received queue or
marks the stream's promise slot as waiting. The first waiter starts a receive loop,
which passes each frame to the slot of its stream, or to the queue when nobody
waits there, and stops by itself when no slot is waiting. `close()` fails all
waiting slots and resets their count while a read may still be pending.

A waiter is named by a value of `ω` and a message by a value of `μ`; the frames that
reach the socket are pairs of a stream id and a message. `arrived` and `resolved`
record what reached the socket and how the promises were resolved.

## Main definitions

* `Receiver` — slots, queues, count and loop of one connection
* `Receiver.waitNextMessage`, `Receiver.receiveBody`, `Receiver.close` — the
  operations, under the names of the code
* `Receiver.step` — one event-loop task

## Main results

* `Receiver.stepTo` — what each event requires and does
-/

namespace CqlDriver

open Math (valuesOf)

/-- How a call of `waitNextMessage` was resolved. -/
inductive Outcome (μ : Type*)
  | message (message : μ)
  /-- `close()` failed the promise. -/
  | failed
  /-- The stream had a waiter already. -/
  | alreadyWaiting
  deriving DecidableEq, Repr

/-- The message of an outcome. -/
def Outcome.message? {μ : Type*} : Outcome μ → Option μ
  | .message m => some m
  | .failed => none
  | .alreadyWaiting => none

/-- A resolved promise. -/
structure Resolution (ω μ : Type*) where
  stream : Nat
  waiter : ω
  outcome : Outcome μ
  deriving DecidableEq, Repr

/-- Where the receive loop is. -/
inductive ReceiveLoop (μ : Type*)
  | stopped
  /-- The read of the next header is pending. -/
  | readingHeader
  /-- The header of this message was read, the read of its body is pending. -/
  | readingBody (stream : Nat) (message : μ)
  deriving DecidableEq, Repr

/-- The frame whose body is being read. -/
def ReceiveLoop.frame {μ : Type*} : ReceiveLoop μ → List (Nat × μ)
  | .stopped => []
  | .readingHeader => []
  | .readingBody stream message => [(stream, message)]

/-- The receive side of a `Connection`. -/
structure Receiver (ω μ : Type*) where
  /-- The socket holder has a socket. -/
  isConnected : Bool
  receivingPromiseMap : List (Option ω)
  receivedMessageQueueMap : List (List μ)
  receivingPromiseCount : Nat
  /-- The bound of each received queue. -/
  maxPendingMessages : Nat
  loop : ReceiveLoop μ
  /-- Loops started without a socket, whose exception is not handled yet. -/
  brokenLoops : Nat
  /-- The frames on the socket that have not been read. -/
  incoming : List (Nat × μ)
  /-- All frames that reached the socket. -/
  arrived : List (Nat × μ)
  /-- The resolved promises in the order of their resolution. -/
  resolved : List (Resolution ω μ)
  deriving DecidableEq, Repr

namespace Receiver

variable {ω μ : Type*} {r : Receiver ω μ}

/-- A connection that has just been connected. -/
def create (maxStreams maxPendingMessages : Nat) : Receiver ω μ where
  isConnected := true
  receivingPromiseMap := List.replicate maxStreams none
  receivedMessageQueueMap := List.replicate maxStreams []
  receivingPromiseCount := 0
  maxPendingMessages := maxPendingMessages
  loop := .stopped
  brokenLoops := 0
  incoming := []
  arrived := []
  resolved := []

/-- The waiter in the promise slot of a stream. -/
def slot (r : Receiver ω μ) (stream : Nat) : Option ω := (r.receivingPromiseMap[stream]?).join

/-- The received queue of a stream. -/
def queue (r : Receiver ω μ) (stream : Nat) : List μ :=
  (r.receivedMessageQueueMap[stream]?).getD []

/-- Write the promise slot of a stream. -/
def setSlot (r : Receiver ω μ) (stream : Nat) (waiter : Option ω) : Receiver ω μ :=
  { r with receivingPromiseMap := r.receivingPromiseMap.set stream waiter }

/-- Write the received queue of a stream. -/
def setQueue (r : Receiver ω μ) (stream : Nat) (messages : List μ) : Receiver ω μ :=
  { r with receivedMessageQueueMap := r.receivedMessageQueueMap.set stream messages }

/-- Resolve the promise of a waiter. -/
def resolve (r : Receiver ω μ) (stream : Nat) (waiter : ω) (outcome : Outcome μ) : Receiver ω μ :=
  { r with resolved := r.resolved ++ [⟨stream, waiter, outcome⟩] }

/-- The waiting slots with their waiters, in the order of the stream ids. -/
def waiting (r : Receiver ω μ) : List (Nat × ω) :=
  r.receivingPromiseMap.zipIdx.filterMap fun entry => entry.1.map fun waiter => (entry.2, waiter)

/-- Close the connection: drop the socket and fail all waiting slots. -/
def close (r : Receiver ω μ) : Receiver ω μ :=
  { r with
    isConnected := false
    receivingPromiseCount := 0
    receivingPromiseMap := r.receivingPromiseMap.map fun _ => none
    resolved := r.resolved ++ r.waiting.map fun entry => ⟨entry.1, entry.2, .failed⟩ }

/-- Start the receiver: the loop reads its first header, or finds no socket. -/
def startReceiver (r : Receiver ω μ) : Receiver ω μ :=
  if r.isConnected then
    { r with loop := .readingHeader }
  else
    { r with brokenLoops := r.brokenLoops + 1 }

/-- Wait for the next message from the given stream. -/
def waitNextMessage (r : Receiver ω μ) (stream : Nat) (waiter : ω) : Receiver ω μ :=
  match r.queue stream with
  | message :: rest => (r.setQueue stream rest).resolve stream waiter (.message message)
  | [] =>
    match r.slot stream with
    | some _ => r.resolve stream waiter .alreadyWaiting
    | none =>
      let registered :=
        { r.setSlot stream (some waiter) with
          receivingPromiseCount := r.receivingPromiseCount + 1 }
      -- the first who made promise has responsibility to start the receiver
      if r.receivingPromiseCount = 0 then registered.startReceiver else registered

/-- The end of an iteration: exit when no more message waiter is waiting. -/
def endIteration (r : Receiver ω μ) : Receiver ω μ :=
  { r with loop := if r.receivingPromiseCount = 0 then .stopped else .readingHeader }

/-- The loop ends with the connection closed. -/
def closeLoop (r : Receiver ω μ) : Receiver ω μ := { r.close with loop := .stopped }

/-- The second half of an iteration: a decoded message goes to its stream. -/
def receiveBody (r : Receiver ω μ) (stream : Nat) (message : μ) : Receiver ω μ :=
  if r.receivedMessageQueueMap.length ≤ stream then
    -- stream id of received message out of range
    r.closeLoop
  else
    match r.slot stream with
    | some waiter =>
      let passed := (r.setSlot stream none).resolve stream waiter (.message message)
      if r.receivingPromiseCount = 0 then
        -- incorrect receiving promise count, should be logic error
        passed.closeLoop
      else
        { passed with receivingPromiseCount := r.receivingPromiseCount - 1 }.endIteration
    | none =>
      if (r.queue stream).length < r.maxPendingMessages then
        (r.setQueue stream (r.queue stream ++ [message])).endIteration
      else
        -- max pending messages is reached
        r.closeLoop

/-- What can happen next. -/
inductive Event (ω μ : Type*)
  | wait (stream : Nat) (waiter : ω)
  /-- A frame reaches the socket. -/
  | arrive (stream : Nat) (message : μ)
  | receiveHeader
  | receiveBody
  /-- A read fails, or a header or body does not decode. -/
  | receiveError
  /-- The exception of a loop that was started without a socket is handled. -/
  | startError
  /-- A send error or the destructor closes the connection. -/
  | close
  deriving DecidableEq, Repr

/-- One event-loop task. A header is read from a socket; a body may have been read
just before the socket was closed. -/
def step (r : Receiver ω μ) : Event ω μ → Option (Receiver ω μ)
  | .wait stream waiter =>
    if stream < r.receivingPromiseMap.length then some (r.waitNextMessage stream waiter) else none
  | .arrive stream message =>
    if r.isConnected then
      some { r with
        incoming := r.incoming ++ [(stream, message)]
        arrived := r.arrived ++ [(stream, message)] }
    else
      none
  | .receiveHeader =>
    match r.isConnected, r.loop, r.incoming with
    | true, .readingHeader, (stream, message) :: rest =>
      some { r with loop := .readingBody stream message, incoming := rest }
    | _, _, _ => none
  | .receiveBody =>
    match r.loop with
    | .readingBody stream message => some (r.receiveBody stream message)
    | _ => none
  | .receiveError =>
    match r.loop with
    | .stopped => none
    | _ => some r.closeLoop
  | .startError =>
    if 0 < r.brokenLoops then some { r.close with brokenLoops := r.brokenLoops - 1 } else none
  | .close => some r.close

/-- The messages delivered to the waits on a stream so far. -/
def deliveredTo (r : Receiver ω μ) (stream : Nat) : List μ :=
  r.resolved.filterMap fun entry =>
    if entry.stream = stream then entry.outcome.message? else none

/-- A receive loop is running, or has been started and not ended. -/
def IsReceiving (r : Receiver ω μ) : Prop := r.loop ≠ .stopped ∨ 0 < r.brokenLoops

/-- What each event requires and does. -/
inductive StepTo (r : Receiver ω μ) : Event ω μ → Receiver ω μ → Prop
  | wait {stream : Nat} {waiter : ω} (lt : stream < r.receivingPromiseMap.length) :
      StepTo r (.wait stream waiter) (r.waitNextMessage stream waiter)
  | arrive {stream : Nat} {message : μ} (connected : r.isConnected = true) :
      StepTo r (.arrive stream message)
        { r with
          incoming := r.incoming ++ [(stream, message)]
          arrived := r.arrived ++ [(stream, message)] }
  | receiveHeader {stream : Nat} {message : μ} {rest : List (Nat × μ)}
      (connected : r.isConnected = true) (reading : r.loop = .readingHeader)
      (next : r.incoming = (stream, message) :: rest) :
      StepTo r .receiveHeader { r with loop := .readingBody stream message, incoming := rest }
  | receiveBody {stream : Nat} {message : μ} (reading : r.loop = .readingBody stream message) :
      StepTo r .receiveBody (r.receiveBody stream message)
  | receiveError (running : r.loop ≠ .stopped) : StepTo r .receiveError r.closeLoop
  | startError (broken : 0 < r.brokenLoops) :
      StepTo r .startError { r.close with brokenLoops := r.brokenLoops - 1 }
  | close : StepTo r .close r.close

/-- Every step is one of these. -/
theorem stepTo {q : Receiver ω μ} {event : Event ω μ} (h : r.step event = some q) :
    r.StepTo event q := by
  cases event with
  | wait stream waiter =>
    simp only [step, Option.ite_none_right_eq_some, Option.some.injEq] at h
    obtain ⟨hlt, rfl⟩ := h
    exact .wait hlt
  | arrive stream message =>
    simp only [step, Option.ite_none_right_eq_some, Option.some.injEq] at h
    obtain ⟨hconnected, rfl⟩ := h
    exact .arrive hconnected
  | receiveHeader =>
    simp only [step] at h
    split at h
    next hconnected hreading hnext =>
      cases h
      exact .receiveHeader hconnected hreading hnext
    · cases h
  | receiveBody =>
    simp only [step] at h
    split at h
    next hreading =>
      cases h
      exact .receiveBody hreading
    · cases h
  | receiveError =>
    simp only [step] at h
    split at h
    · cases h
    next hrunning =>
      cases h
      exact .receiveError hrunning
  | startError =>
    simp only [step, Option.ite_none_right_eq_some, Option.some.injEq] at h
    obtain ⟨hbroken, rfl⟩ := h
    exact .startError hbroken
  | close =>
    cases h
    exact .close

/-! ## Reading what was written -/

section Access

variable {stream other : Nat} {waiter : ω} {message : μ}

theorem slot_setSlot (hlt : stream < r.receivingPromiseMap.length) (value : Option ω) :
    (r.setSlot stream value).slot other = if stream = other then value else r.slot other := by
  rw [slot, setSlot, List.getElem?_set]
  split
  · rfl
  · rfl

theorem queue_setQueue (hlt : stream < r.receivedMessageQueueMap.length) (messages : List μ) :
    (r.setQueue stream messages).queue other =
      if stream = other then messages else r.queue other := by
  rw [queue, setQueue, List.getElem?_set]
  split
  · rfl
  · rfl

@[simp] theorem slot_close : r.close.slot stream = none := by
  rw [slot, close, List.getElem?_map]
  cases r.receivingPromiseMap[stream]? with
  | none => rfl
  | some _ => rfl

theorem getElem?_of_slot (h : r.slot stream = some waiter) :
    r.receivingPromiseMap[stream]? = some (some waiter) :=
  Option.join_eq_some_iff.mp h

theorem lt_of_slot (h : r.slot stream = some waiter) : stream < r.receivingPromiseMap.length :=
  (List.getElem?_eq_some_iff.mp (getElem?_of_slot h)).1

theorem mem_waiting : (stream, waiter) ∈ r.waiting ↔ r.slot stream = some waiter := by
  rw [waiting, List.mem_filterMap, slot, Option.join_eq_some_iff]
  constructor
  · rintro ⟨⟨value, place⟩, hmem, heq⟩
    obtain ⟨found, rfl, hpair⟩ := Option.map_eq_some_iff.mp heq
    cases hpair
    exact List.mem_zipIdx_iff_getElem?.mp hmem
  · intro hget
    exact ⟨(some waiter, stream), List.mem_zipIdx_iff_getElem?.mpr hget, rfl⟩

theorem deliveredTo_resolve (waiter : ω) (outcome : Outcome μ) :
    (r.resolve stream waiter outcome).deliveredTo other =
      r.deliveredTo other ++ if stream = other then outcome.message?.toList else [] := by
  rw [deliveredTo, resolve, List.filterMap_append, deliveredTo]
  congr 1
  by_cases hsame : stream = other
  · cases hmessage : outcome.message? with
    | none => simp [hsame, hmessage]
    | some message => simp [hsame, hmessage]
  · simp [hsame]

@[simp] theorem queue_resolve (waiter : ω) (outcome : Outcome μ) :
    (r.resolve stream waiter outcome).queue other = r.queue other := rfl

@[simp] theorem queue_setSlot (value : Option ω) :
    (r.setSlot stream value).queue other = r.queue other := rfl

@[simp] theorem deliveredTo_setSlot (value : Option ω) :
    (r.setSlot stream value).deliveredTo other = r.deliveredTo other := rfl

@[simp] theorem deliveredTo_setQueue (messages : List μ) :
    (r.setQueue stream messages).deliveredTo other = r.deliveredTo other := rfl

@[simp] theorem deliveredTo_close : r.close.deliveredTo stream = r.deliveredTo stream := by
  rw [deliveredTo, close, List.filterMap_append, List.filterMap_map]
  have hnone : r.waiting.filterMap ((fun entry : Resolution ω μ =>
      if entry.stream = stream then entry.outcome.message? else none) ∘
        fun entry => ⟨entry.1, entry.2, .failed⟩) = [] := by
    rw [List.filterMap_eq_nil_iff]
    intro entry _
    simp [Outcome.message?]
  rw [hnone, List.append_nil]
  rfl

end Access

end Receiver

end CqlDriver
