import CqlDriver.Connection.Receiver

/-!
# The bookkeeping of the receive side

The count equals the number of waiting slots, a waiting slot has an empty queue and
a receive loop, and on every stream the messages handed over, those in the queue and
the one being read are, in this order, the first frames that arrived. While the
connection is open, the rest of them are still on the socket.

## Main definitions

* `Receiver.Slots` — slots, count and queues agree
* `Receiver.Fifo` — what became of the frames that arrived
* `Receiver.Sound` — the invariant

## Main results

* `Receiver.Sound.step` — every step keeps the invariant
-/

namespace CqlDriver.Receiver

open Math (valuesOf)

variable {ω μ : Type*} {r q : Receiver ω μ} {stream : Nat} {waiter : ω} {message : μ}

/-- Slots, count and queues agree. -/
structure Slots (r : Receiver ω μ) : Prop where
  lengths : r.receivedMessageQueueMap.length = r.receivingPromiseMap.length
  count : r.receivingPromiseCount = r.receivingPromiseMap.countP Option.isSome
  empty : ∀ stream waiter, r.slot stream = some waiter → r.queue stream = []

/-- On each stream the frames that arrived are, in order, those handed to waits,
those in the queue, those being read, and the rest; nothing but the socket holds
the rest as long as there is a socket. -/
def Fifo (r : Receiver ω μ) (reading : List (Nat × μ)) : Prop :=
  ∀ stream, ∃ rest,
    r.deliveredTo stream ++ r.queue stream ++ valuesOf reading stream ++ rest =
      valuesOf r.arrived stream ∧ (r.isConnected = true → rest = valuesOf r.incoming stream)

/-- The bookkeeping invariant. -/
structure Sound (r : Receiver ω μ) : Prop where
  slots : r.Slots
  active : 0 < r.receivingPromiseCount → r.IsReceiving
  idle : r.isConnected = true → r.receivingPromiseCount = 0 → r.loop = .stopped
  intact : r.isConnected = true → r.brokenLoops = 0
  fifo : r.Fifo r.loop.frame

/-- Who waits is counted. -/
theorem Slots.count_pos (h : r.Slots) (hslot : r.slot stream = some waiter) :
    0 < r.receivingPromiseCount := by
  rw [h.count, List.countP_pos_iff]
  exact ⟨some waiter, List.mem_of_getElem? (getElem?_of_slot hslot), rfl⟩

/-- Nobody waits on a new connection. -/
theorem slot_create {maxStreams maxPendingMessages : Nat} (stream : Nat) :
    (create maxStreams maxPendingMessages : Receiver ω μ).slot stream = none := by
  rw [slot, create, List.getElem?_replicate]
  split
  · rfl
  · rfl

theorem queue_create {maxStreams maxPendingMessages : Nat} (stream : Nat) :
    (create maxStreams maxPendingMessages : Receiver ω μ).queue stream = [] := by
  rw [queue, create, List.getElem?_replicate]
  split
  · rfl
  · rfl

theorem create_sound (maxStreams maxPendingMessages : Nat) :
    (create maxStreams maxPendingMessages : Receiver ω μ).Sound := by
  constructor
  · constructor
    · simp [create]
    · simp [create, List.countP_replicate]
    · intro stream waiter hsome
      rw [slot_create] at hsome
      cases hsome
  · intro hpos
    exact absurd hpos (Nat.lt_irrefl 0)
  · intro _ _
    rfl
  · intro _
    rfl
  · intro stream
    refine ⟨[], ?_, fun _ => rfl⟩
    rw [queue_create]
    rfl

/-- What keeps the frames of every stream in line keeps the invariant. -/
theorem Fifo.of_eq {reading reading' : List (Nat × μ)} (h : r.Fifo reading)
    (heq : ∀ stream, q.deliveredTo stream ++ q.queue stream ++ valuesOf reading' stream =
      r.deliveredTo stream ++ r.queue stream ++ valuesOf reading stream)
    (harrived : q.arrived = r.arrived := by rfl) (hincoming : q.incoming = r.incoming := by rfl)
    (hconnected : q.isConnected = r.isConnected := by rfl) : q.Fifo reading' := by
  intro stream
  obtain ⟨rest, hrest, hsocket⟩ := h stream
  refine ⟨rest, ?_, ?_⟩
  · rw [heq, harrived]
    exact hrest
  · rw [hconnected, hincoming]
    exact hsocket

/-! ## Closing -/

theorem Slots.close (h : r.Slots) : r.close.Slots := by
  constructor
  · rw [Receiver.close, List.length_map]
    exact h.lengths
  · symm
    rw [Receiver.close, List.countP_map, List.countP_eq_zero]
    intro value _ hsome
    cases hsome
  · intro stream waiter hsome
    rw [slot_close] at hsome
    cases hsome

/-- Closing loses the frames on the socket and nothing else. -/
theorem Fifo.close {reading : List (Nat × μ)} (h : r.Fifo reading) : r.close.Fifo reading := by
  intro stream
  obtain ⟨rest, heq, -⟩ := h stream
  refine ⟨rest, ?_, fun hconnected => absurd hconnected Bool.false_ne_true⟩
  rw [deliveredTo_close]
  exact heq

/-- Once the connection is closed, a frame that was being read may be dropped. -/
theorem Fifo.drop {reading : List (Nat × μ)} (h : r.Fifo reading)
    (hclosed : r.isConnected = false) : r.Fifo [] := by
  intro stream
  obtain ⟨rest, heq, -⟩ := h stream
  refine ⟨valuesOf reading stream ++ rest, ?_, fun hconnected => ?_⟩
  · rw [Math.valuesOf_nil, List.append_nil, ← List.append_assoc]
    exact heq
  · rw [hclosed] at hconnected
    cases hconnected

theorem Sound.close (h : r.Sound) : r.close.Sound where
  slots := h.slots.close
  active := fun hpos => absurd hpos (Nat.lt_irrefl 0)
  idle := fun hconnected => absurd hconnected Bool.false_ne_true
  intact := fun hconnected => absurd hconnected Bool.false_ne_true
  fifo := h.fifo.close

theorem Sound.closeLoop (h : r.Sound) : r.closeLoop.Sound where
  slots := ⟨h.slots.close.lengths, h.slots.close.count, h.slots.close.empty⟩
  active := fun hpos => absurd hpos (Nat.lt_irrefl 0)
  idle := fun hconnected => absurd hconnected Bool.false_ne_true
  intact := fun hconnected => absurd hconnected Bool.false_ne_true
  fifo := h.fifo.close.drop rfl

/-! ## Waiting -/

/-- A message taken from a queue is the next one of its stream. -/
theorem Sound.takeMessage (h : r.Sound) {rest : List μ}
    (hlt : stream < r.receivingPromiseMap.length) (hqueue : r.queue stream = message :: rest) :
    ((r.setQueue stream rest).resolve stream waiter (.message message)).Sound := by
  have hlt' : stream < r.receivedMessageQueueMap.length := h.slots.lengths ▸ hlt
  refine { h with slots := ?_, fifo := ?_ }
  · refine { h.slots with lengths := ?_, empty := ?_ }
    · rw [resolve, setQueue, List.length_set]
      exact h.slots.lengths
    · intro other waiter hsome
      refine (queue_setQueue hlt' rest).trans ?_
      split
      next heq =>
        -- nobody waits on a stream whose queue is not empty
        subst heq
        have hempty := h.slots.empty stream waiter hsome
        rw [hqueue] at hempty
        cases hempty
      · exact h.slots.empty other waiter hsome
  · apply h.fifo.of_eq
    intro other
    rw [deliveredTo_resolve, deliveredTo_setQueue, queue_resolve, queue_setQueue hlt']
    by_cases hsame : stream = other
    · subst hsame
      rw [if_pos rfl, if_pos rfl, hqueue]
      simp [Outcome.message?, resolve, setQueue]
    · rw [if_neg hsame, if_neg hsame, List.append_nil]
      rfl

/-- A rejected wait changes nothing. -/
theorem Sound.reject (h : r.Sound) : (r.resolve stream waiter .alreadyWaiting).Sound := by
  refine { h with slots := { h.slots with }, fifo := ?_ }
  apply h.fifo.of_eq
  intro other
  rw [deliveredTo_resolve, queue_resolve]
  simp [Outcome.message?, resolve]

/-- A slot that starts to wait has an empty queue, and a loop if it is the first. -/
theorem Sound.register (h : r.Sound) (hlt : stream < r.receivingPromiseMap.length)
    (hqueue : r.queue stream = []) (hslot : r.slot stream = none) :
    (if r.receivingPromiseCount = 0 then
      ({ r.setSlot stream (some waiter) with
        receivingPromiseCount := r.receivingPromiseCount + 1 } : Receiver ω μ).startReceiver
    else
      { r.setSlot stream (some waiter) with
        receivingPromiseCount := r.receivingPromiseCount + 1 }).Sound := by
  have hslots : ({ r.setSlot stream (some waiter) with
      receivingPromiseCount := r.receivingPromiseCount + 1 } : Receiver ω μ).Slots := by
    constructor
    · rw [setSlot, List.length_set]
      exact h.slots.lengths
    · have hfree : r.receivingPromiseMap[stream]? = some none := by
        rw [slot, List.getElem?_eq_getElem hlt] at hslot
        rw [List.getElem?_eq_getElem hlt]
        exact congrArg some hslot
      have hcount := Math.countP_set_add (f := Option.isSome) (some waiter) hfree
      have hold := h.slots.count
      simp only [Option.isSome_none, Option.isSome_some, Bool.false_eq_true, if_false,
        if_true] at hcount
      simp only [setSlot]
      omega
    · intro other waiter' hsome
      rw [show ({ r.setSlot stream (some waiter) with
        receivingPromiseCount := r.receivingPromiseCount + 1 } : Receiver ω μ).slot other =
          (r.setSlot stream (some waiter)).slot other from rfl, slot_setSlot hlt] at hsome
      split at hsome
      next heq =>
        subst heq
        exact hqueue
      · exact h.slots.empty other waiter' hsome
  split
  next hzero =>
    rw [startReceiver]
    split
    next hconnected =>
      refine ⟨⟨hslots.lengths, hslots.count, hslots.empty⟩, fun _ => .inl (by rintro ⟨⟩),
        fun _ hnone => absurd hnone (Nat.succ_ne_zero _), h.intact, ?_⟩
      -- the loop that starts replaces a stopped one
      have hstopped := h.fifo
      rw [h.idle hconnected hzero] at hstopped
      exact hstopped
    next hclosed =>
      refine ⟨⟨hslots.lengths, hslots.count, hslots.empty⟩, fun _ => ?_, fun hconnected => ?_,
        fun hconnected => ?_, h.fifo⟩
      · exact .inr (Nat.succ_pos _)
      · exact absurd hconnected hclosed
      · exact absurd hconnected hclosed
  next hsome =>
    exact ⟨hslots, fun _ => h.active (Nat.pos_of_ne_zero hsome),
      fun _ hnone => absurd hnone (Nat.succ_ne_zero _), h.intact, h.fifo⟩

theorem Sound.waitNextMessage (h : r.Sound) (hlt : stream < r.receivingPromiseMap.length)
    (waiter : ω) : (r.waitNextMessage stream waiter).Sound := by
  rw [Receiver.waitNextMessage]
  split
  next message rest hqueue => exact h.takeMessage hlt hqueue
  next hqueue =>
    split
    · exact h.reject
    next hslot => exact h.register hlt hqueue hslot

/-! ## Receiving -/

/-- The end of an iteration, after its frame has been passed on. -/
theorem Slots.endIteration (h : r.Slots) (hintact : r.isConnected = true → r.brokenLoops = 0)
    (hfifo : r.Fifo []) : r.endIteration.Sound where
  slots := ⟨h.lengths, h.count, h.empty⟩
  active := by
    intro hpos
    left
    rw [Receiver.endIteration, if_neg (by exact Nat.ne_of_gt hpos)]
    rintro ⟨⟩
  idle := fun _ hzero => if_pos hzero
  intact := hintact
  fifo := by
    have hframe : r.endIteration.loop.frame = [] := by
      rw [Receiver.endIteration]
      split
      · rfl
      · rfl
    rw [hframe]
    exact hfifo

/-- A decoded message goes to the waiter of its stream or to the end of its queue. -/
theorem Sound.receiveBody (h : r.Sound) (hreading : r.loop = .readingBody stream message) :
    (r.receiveBody stream message).Sound := by
  have hfifo := h.fifo
  rw [hreading, ReceiveLoop.frame] at hfifo
  rw [Receiver.receiveBody]
  split
  · exact h.closeLoop
  next hlt =>
    rw [Nat.not_le] at hlt
    have hlt' : stream < r.receivingPromiseMap.length := h.slots.lengths ▸ hlt
    split
    next waiter hslot =>
      have hcount := Math.countP_set_add_one (f := Option.isSome) none (getElem?_of_slot hslot)
        rfl rfl
      have hold := h.slots.count
      have hqueue := h.slots.empty stream waiter hslot
      rw [if_neg (by omega)]
      refine Slots.endIteration ⟨?_, ?_, ?_⟩ h.intact ?_
      · rw [resolve, setSlot, List.length_set]
        exact h.slots.lengths
      · simp only [resolve, setSlot]
        omega
      · intro other waiter' hsome
        refine h.slots.empty other waiter' ?_
        have hset : (r.setSlot stream none).slot other = some waiter' := hsome
        rw [slot_setSlot hlt'] at hset
        split at hset
        · cases hset
        · exact hset
      · apply hfifo.of_eq
        intro other
        show (((r.setSlot stream none).resolve stream waiter (.message message)).deliveredTo other ++
          r.queue other) ++ valuesOf [] other = _
        rw [deliveredTo_resolve, deliveredTo_setSlot, Math.valuesOf_nil, Math.valuesOf_singleton]
        by_cases hsame : stream = other
        · subst hsame
          simp [hqueue, Outcome.message?]
        · simp [hsame]
    next hslot =>
      split
      next hroom =>
        refine Slots.endIteration ⟨?_, h.slots.count, ?_⟩ h.intact ?_
        · rw [setQueue, List.length_set]
          exact h.slots.lengths
        · intro other waiter' hsome
          rw [queue_setQueue hlt]
          split
          next heq =>
            subst heq
            rw [show (r.setQueue stream _).slot stream = r.slot stream from rfl, hslot] at hsome
            cases hsome
          · exact h.slots.empty other waiter' hsome
        · apply hfifo.of_eq
          intro other
          rw [deliveredTo_setQueue, queue_setQueue hlt, Math.valuesOf_nil, Math.valuesOf_singleton]
          by_cases hsame : stream = other
          · subst hsame
            simp
          · simp [hsame]
      · exact h.closeLoop

/-- Every step keeps the bookkeeping. -/
theorem Sound.step {event : Event ω μ} (h : r.Sound) (hstep : r.step event = some q) :
    q.Sound := by
  cases stepTo hstep with
  | wait lt => exact h.waitNextMessage lt _
  | @arrive stream message connected =>
    refine { h with slots := { h.slots with }, fifo := ?_ }
    intro other
    obtain ⟨lost, heq, hlost⟩ := h.fifo other
    refine ⟨lost ++ valuesOf [(stream, message)] other, ?_, fun _ => ?_⟩
    · rw [Math.valuesOf_append, ← heq, ← List.append_assoc]
      rfl
    · rw [Math.valuesOf_append, hlost connected]
  | @receiveHeader stream message rest connected reading next =>
    refine { h with
      slots := { h.slots with }, active := ?_, idle := ?_, fifo := ?_ }
    · intro _
      exact .inl (by rintro ⟨⟩)
    · intro _ hzero
      rw [h.idle connected hzero] at reading
      cases reading
    · intro other
      obtain ⟨lost, heq, hlost⟩ := h.fifo other
      refine ⟨valuesOf rest other, ?_, fun _ => rfl⟩
      rw [hlost connected, next, reading] at heq
      rw [← heq]
      by_cases hsame : stream = other
      · subst hsame
        simp [ReceiveLoop.frame, deliveredTo, queue]
      · simp [ReceiveLoop.frame, Math.valuesOf_cons_of_ne hsame, deliveredTo, queue]
  | receiveBody reading => exact h.receiveBody reading
  | receiveError running => exact h.closeLoop
  | startError broken =>
    exact { h.close with
      slots := { h.close.slots with }
      active := fun hpos => absurd hpos (Nat.lt_irrefl 0)
      intact := fun hconnected => absurd hconnected Bool.false_ne_true }
  | close => exact h.close

end CqlDriver.Receiver
