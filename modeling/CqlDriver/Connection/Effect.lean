import CqlDriver.Connection.Bookkeeping

/-!
# What a step of the receive side does to its streams

Seen by those who use the streams, a step of the receive side only moves frames
nearer, hands a message to a wait, registers a wait, or closes the connection. The
queue and the frame being read are one sequence here: the messages of a stream that
were read and not handed over.

## Main definitions

* `Receiver.unread` — the messages read and not handed over
* `Receiver.Reads`, `Receiver.HandsOver`, `Receiver.Registers`, `Receiver.Fails` —
  what a step can do

## Main results

* `Receiver.Sound.wait_effect` — what a wait does
* `Receiver.Sound.receive_effect` — what the loop or a close does
-/

namespace CqlDriver.Receiver

open Math (valuesOf)

variable {ω μ : Type*} {r q : Receiver ω μ} {stream : Nat} {waiter : ω} {message : μ}

/-- The messages of a stream that were read and not handed over, oldest first. -/
def unread (r : Receiver ω μ) (stream : Nat) : List μ :=
  r.queue stream ++ valuesOf r.loop.frame stream

/-- Frames come nearer; from a closed socket none does. -/
structure Reads (r q : Receiver ω μ) : Prop where
  connected : q.isConnected = r.isConnected
  slot : ∀ stream, q.slot stream = r.slot stream
  resolved : q.resolved = r.resolved
  moved : ∀ stream,
    q.unread stream ++ valuesOf q.incoming stream = r.unread stream ++ valuesOf r.incoming stream
  closed : r.isConnected = false → ∀ stream, q.unread stream = r.unread stream

/-- A wait gets the oldest message of its stream. -/
structure HandsOver (r q : Receiver ω μ) (stream : Nat) (waiter : ω) (message : μ) : Prop where
  connected : q.isConnected = r.isConnected
  slot : ∀ other, q.slot other = if stream = other then none else r.slot other
  resolved : q.resolved = r.resolved ++ [⟨stream, waiter, .message message⟩]
  oldest : ∀ other, r.unread other = (if stream = other then [message] else []) ++ q.unread other
  incoming : q.incoming = r.incoming

/-- A wait enters the slot of its stream. -/
structure Registers (r q : Receiver ω μ) (stream : Nat) (waiter : ω) : Prop where
  connected : q.isConnected = r.isConnected
  slot : ∀ other, q.slot other = if stream = other then some waiter else r.slot other
  resolved : q.resolved = r.resolved
  unread : ∀ other, q.unread other = r.unread other
  incoming : q.incoming = r.incoming

/-- The connection is closed; a frame that is being read may be lost with it. -/
structure Fails (r q : Receiver ω μ) : Prop where
  connected : q.isConnected = false
  slot : ∀ stream, q.slot stream = none
  resolved : q.resolved = r.resolved ++ r.waiting.map fun entry => ⟨entry.1, entry.2, .failed⟩
  unread : ∀ stream, q.unread stream <+: r.unread stream

/-! ## Waiting -/

/-- A wait gets a message, is rejected because its stream has a waiter, or enters
the slot. -/
theorem Sound.wait_effect (h : r.Sound) (hlt : stream < r.receivingPromiseMap.length) :
    (∃ message, r.HandsOver (r.waitNextMessage stream waiter) stream waiter message) ∨
      (∃ holder, r.slot stream = some holder) ∨
      r.Registers (r.waitNextMessage stream waiter) stream waiter := by
  have hlt' : stream < r.receivedMessageQueueMap.length := h.slots.lengths ▸ hlt
  rw [Receiver.waitNextMessage]
  split
  next message rest hqueue =>
    left
    refine ⟨message, rfl, fun other => ?_, rfl, fun other => ?_, rfl⟩
    · show r.slot other = _
      split
      next heq =>
        subst heq
        -- a waiting slot would have an empty queue
        cases hslot : r.slot stream with
        | none => rfl
        | some holder =>
          have hempty := h.slots.empty stream holder hslot
          rw [hqueue] at hempty
          cases hempty
      · rfl
    · show r.queue other ++ valuesOf r.loop.frame other =
        _ ++ ((r.setQueue stream rest).queue other ++ valuesOf r.loop.frame other)
      rw [queue_setQueue hlt']
      split
      next heq =>
        subst heq
        rw [hqueue]
        rfl
      · rfl
  next hqueue =>
    split
    next holder hslot => exact .inr (.inl ⟨holder, hslot⟩)
    next hslot =>
      right
      right
      have hframe : ∀ next : Receiver ω μ,
          next.receivingPromiseMap = (r.setSlot stream (some waiter)).receivingPromiseMap →
          next.receivedMessageQueueMap = r.receivedMessageQueueMap →
          next.isConnected = r.isConnected → next.resolved = r.resolved →
          next.incoming = r.incoming → next.loop.frame = r.loop.frame →
          r.Registers next stream waiter := by
        intro next hmap hqueues hconnected hresolved hincoming hloop
        refine ⟨hconnected, fun other => ?_, hresolved, fun other => ?_, hincoming⟩
        · rw [← slot_setSlot hlt, slot, slot, hmap]
        · rw [unread, unread, queue, queue, hqueues, hloop]
      split
      next hzero =>
        rw [startReceiver]
        split
        next hconnected =>
          -- the loop that starts replaces a stopped one
          have hstopped := h.idle hconnected hzero
          exact hframe _ rfl rfl rfl rfl rfl (by rw [hstopped]; rfl)
        · exact hframe _ rfl rfl rfl rfl rfl rfl
      · exact hframe _ rfl rfl rfl rfl rfl rfl

/-! ## The loop and the closing -/

/-- The loop ends with the connection closed, whatever became of it. -/
theorem close_fails (loop : ReceiveLoop μ) (brokenLoops : Nat) (h : loop = .stopped ∨ loop = r.loop) :
    r.Fails { r.close with loop, brokenLoops } where
  connected := rfl
  slot := fun stream => by
    show r.close.slot stream = none
    exact slot_close
  resolved := rfl
  unread := by
    intro stream
    show r.queue stream ++ valuesOf loop.frame stream <+: r.queue stream ++ _
    rcases h with rfl | rfl
    · rw [ReceiveLoop.frame, Math.valuesOf_nil, List.append_nil]
      exact List.prefix_append _ _
    · exact List.prefix_rfl

/-- The end of an iteration, seen from outside. -/
theorem unread_endIteration : r.endIteration.unread stream = r.queue stream := by
  rw [unread, endIteration]
  split
  · exact List.append_nil _
  · exact List.append_nil _

/-- A decoded message is handed to the waiter of its stream, stays unread, or is
lost with the connection. -/
theorem Sound.receiveBody_effect (h : r.Sound) (hreading : r.loop = .readingBody stream message) :
    r.Reads (r.receiveBody stream message) ∨
      (∃ waiter, r.slot stream = some waiter ∧
        r.HandsOver (r.receiveBody stream message) stream waiter message) ∨
      r.Fails (r.receiveBody stream message) := by
  have hframe : ∀ other, valuesOf r.loop.frame other = if stream = other then [message] else [] := by
    intro other
    rw [hreading, ReceiveLoop.frame, Math.valuesOf_singleton]
  rw [Receiver.receiveBody]
  split
  · exact .inr (.inr (close_fails .stopped _ (.inl rfl)))
  next hlt =>
    rw [Nat.not_le] at hlt
    split
    next waiter hslot =>
      have hcount := h.slots.count_pos hslot
      have hqueue := h.slots.empty stream waiter hslot
      rw [if_neg (Nat.ne_of_gt hcount)]
      right
      left
      refine ⟨waiter, hslot, rfl, ?_, rfl, ?_, rfl⟩
      · intro other
        exact slot_setSlot (lt_of_slot hslot) none
      · intro other
        rw [unread_endIteration]
        show r.queue other ++ valuesOf r.loop.frame other = _ ++ r.queue other
        rw [hframe]
        split
        next heq =>
          subst heq
          rw [hqueue]
          rfl
        · rw [List.append_nil, List.nil_append]
    · split
      next hroom =>
        have hunread : ∀ other,
            (r.setQueue stream (r.queue stream ++ [message])).endIteration.unread other =
              r.unread other := by
          intro other
          rw [unread_endIteration, queue_setQueue hlt, unread, hframe]
          split
          next heq =>
            subst heq
            rfl
          · rw [List.append_nil]
        left
        refine ⟨rfl, fun _ => rfl, rfl, fun other => ?_, fun _ other => hunread other⟩
        rw [hunread]
        rfl
      · exact .inr (.inr (close_fails .stopped _ (.inl rfl)))

/-- The steps that no user of a stream takes. -/
def Event.IsInternal : Event ω μ → Prop
  | .wait _ _ => False
  | .arrive _ _ => False
  | _ => True

/-- What the loop or a close does to the streams. -/
theorem Sound.receive_effect {event : Event ω μ} (h : r.Sound) (hinternal : event.IsInternal)
    (hstep : r.step event = some q) :
    r.Reads q ∨
      (∃ stream waiter message, r.slot stream = some waiter ∧
        r.HandsOver q stream waiter message) ∨
      r.Fails q := by
  cases stepTo hstep with
  | wait lt => cases hinternal
  | arrive connected => cases hinternal
  | @receiveHeader stream message rest connected reading next =>
    left
    refine ⟨rfl, fun _ => rfl, rfl, fun other => ?_, fun hclosed => ?_⟩
    · show (r.queue other ++ valuesOf [(stream, message)] other) ++ valuesOf rest other =
        (r.queue other ++ _) ++ _
      rw [next, reading, ReceiveLoop.frame, Math.valuesOf_nil, List.append_nil, List.append_assoc,
        ← Math.valuesOf_append]
      rfl
    · rw [connected] at hclosed
      cases hclosed
  | @receiveBody stream message reading =>
    rcases h.receiveBody_effect reading with hread | ⟨waiter, hslot, hand⟩ | hfail
    · exact .inl hread
    · exact .inr (.inl ⟨stream, waiter, message, hslot, hand⟩)
    · exact .inr (.inr hfail)
  | receiveError running => exact .inr (.inr (close_fails .stopped _ (.inl rfl)))
  | startError broken => exact .inr (.inr (close_fails r.loop _ (.inr rfl)))
  | close => exact .inr (.inr (close_fails r.loop _ (.inr rfl)))

/-- No step changes the number of streams. -/
theorem length_of_step {event : Event ω μ} (hstep : r.step event = some q) :
    q.receivingPromiseMap.length = r.receivingPromiseMap.length := by
  cases stepTo hstep with
  | @wait stream waiter lt =>
    rw [waitNextMessage]
    split
    · rfl
    · split
      · rfl
      · split
        · rw [startReceiver]
          split
          · exact List.length_set
          · exact List.length_set
        · exact List.length_set
  | arrive connected => rfl
  | receiveHeader connected reading next => rfl
  | receiveBody reading =>
    rw [receiveBody]
    split
    · exact List.length_map _
    · split
      · split
        · exact (List.length_map _).trans List.length_set
        · exact List.length_set
      · split
        · rfl
        · exact List.length_map _
  | receiveError running => exact List.length_map _
  | startError broken => exact List.length_map _
  | close => exact List.length_map _

end CqlDriver.Receiver
