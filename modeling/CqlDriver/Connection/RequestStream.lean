import CqlDriver.Connection.SendOrder
import CqlDriver.Connection.WireFrame
import CqlDriver.Math.Runs

/-!
# The stream of requests

What a connection gives to its socket is one stream of bytes. Whoever reads it frame by frame,
with the length in each header, gets the messages of the first calls of `sendMessage` in the order
of the calls, each on its stream, and stops where no further call has had its turn. A socket that
breaks delivers a first part of the stream, and what is read then are the first of these frames.

## Main definitions

* `RequestMessage.CarriedBy` — a frame carries a message
* `RequestMessage.Fits` — the sizes of a message fit its header
* `SendSide.RequestsRead` — the stream reads back as the calls

## Main results

* `SendSide.requestsRead_of_fits`
-/

namespace CqlDriver

open Math (Framing)

/-! ## Frames of messages -/

namespace RequestMessage

variable {compress : Bytes → Appended} {message : RequestMessage} {bytes : Bytes}

/-- The frame has the stream and the kind of the message, and its body, compressed if the flag
is set. -/
structure CarriedBy (compress : Bytes → Appended) (message : RequestMessage)
    (frame : ReceivedFrame) : Prop where
  direction : frame.header.direction = MessageDirection.request
  streamId : frame.header.streamId = message.streamId.toNat
  opCode : frame.header.opCode = message.opCode
  body : ∃ body, message.encodeBody = (body, none) ∧
    if (MessageHeaderFlags.ofByte frame.header.flags).compression then
      compress body = (frame.body, none)
    else frame.body = body

/-- The factory sets no flags, and no length is too large for the header. -/
structure Fits (compress : Bytes → Appended) (message : RequestMessage) : Prop where
  flags : message.flags = 0
  opCode_lt : message.opCode < 2 ^ 8
  length_lt : ∀ body, message.encodeBody = (body, none) → body.length < 2 ^ 31
  compressed_lt : ∀ body output, message.encodeBody = (body, none) →
    compress body = (output, none) → output.length < 2 ^ 31

/-- A message of the factory fits if its body does. -/
theorem fits_makeRequestMessage {type : RequestType} {streamId : UInt16} {encodeBody : Appended}
    (hlength : ∀ body, encodeBody = (body, none) → body.length < 2 ^ 31)
    (hcompressed : ∀ body output, encodeBody = (body, none) →
      compress body = (output, none) → output.length < 2 ^ 31) :
    (RequestMessageFactory.makeRequestMessage type streamId encodeBody).Fits compress :=
  ⟨rfl, type.opCode_lt, hlength, hcompressed⟩

/-- A body that is encoded without failing, and a compressor that copies. -/
theorem fits_of_length {type : RequestType} {streamId : UInt16} {body : Bytes}
    (hlength : body.length < 2 ^ 31) :
    (RequestMessageFactory.makeRequestMessage type streamId (body, none)).Fits
      fun bytes => (bytes, none) := by
  apply fits_makeRequestMessage
  · intro _ hencoded
    cases hencoded
    exact hlength
  · intro _ _ hencoded hcompressed
    cases hencoded
    cases hcompressed
    exact hlength

/-- The header of a request with its length. -/
theorem header_eq_encodeHeaderPre (flags n : Nat) :
    message.header flags n = (MessageHeader.encodeHeaderPre
      ⟨MessageDirection.request, flags, message.streamId.toNat, message.opCode, n⟩ []).1 := by
  simp [header, MessageHeader.encodeHeaderPre, MessageDirection.request, MessageHeader.version,
    ProtocolInt.encode_natCast]

/-- The bytes behind a header make a whole frame. -/
theorem isWhole_of_payload {payload : Bytes} (flags : Nat) (hfits : message.Fits compress)
    (hflags : flags < 2 ^ 8) (hlength : payload.length < 2 ^ 31) :
    ReceivedFrame.IsWhole ⟨⟨MessageDirection.request, flags, message.streamId.toNat,
      message.opCode, payload.length⟩, payload⟩ where
  direction := .inl rfl
  flags_lt := hflags
  streamId_lt := message.streamId.toNat_lt
  opCode_lt := hfits.opCode_lt
  bodyLength := rfl
  length_lt := hlength

/-- The complete frame of a message is a frame on the wire that carries it. -/
theorem exists_carriedBy (hframe : message.IsFrame compress bytes) (hfits : message.Fits compress) :
    ∃ frame : ReceivedFrame, frame.IsWhole ∧ frame.bytes = bytes ∧
      message.CarriedBy compress frame := by
  cases hframe with
  | @plain body encoded =>
    refine ⟨_, isWhole_of_payload message.flags hfits ?_ (hfits.length_lt body encoded), ?_, rfl, rfl, rfl, body, encoded, ?_⟩
    · rw [hfits.flags]
      decide
    · rw [ReceivedFrame.bytes, header_eq_encodeHeaderPre]
    · simp [MessageHeaderFlags.ofByte, hfits.flags]
  | @compressed body output encoded compressed =>
    refine ⟨_, isWhole_of_payload (message.flags ||| 1) hfits ?_
      (hfits.compressed_lt body output encoded compressed), ?_, rfl, rfl, rfl, body, encoded, ?_⟩
    · rw [hfits.flags]
      decide
    · rw [ReceivedFrame.bytes, header_eq_encodeHeaderPre]
    · simp [MessageHeaderFlags.ofByte, hfits.flags, compressed]

end RequestMessage

namespace SendSide

variable {ω μ : Type*} {compress : Bytes → Appended} {s t : SendSide ω μ}
  {k maxStreams maxPendingMessages : Nat} {call new : SendCall}

/-- All messages that are sent fit. -/
def SendsFitting (compress : Bytes → Appended) (_ : SendSide ω μ) : Event ω μ → Prop
  | .sendMessage message _ => message.Fits compress
  | .resume _ | .putDone _ | .flushDone _ | .writeFailed _ _ | .handleException _ | .setCompressor
  | .finishReady | .receive _ => True

/-- Read frame by frame, the stream gives the messages of the first calls in order; these are
all calls that wrote something. A part of the stream gives the first of the frames. -/
structure RequestsRead (compress : Bytes → Appended) (s : SendSide ω μ)
    (frames : List ReceivedFrame) : Prop where
  read : ReceivedFrame.framing.read s.written = (frames, [])
  carried : List.Forall₂ (fun call frame => call.message.CarriedBy compress frame)
    (s.calls.take frames.length) frames
  unwritten : ∀ call ∈ s.calls.drop frames.length, call.frame = none
  sent : ∀ k call, s.calls[k]? = some call → call.status = .sent → k < frames.length
  broken : ∀ n, (ReceivedFrame.framing.read (s.written.take n)).1 <+: frames

/-! ## The messages of the calls -/

theorem messages_setCall (hcall : s.calls[k]? = some call) (hsame : new.message = call.message) :
    (s.setCall k new).calls.map SendCall.message = s.calls.map SendCall.message := by
  obtain ⟨hlt, rfl⟩ := List.getElem?_eq_some_iff.mp hcall
  rw [setCall, List.map_set, hsame]
  apply List.ext_getElem?
  intro i
  by_cases hi : k = i
  · subst hi
    simp [hlt]
  · simp [hi]

theorem messages_startSending (hcall : s.calls[k]? = some call) :
    (s.startSending compress k call).calls.map SendCall.message =
      s.calls.map SendCall.message := by
  rw [startSending]
  split
  · exact messages_setCall hcall rfl
  · split
    · exact messages_setCall hcall rfl
    · exact messages_setCall hcall rfl

theorem messages_handleException (hcall : s.calls[k]? = some call) (ex : Exception) :
    (s.handleException k call ex).calls.map SendCall.message = s.calls.map SendCall.message :=
  messages_setCall hcall rfl

/-- Only a call of `sendMessage` adds a message, and it has the stream id of its stream. -/
theorem messages_step [DecidableEq ω] [DecidableEq μ] {event : Event ω μ}
    (h : s.step compress event = some t) :
    t.calls.map SendCall.message = s.calls.map SendCall.message ∨
      ∃ message stream streamId, event = .sendMessage message stream ∧
        t.calls.map SendCall.message =
          s.calls.map SendCall.message ++ [{ message with streamId }] := by
  cases event with
  | sendMessage message stream =>
    simp only [step] at h
    split at h
    next streamId hstream =>
      cases h
      exact .inr ⟨message, stream, streamId, rfl, by simp⟩
    · cases h
      exact .inl rfl
  | resume k =>
    simp only [step] at h
    split at h
    next hcall =>
      rw [resume] at h
      split at h
      · cases h
        exact .inl (messages_startSending hcall)
      · cases h
        exact .inl (messages_handleException hcall _)
      · cases h
    · cases h
  | putDone k =>
    simp only [step] at h
    split at h
    next hcall =>
      cases h
      rw [startFlush]
      split
      · exact .inl (messages_setCall hcall rfl)
      · exact .inl (messages_setCall hcall rfl)
    · cases h
  | flushDone k =>
    simp only [step] at h
    split at h
    next hcall =>
      cases h
      exact .inl (messages_setCall hcall rfl)
    · cases h
  | writeFailed k ex =>
    simp only [step] at h
    split at h
    next hcall =>
      cases h
      exact .inl (messages_setCall hcall rfl)
    next hcall =>
      cases h
      exact .inl (messages_setCall hcall rfl)
    · cases h
  | handleException k =>
    simp only [step] at h
    split at h
    next hcall =>
      cases h
      exact .inl (messages_handleException hcall _)
    · cases h
  | setCompressor =>
    simp only [step, Option.ite_none_right_eq_some, Option.some.injEq] at h
    obtain ⟨-, rfl⟩ := h
    exact .inl rfl
  | finishReady =>
    simp only [step, Option.ite_none_right_eq_some, Option.some.injEq] at h
    obtain ⟨-, rfl⟩ := h
    exact .inl rfl
  | receive event =>
    obtain ⟨receiver, -, rfl⟩ := Option.map_eq_some_iff.mp h
    exact .inl rfl

/-- What holds of all messages that are sent, whatever their stream ids, holds of the calls. -/
theorem messages_of_reachable [DecidableEq ω] [DecidableEq μ] {P : RequestMessage → Prop}
    {allowed : SendSide ω μ → Event ω μ → Prop}
    (hsend : ∀ s message stream, allowed s (.sendMessage message stream) → P message)
    (hstream : ∀ (message : RequestMessage) streamId, P message → P { message with streamId })
    (h : (system compress maxStreams maxPendingMessages).ReachableWhen allowed s) :
    ∀ message ∈ s.calls.map SendCall.message, P message := by
  apply h.invariant (fun s => ∀ message ∈ s.calls.map SendCall.message, P message)
  · rintro _ rfl message hmessage
    cases hmessage
  · intro s event t hs hsends hstep message hmessage
    rcases messages_step hstep with hsame | ⟨sent, stream, streamId, rfl, hmessages⟩
    · rw [hsame] at hmessage
      exact hs message hmessage
    · rw [hmessages] at hmessage
      rcases List.mem_append.mp hmessage with hold | hnew
      · exact hs message hold
      · obtain rfl := List.mem_singleton.mp hnew
        exact hstream sent streamId (hsend s sent stream hsends)

theorem fits_of_reachable [DecidableEq ω] [DecidableEq μ]
    (h : (system compress maxStreams maxPendingMessages).ReachableWhen (SendsFitting compress) s) :
    ∀ message ∈ s.calls.map SendCall.message, message.Fits compress := by
  apply messages_of_reachable (fun _ _ _ hfits => hfits) _ h
  -- the stream id is not part of the sizes
  intro message streamId hfits
  exact ⟨hfits.flags, hfits.opCode_lt, hfits.length_lt, hfits.compressed_lt⟩

/-! ## Reading the stream -/

/-- The frames of calls that had their turn. -/
theorem exists_frames {calls : List SendCall}
    (hcalls : ∀ call ∈ calls, ∃ bytes, call.frame = some bytes ∧
      call.message.IsFrame compress bytes ∧ call.message.Fits compress) :
    ∃ frames : List ReceivedFrame, (∀ frame ∈ frames, frame.IsWhole) ∧
      (calls.filterMap SendCall.frame).flatten = frames.flatMap ReceivedFrame.bytes ∧
        List.Forall₂ (fun call frame => call.message.CarriedBy compress frame) calls frames := by
  induction calls with
  | nil => exact ⟨[], by simp, rfl, .nil⟩
  | cons call calls ih =>
    obtain ⟨frames, hwhole, hbytes, hcarried⟩ :=
      ih fun other hother => hcalls other (List.mem_cons_of_mem call hother)
    obtain ⟨bytes, hframe, hisFrame, hfits⟩ := hcalls call List.mem_cons_self
    obtain ⟨frame, hframeWhole, rfl, hframeCarried⟩ := RequestMessage.exists_carriedBy hisFrame hfits
    refine ⟨frame :: frames, ?_, ?_, .cons hframeCarried hcarried⟩
    · intro other hother
      rcases List.mem_cons.mp hother with rfl | hmem
      · exact hframeWhole
      · exact hwhole other hmem
    · rw [List.filterMap_cons_some hframe, List.flatten_cons, List.flatMap_cons, hbytes]

/-- The stream of bytes of calls that were chained reads back as the calls. -/
theorem Chained.exists_requestsRead (hchained : s.Chained compress)
    (hfits : ∀ message ∈ s.calls.map SendCall.message, message.Fits compress) :
    ∃ frames, s.RequestsRead compress frames := by
  obtain ⟨k, hle, hwritten, hframes, hrest⟩ := hchained.written_eq
  have hcalls : ∀ call ∈ s.calls.take k, ∃ bytes, call.frame = some bytes ∧
      call.message.IsFrame compress bytes ∧ call.message.Fits compress := by
    intro call hcall
    obtain ⟨bytes, hbytes, hframe⟩ := hframes call hcall
    have hmem : call.message ∈ s.calls.map SendCall.message :=
      List.mem_map_of_mem (List.mem_of_mem_take hcall)
    exact ⟨bytes, hbytes, hframe, hfits _ hmem⟩
  obtain ⟨frames, hwhole, hbytes, hcarried⟩ := exists_frames hcalls
  have hlength : frames.length = k := by
    rw [← hcarried.length_eq, List.length_take, Nat.min_eq_left hle]
  have hstream : s.written = frames.flatMap ReceivedFrame.framing.write := hwritten.trans hbytes
  refine ⟨frames, ?_, ?_, ?_, ?_, ?_⟩
  · rw [hstream]
    exact Framing.read_flatMap hwhole
  · rw [hlength]
    exact hcarried
  · rw [hlength]
    exact hrest
  · intro i call hcall hsent
    by_contra hbehind
    rw [hlength, Nat.not_lt] at hbehind
    have hmem : call ∈ s.calls.drop k := by
      refine List.mem_iff_getElem?.mpr ⟨i - k, ?_⟩
      rw [List.getElem?_drop, Nat.add_sub_cancel' hbehind]
      exact hcall
    exact hchained.given i call hcall hsent (hrest call hmem)
  · intro n
    rw [hstream]
    exact Framing.read_take hwhole n

/-- In every run whose messages fit, the stream of bytes reads back as the calls. -/
theorem requestsRead_of_fits [DecidableEq ω] [DecidableEq μ]
    (h : (system compress maxStreams maxPendingMessages).ReachableWhen (SendsFitting compress) s) :
    ∃ frames, s.RequestsRead compress frames :=
  (chained_of_reachable h.reachable).exists_requestsRead (fits_of_reachable h)

/-- Two calls on two streams, the second of which is being put. -/
theorem requestsRead_run : ∃ (s : SendSide Nat Nat) (frames : List ReceivedFrame),
    s.RequestsRead (fun bytes => (bytes, none)) frames ∧
      frames.map (fun frame => (frame.header.streamId, frame.body)) = [(1, [1, 2]), (2, [3])] := by
  let query : RequestMessage := RequestMessageFactory.makeRequestMessage .query 0 ([1, 2], none)
  let prepare : RequestMessage := RequestMessageFactory.makeRequestMessage .prepare 0 ([3], none)
  let events : List (Event Nat Nat) :=
    [.sendMessage query (.create 1 0), .resume 0, .sendMessage prepare (.create 2 0),
      .putDone 0, .flushDone 0, .resume 1]
  have hallowed : ∀ event ∈ events, ∀ s : SendSide Nat Nat,
      SendsFitting (fun bytes => (bytes, none)) s event := by
    simp only [events, List.forall_mem_cons, SendsFitting, implies_true, List.not_mem_nil,
      false_imp_iff, and_true, true_and]
    exact ⟨fun _ => RequestMessage.fits_of_length (by decide),
      fun _ => RequestMessage.fits_of_length (by decide)⟩
  have hrun : ((system (fun bytes => (bytes, none)) 4 4).run (create 4 4 : SendSide Nat Nat)
      events).map (fun s => (ReceivedFrame.framing.read s.written).1.map fun frame =>
        (frame.header.streamId, frame.body)) = some [(1, [1, 2]), (2, [3])] := by decide
  obtain ⟨s, hs, hread⟩ := Option.map_eq_some_iff.mp hrun
  obtain ⟨frames, hframes⟩ := requestsRead_of_fits (.of_run (.start rfl) hallowed hs)
  rw [hframes.read] at hread
  exact ⟨s, frames, hframes, hread⟩

end SendSide

end CqlDriver
