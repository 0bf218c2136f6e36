import CqlDriver.Connection.ByteReceiver
import CqlDriver.Connection.LZ4Block
import CqlDriver.Math.Ends

/-!
# The frame of a request

The header of a request is written into the sending buffer first, with the length zero. The body
follows it, or is written into a buffer of its own and compressed behind the header. At the end the
length of what is behind the header is put in place. All buffers, and the values that
`encodeHeaderPost` works with, are used again for the next message.

## Main definitions

* `RequestMessageFactory.makeRequestMessage` — a message with its header set
* `SendingBuffers`, `Connection.encodeMessageInto` — encoding into buffers that were used
* `IsPayload`, `IsRequestFrame` — what the receiver of a frame reads
* `Connection.SendsFrame`, `Connection.EncodesRequest` — the contracts

## Main results

* `Connection.leaves_encodeMessageInto` — what the buffers held does not matter
* `MessageHeader.decodeHeader_header` — the header is read back
* `Connection.encodesRequest`
* `Connection.not_sendsFrame_hugeBody` — a body that is too large for LZ4
-/

namespace CqlDriver

open Math (Decode Cursor Ends bigEndian ofBigEndian toSigned ofSigned ends_bind ends_get ends_modify
  ends_throw)

/-! ## Messages -/

/-- The types of the request messages. -/
inductive RequestType
  | startup
  | options
  | query
  | prepare
  | execute
  | register
  | batch
  | authResponse
  deriving DecidableEq, Repr

def RequestType.opCode : RequestType → Nat
  | startup => 1
  | options => 5
  | query => 7
  | prepare => 9
  | execute => 0xa
  | register => 0xb
  | batch => 0xd
  | authResponse => 0xf

def MessageDirection.request : Nat := 0

/-- Creates a new request message instance with header set, for a stream. -/
def RequestMessageFactory.makeRequestMessage (type : RequestType) (streamId : UInt16)
    (encodeBody : Appended) : RequestMessage :=
  ⟨0, streamId, type.opCode, encodeBody⟩

/-- The header of a request. -/
def RequestMessage.getHeader (message : RequestMessage) : MessageHeader :=
  ⟨MessageDirection.request, message.flags, message.streamId.toNat, message.opCode, 0⟩

/-- Encode message body to binary data. -/
def RequestMessage.encodeBodyTo (message : RequestMessage) (data : Bytes) : Appended :=
  (data ++ message.encodeBody.1, message.encodeBody.2)

/-! ## Encoding -/

/-- The buffers of a connection, and the `thread_local` values of `encodeHeaderPost`. -/
structure SendingBuffers where
  sendingBuffer : Bytes
  sendingBufferPreCompress : Bytes
  bodyLength : Int
  bodyLengthData : Bytes
  deriving DecidableEq, Repr

/-- A function that writes into the buffers. -/
abbrev BufferWriter := EStateM Exception SendingBuffers Unit

namespace SendingBuffers

/-- Append to the sending buffer. -/
def append (f : Bytes → Appended) : BufferWriter := fun buffers =>
  match f buffers.sendingBuffer with
  | (data, none) => .ok () { buffers with sendingBuffer := data }
  | (data, some ex) => .error ex { buffers with sendingBuffer := data }

/-- Append to the buffer for bodies that are to be compressed. -/
def appendPreCompress (f : Bytes → Appended) : BufferWriter := fun buffers =>
  match f buffers.sendingBufferPreCompress with
  | (data, none) => .ok () { buffers with sendingBufferPreCompress := data }
  | (data, some ex) => .error ex { buffers with sendingBufferPreCompress := data }

end SendingBuffers

namespace MessageHeader

/-- The protocol version. -/
def version : Nat := 4

/-- Encode message header to binary data. -/
def encodeHeaderPre (header : MessageHeader) (data : Bytes) : Appended :=
  if data ≠ [] then
    (data, some (logicException "data should be empty"))
  else
    let data := data ++ ProtocolByte.encode (version ||| header.direction)
    let data := data ++ ProtocolByte.encode header.flags
    let data := data ++ ProtocolShort.encode header.streamId
    let data := data ++ ProtocolByte.encode header.opCode
    (data ++ ProtocolInt.encode header.bodyLength, none)

/-- Update body length in binary data. -/
def encodeHeaderPost : BufferWriter := do
  let data := (← get).sendingBuffer
  if data.length < Connection.headerSize then
    throw (logicException "please call encodeHeaderPre first")
  else do
    modify fun buffers =>
      { buffers with bodyLength := intOfSize (data.length - Connection.headerSize) }
    modify fun buffers => { buffers with bodyLengthData := [] }
    modify fun buffers => { buffers with
      bodyLengthData := buffers.bodyLengthData ++ ProtocolInt.encode buffers.bodyLength }
    modify fun buffers => { buffers with
      sendingBuffer := overwrite buffers.sendingBuffer
        (Connection.headerSize - buffers.bodyLengthData.length) buffers.bodyLengthData }

end MessageHeader

namespace Connection

/-- The header without its length, and the body. -/
def encodeParts (isReady : Bool) (compressor : Option LZ4Block) (message : RequestMessage) :
    BufferWriter :=
  match isReady, compressor with
  | true, some lz4 => do
    -- with compression
    let header := { message.getHeader with flags := message.flags ||| 1 }
    SendingBuffers.append header.encodeHeaderPre
    modify fun buffers => { buffers with sendingBufferPreCompress := [] }
    SendingBuffers.appendPreCompress message.encodeBodyTo
    let source := (← get).sendingBufferPreCompress
    SendingBuffers.append (LZ4Compressor.compressInto lz4 source)
  | _, _ => do
    -- without compression
    SendingBuffers.append message.getHeader.encodeHeaderPre
    SendingBuffers.append message.encodeBodyTo

/-- Encode message to sending buffer. -/
def encodeMessageInto (isReady : Bool) (compressor : Option LZ4Block) (message : RequestMessage) :
    BufferWriter := do
  modify fun buffers => { buffers with sendingBuffer := [] }
  encodeParts isReady compressor message
  MessageHeader.encodeHeaderPost

end Connection

/-! ## The contract -/

/-- The bytes behind a header are the body, or LZ4 restores it from them. The `decompress` of the
driver has a limit of its own. -/
def IsPayload (used : Option LZ4Block) (body bytes : Bytes) : Prop :=
  match used with
  | none => bytes = body
  | some lz4 => lz4.decompress bytes = some body ∧
      (body.length ≤ maximumMessageBodySize →
        LZ4Compressor.decompress lz4.toLZ4 bytes = .ok body)

/-- The bytes are a header of nine bytes, which is read back, and the body, compressed if a
compressor is used. -/
structure IsRequestFrame (used : Option LZ4Block) (message : RequestMessage) (body bytes : Bytes) :
    Prop where
  headerSize_le : Connection.headerSize ≤ bytes.length
  header : ∃ header, MessageHeader.decodeHeader ⟨(), bytes.take Connection.headerSize⟩ =
      .ok header ⟨(), []⟩ ∧
    header.opCode = message.opCode ∧ header.streamId = message.streamId.toNat ∧
      header.direction = MessageDirection.request ∧
        header.bodyLength = (bytes.drop Connection.headerSize).length ∧
          (MessageHeaderFlags.ofByte header.flags).compression = used.isSome
  payload : IsPayload used body (bytes.drop Connection.headerSize)

namespace Connection

/-- The compressor that a connection uses. -/
def usedCompressor (isReady : Bool) (compressor : Option LZ4Block) : Option LZ4Block :=
  if isReady then compressor else none

/-- Encoding leaves a frame in the sending buffer. -/
def SendsFrame (isReady : Bool) (compressor : Option LZ4Block) (message : RequestMessage)
    (body : Bytes) (buffers : SendingBuffers) : Prop :=
  ∃ after, encodeMessageInto isReady compressor message buffers = .ok () after ∧
    IsRequestFrame (usedCompressor isReady compressor) message body after.sendingBuffer

/-- Encoding leaves a frame in the sending buffer, or throws for a body that is too large for
LZ4. -/
def EncodesRequest (isReady : Bool) (compressor : Option LZ4Block) (message : RequestMessage)
    (body : Bytes) (buffers : SendingBuffers) : Prop :=
  if (usedCompressor isReady compressor).isSome ∧ LZ4Block.maxInputSize < body.length then
    ∃ after, encodeMessageInto isReady compressor message buffers =
      .error LZ4Compressor.compressFailed after
  else
    SendsFrame isReady compressor message body buffers

end Connection

/-! ## Writing into buffers that were used -/

/-- The sending buffer holds what was appended, and what was thrown is thrown. -/
def Leaves (m : BufferWriter) (buffers : SendingBuffers) (appended : Appended) : Prop :=
  Ends m buffers (fun _ after => appended = (after.sendingBuffer, none))
    fun ex after => appended = (after.sendingBuffer, some ex)

section Leaves

variable {buffers : SendingBuffers} {appended : Appended} {m next : BufferWriter}
  {f g : Bytes → Appended}

theorem leaves_append : Leaves (SendingBuffers.append f) buffers (f buffers.sendingBuffer) := by
  rw [Leaves, Ends, SendingBuffers.append]
  rcases f buffers.sendingBuffer with ⟨data, _ | ex⟩
  · rfl
  · rfl

/-- The next part reads nothing but the sending buffer. -/
theorem Leaves.andThen (h : Leaves m buffers appended)
    (hnext : ∀ after, Leaves next after (g after.sendingBuffer)) :
    Leaves (m >>= fun _ => next) buffers (appended.andThen g) := by
  rw [Leaves, ends_bind]
  apply h.mono
  · rintro ⟨⟩ after rfl
    exact hnext after
  · rintro ex after rfl
    rfl

theorem Leaves.ok {bytes : Bytes} (h : Leaves m buffers (bytes, none)) :
    ∃ after, m buffers = .ok () after ∧ after.sendingBuffer = bytes := by
  rw [Leaves, Ends] at h
  cases hrun : m buffers with
  | ok a after =>
    rw [hrun] at h
    cases h
    exact ⟨after, rfl, rfl⟩
  | error ex after =>
    rw [hrun] at h
    cases h

theorem Leaves.error {ex : Exception} (h : Leaves m buffers appended)
    (hthrows : appended.2 = some ex) : ∃ after, m buffers = .error ex after := by
  rw [Leaves, Ends] at h
  cases hrun : m buffers with
  | ok a after =>
    rw [hrun] at h
    rw [h] at hthrows
    cases hthrows
  | error e after =>
    rw [hrun] at h
    rw [h] at hthrows
    cases hthrows
    exact ⟨after, rfl⟩

/-- A size is cut down to an `int`, and its bytes are the lowest four. -/
theorem encode_intOfSize (n : Nat) : ProtocolInt.encode (intOfSize n) = bigEndian 4 n := by
  have hmod : ofSigned 32 (intOfSize n) = n % 256 ^ 4 := by
    rw [ofSigned, intOfSize, toSigned]
    split <;> omega
  have hsplit : n / 256 ^ 4 * 256 ^ 4 + n % 256 ^ 4 = n := Nat.div_add_mod' n _
  rw [ProtocolInt.encode, hmod]
  conv_rhs => rw [← hsplit, Math.bigEndian_add_mul]

/-- What the values of the thread held is overwritten. -/
theorem leaves_encodeHeaderPost : Leaves MessageHeader.encodeHeaderPost buffers
    (RequestMessage.encodeHeaderPost buffers.sendingBuffer) := by
  rw [Leaves, MessageHeader.encodeHeaderPost, RequestMessage.encodeHeaderPost, ends_bind, ends_get]
  dsimp only
  have hsize : RequestMessage.headerSize = Connection.headerSize := rfl
  by_cases hshort : buffers.sendingBuffer.length < Connection.headerSize
  · rw [if_pos hshort, if_pos (hsize ▸ hshort), ends_throw]
  · rw [if_neg hshort, if_neg (hsize ▸ hshort)]
    simp only [ends_bind, ends_modify, List.nil_append, encode_intOfSize, overwrite,
      Math.length_bigEndian, hsize]
    rfl

end Leaves

namespace Connection

variable {isReady : Bool} {compressor : Option LZ4Block} {lz4 : LZ4Block}
  {message : RequestMessage} {buffers : SendingBuffers}

/-- The length of the header that is encoded is still zero. -/
theorem encodeHeaderPre_getHeader (flags : Nat) (data : Bytes) :
    MessageHeader.encodeHeaderPre { message.getHeader with flags } data =
      message.encodeHeaderPre flags data := by
  rw [MessageHeader.encodeHeaderPre, RequestMessage.encodeHeaderPre]
  by_cases hempty : data = []
  · rw [if_neg (not_not.mpr hempty), if_pos hempty, hempty]
    simp only [RequestMessage.getHeader, MessageHeader.version, MessageDirection.request,
      List.nil_append, RequestMessage.header, ← ProtocolInt.encode_natCast]
    rfl
  · rw [if_pos hempty, if_neg hempty]

/-- The body behind a header, compressed in a buffer of its own. -/
def compressedBody (lz4 : LZ4Block) (message : RequestMessage) (data : Bytes) : Appended :=
  match message.encodeBody with
  | (_, some ex) => (data, some ex)
  | (body, none) =>
    (data ++ (LZ4Compressor.compressed lz4 body).1, (LZ4Compressor.compressed lz4 body).2)

theorem leaves_compressedBody (hdocumented : lz4.Documented)
    (hlt : message.encodeBody.1.length < 2 ^ 31) :
    Leaves (do
      modify fun buffers => { buffers with sendingBufferPreCompress := [] }
      SendingBuffers.appendPreCompress message.encodeBodyTo
      let source := (← get).sendingBufferPreCompress
      SendingBuffers.append (LZ4Compressor.compressInto lz4 source)) buffers
        (compressedBody lz4 message buffers.sendingBuffer) := by
  rw [Leaves, compressedBody, ends_bind, ends_modify, ends_bind, Ends,
    SendingBuffers.appendPreCompress]
  simp only [RequestMessage.encodeBodyTo, List.nil_append]
  rcases hbody : message.encodeBody with ⟨body, _ | ex⟩
  · -- the buffer for bodies holds this one only
    rw [hbody] at hlt
    dsimp only
    rw [ends_bind, ends_get, ← LZ4Compressor.compressInto_eq hdocumented hlt]
    exact leaves_append
  · rfl

/-- Whatever the buffers held, the plain frame is left. -/
theorem leaves_encodeMessageInto_plain (compress : Bytes → Appended)
    (h : usedCompressor isReady compressor = none) :
    Leaves (encodeMessageInto isReady compressor message) buffers
      (encodeMessage compress false message) := by
  have hparts : encodeParts isReady compressor message = (do
      SendingBuffers.append message.getHeader.encodeHeaderPre
      SendingBuffers.append message.encodeBodyTo) := by
    cases isReady with
    | false => rfl
    | true =>
      cases compressor with
      | none => rfl
      | some lz4 => cases h
  have hencoded : encodeMessage compress false message =
      ((message.encodeHeaderPre message.flags []).andThen message.encodeBodyTo).andThen
        RequestMessage.encodeHeaderPost := by
    rw [encodeMessage, if_neg Bool.false_ne_true, RequestMessage.encodeHeaderPre, if_pos rfl]
    simp only [Appended.andThen, RequestMessage.encodeBodyTo]
    rcases message.encodeBody with ⟨body, _ | ex⟩
    · rfl
    · rfl
  rw [encodeMessageInto, hparts, hencoded, Leaves, ends_bind, ends_modify]
  refine Leaves.andThen ?_ fun after => leaves_encodeHeaderPost
  rw [← encodeHeaderPre_getHeader]
  exact leaves_append.andThen fun after => leaves_append

/-- Whatever the buffers held, the compressed frame is left. -/
theorem leaves_encodeMessageInto_compressed (hdocumented : lz4.Documented)
    (hlt : message.encodeBody.1.length < 2 ^ 31) :
    Leaves (encodeMessageInto true (some lz4) message) buffers
      (encodeMessage (LZ4Compressor.compressed lz4) true message) := by
  have hencoded : encodeMessage (LZ4Compressor.compressed lz4) true message =
      ((message.encodeHeaderPre (message.flags ||| 1) []).andThen
        (compressedBody lz4 message)).andThen RequestMessage.encodeHeaderPost := by
    rw [encodeMessage, if_pos rfl, RequestMessage.encodeHeaderPre, if_pos rfl]
    simp only [Appended.andThen, compressedBody]
    rcases message.encodeBody with ⟨body, _ | ex⟩
    · dsimp only
      rcases LZ4Compressor.compressed lz4 body with ⟨output, _ | ex⟩
      · rfl
      · rfl
    · rfl
  rw [encodeMessageInto, encodeParts, hencoded, Leaves, ends_bind, ends_modify]
  refine Leaves.andThen ?_ fun after => leaves_encodeHeaderPost
  rw [← encodeHeaderPre_getHeader]
  exact leaves_append.andThen fun after => leaves_compressedBody hdocumented hlt

end Connection

/-! ## Reading the frame -/

section Reading

variable {message : RequestMessage} {flags n : Nat} {used : Option LZ4Block}
  {body payload : Bytes}

/-- A header of nine bytes is read back. -/
theorem MessageHeader.decodeHeader_header (hflags : flags < 2 ^ 8)
    (hopCode : message.opCode < 2 ^ 8) (hlength : n < 2 ^ 31) :
    MessageHeader.decodeHeader ⟨(), message.header flags n⟩ =
      .ok ⟨MessageDirection.request, flags, message.streamId.toNat, message.opCode, n⟩ ⟨(), []⟩ := by
  have hbytes : message.header flags n = ProtocolByte.encode 4 ++ (ProtocolByte.encode flags ++
      (ProtocolShort.encode message.streamId.toNat ++ (ProtocolByte.encode message.opCode ++
        (ProtocolInt.encode n ++ [])))) := by
    simp [RequestMessage.header, ProtocolInt.encode_natCast]
  rw [hbytes, decodeHeader, Decode.bind_ok (ProtocolByte.decode_append (by decide)),
    Decode.bind_ok (ProtocolByte.decode_append hflags),
    Decode.bind_ok (ProtocolShort.decode_append message.streamId.toNat_lt),
    Decode.bind_ok (ProtocolByte.decode_append hopCode),
    Decode.bind_ok (ProtocolInt.decode_append hlength)]
  rfl

/-- The length in the header is that of what is behind it. -/
theorem isRequestFrame_of_payload (hflags : flags < 2 ^ 8) (hopCode : message.opCode < 2 ^ 8)
    (hlength : payload.length < 2 ^ 31) (hused : flags.testBit 0 = used.isSome)
    (hpayload : IsPayload used body payload) :
    IsRequestFrame used message body (message.header flags payload.length ++ payload) := by
  have hheader : (message.header flags payload.length).length = Connection.headerSize :=
    RequestMessage.length_header flags payload.length
  have htake : (message.header flags payload.length ++ payload).take Connection.headerSize =
      message.header flags payload.length := List.take_left' hheader
  have hdrop : (message.header flags payload.length ++ payload).drop Connection.headerSize =
      payload := List.drop_left' hheader
  have hdecoded := MessageHeader.decodeHeader_header hflags hopCode hlength
  rw [← htake] at hdecoded
  refine ⟨?_, ⟨_, hdecoded, rfl, rfl, rfl, ?_, hused⟩, ?_⟩
  · rw [List.length_append, hheader]
    exact Nat.le_add_right _ _
  · rw [hdrop]
  · rw [hdrop]
    exact hpayload

end Reading

/-! ## Requests -/

theorem RequestType.opCode_lt (type : RequestType) : type.opCode < 2 ^ 8 := by
  cases type <;> decide

namespace Connection

variable {compressor : Option LZ4Block} {lz4 : LZ4Block} {body : Bytes}

theorem usedCompressor_eq_some {isReady : Bool} :
    usedCompressor isReady compressor = some lz4 ↔ isReady = true ∧ compressor = some lz4 := by
  cases isReady with
  | false => simp [usedCompressor]
  | true => simp [usedCompressor]

/-- Without compression the body is behind the header. -/
theorem sendsFrame_plain {isReady : Bool} {type : RequestType} {streamId : UInt16}
    {buffers : SendingBuffers} (hunused : usedCompressor isReady compressor = none)
    (hlt : body.length < 2 ^ 31) :
    SendsFrame isReady compressor
      (RequestMessageFactory.makeRequestMessage type streamId (body, none)) body buffers := by
  have hleaves := @leaves_encodeMessageInto_plain isReady compressor
    (RequestMessageFactory.makeRequestMessage type streamId (body, none)) buffers
    (fun _ => ([], none)) hunused
  rw [RequestMessage.encodeMessage_plain rfl] at hleaves
  obtain ⟨after, hreturned, hbytes⟩ := hleaves.ok
  refine ⟨after, hreturned, ?_⟩
  rw [hbytes, hunused]
  -- the factory sets no flags
  have hflag : (0 : Nat).testBit 0 = false := Nat.zero_testBit 0
  exact isRequestFrame_of_payload (show 0 < 2 ^ 8 by decide) type.opCode_lt hlt hflag rfl

/-- With compression LZ4 restores the body from what is behind the header. -/
theorem sendsFrame_compressed {type : RequestType} {streamId : UInt16}
    {buffers : SendingBuffers} (hdocumented : lz4.Documented)
    (hle : body.length ≤ LZ4Block.maxInputSize) :
    SendsFrame true (some lz4)
      (RequestMessageFactory.makeRequestMessage type streamId (body, none)) body buffers := by
  obtain ⟨payload, hcompressed, hlength, hrestored, hdriver⟩ :=
    hdocumented.decompress_compressed hle
  have hmax : body.length ≤ 0x7E000000 := hle
  have hleaves := @leaves_encodeMessageInto_compressed lz4
    (RequestMessageFactory.makeRequestMessage type streamId (body, none)) buffers hdocumented
    (by show body.length < 2 ^ 31; omega)
  rw [RequestMessage.encodeMessage_compressed rfl hcompressed] at hleaves
  obtain ⟨after, hreturned, hbytes⟩ := hleaves.ok
  refine ⟨after, hreturned, ?_⟩
  rw [hbytes]
  have hflag : (0 ||| 1 : Nat).testBit 0 = true := by decide
  exact isRequestFrame_of_payload (show 0 ||| 1 < 2 ^ 8 by decide) type.opCode_lt hlength hflag
    ⟨hrestored, hdriver⟩

/-- LZ4 refuses a body that is too large, and `compress` throws. -/
theorem encodeMessageInto_large {type : RequestType} {streamId : UInt16}
    {buffers : SendingBuffers} (hdocumented : lz4.Documented) (hlt : body.length < 2 ^ 31)
    (hlarge : LZ4Block.maxInputSize < body.length) :
    ∃ after, encodeMessageInto true (some lz4)
      (RequestMessageFactory.makeRequestMessage type streamId (body, none)) buffers =
        .error LZ4Compressor.compressFailed after := by
  have hleaves := @leaves_encodeMessageInto_compressed lz4
    (RequestMessageFactory.makeRequestMessage type streamId (body, none)) buffers hdocumented hlt
  exact hleaves.error (RequestMessage.encodeMessage_fails rfl (hdocumented.compressed_large hlarge))

/-- Every request is left in the sending buffer as a frame that reads back, compressed exactly
when the connection is ready and has a compressor, unless LZ4 does not take its body. -/
theorem encodesRequest (isReady : Bool) (compressor : Option LZ4Block)
    (hdocumented : ∀ lz4 ∈ compressor, lz4.Documented) (type : RequestType) (streamId : UInt16)
    (body : Bytes) (hlt : body.length < 2 ^ 31) (buffers : SendingBuffers) :
    EncodesRequest isReady compressor
      (RequestMessageFactory.makeRequestMessage type streamId (body, none)) body buffers := by
  rw [EncodesRequest]
  cases hused : usedCompressor isReady compressor with
  | none =>
    rw [if_neg (by simp)]
    exact sendsFrame_plain hused hlt
  | some lz4 =>
    obtain ⟨rfl, rfl⟩ := usedCompressor_eq_some.mp hused
    have hlz4 := hdocumented lz4 rfl
    by_cases hlarge : LZ4Block.maxInputSize < body.length
    · rw [if_pos ⟨rfl, hlarge⟩]
      exact encodeMessageInto_large hlz4 hlt hlarge
    · rw [if_neg (not_and_of_not_right _ hlarge)]
      exact sendsFrame_compressed hlz4 (Nat.not_lt.mp hlarge)

/-- A QUERY of a few bytes on a ready connection, into buffers that were used. -/
theorem encodesRequest_query :
    EncodesRequest true (some LZ4Block.literals)
      (RequestMessageFactory.makeRequestMessage .query 513 ([0, 0, 0, 1, 0x61], none))
      [0, 0, 0, 1, 0x61] ⟨[1, 2, 3], [4, 5], -7, [6]⟩ :=
  encodesRequest true (some LZ4Block.literals)
    (fun lz4 hlz4 => by cases hlz4; exact LZ4Block.documented_literals) .query 513
    [0, 0, 0, 1, 0x61] (by decide) ⟨[1, 2, 3], [4, 5], -7, [6]⟩

/-- A body of more than `LZ4_MAX_INPUT_SIZE` bytes does not become a frame. -/
theorem not_sendsFrame_hugeBody : ¬ ∀ (isReady : Bool) (compressor : Option LZ4Block),
    (∀ lz4 ∈ compressor, lz4.Documented) → ∀ (type : RequestType) (streamId : UInt16)
      (body : Bytes), body.length < 2 ^ 31 → ∀ buffers : SendingBuffers,
        SendsFrame isReady compressor
          (RequestMessageFactory.makeRequestMessage type streamId (body, none)) body buffers := by
  intro hall
  have hlength : (List.replicate 0x7E000001 (0 : UInt8)).length = 0x7E000001 :=
    List.length_replicate
  have hlarge : LZ4Block.maxInputSize < (List.replicate 0x7E000001 (0 : UInt8)).length := by
    rw [hlength, LZ4Block.maxInputSize]
    omega
  have hlt : (List.replicate 0x7E000001 (0 : UInt8)).length < 2 ^ 31 := by
    rw [hlength]
    omega
  obtain ⟨after, hreturned, -⟩ := hall true (some LZ4Block.literals)
    (fun lz4 hlz4 => by cases hlz4; exact LZ4Block.documented_literals) .query 0 _ hlt
    ⟨[], [], 0, []⟩
  obtain ⟨_, hthrown⟩ := @encodeMessageInto_large _ _ .query 0 ⟨[], [], 0, []⟩
    LZ4Block.documented_literals hlt hlarge
  rw [hthrown] at hreturned
  cases hreturned

end Connection

end CqlDriver
