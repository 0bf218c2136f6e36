import CqlDriver.Protocol.Primitive

/-!
# From a request message to a frame

`Connection::encodeMessage` writes the header of a frame with an empty length, then
the body, compressed on a ready connection that has a compressor, and then puts the
length in place. Encoding a body or compressing it may throw after some bytes were
appended.

The compressor is a parameter.

## Main definitions

* `RequestMessage` — a message with what its `encodeBody` does
* `Connection.encodeMessage` — the contents of the sending buffer
* `RequestMessage.IsFrame` — the complete frame of a message

## Main results

* `RequestMessage.isFrame_of_encodeMessage` — without an exception the buffer holds a
  complete frame
-/

namespace CqlDriver

open Math (bigEndian)

/-- What a function leaves in the string it appends to, and what it throws. -/
abbrev Appended := Bytes × Option Exception

/-- The next function that appends, unless the last one has thrown. -/
def Appended.andThen (appended : Appended) (f : Bytes → Appended) : Appended :=
  match appended with
  | (data, none) => f data
  | (data, some ex) => (data, some ex)

theorem Appended.andThen_eq_none {appended : Appended} {f : Bytes → Appended} {bytes : Bytes}
    (h : appended.andThen f = (bytes, none)) :
    ∃ data, appended = (data, none) ∧ f data = (bytes, none) := by
  obtain ⟨data, thrown⟩ := appended
  cases thrown with
  | none => exact ⟨data, rfl, h⟩
  | some ex => cases h

/-- A request message as the connection sees it. -/
structure RequestMessage where
  flags : Nat
  streamId : UInt16
  opCode : Nat
  /-- What `encodeBody` appends and throws. -/
  encodeBody : Appended
  deriving DecidableEq, Repr

namespace RequestMessage

/-- Version 1, flags 1, stream 2, opcode 1, length 4. -/
def headerSize : Nat := 9

/-- The bytes of a header with the given flags and body length. The version is 4 and
the direction of a request is 0. -/
def header (message : RequestMessage) (flags bodyLength : Nat) : Bytes :=
  ProtocolByte.encode 4 ++ ProtocolByte.encode flags ++
    ProtocolShort.encode message.streamId.toNat ++ ProtocolByte.encode message.opCode ++
      bigEndian 4 bodyLength

/-- Encode message header to binary data. -/
def encodeHeaderPre (message : RequestMessage) (flags : Nat) (data : Bytes) : Appended :=
  if data = [] then
    (message.header flags 0, none)
  else
    (data, some (logicException "data should be empty"))

/-- Update body length in binary data. -/
def encodeHeaderPost (data : Bytes) : Appended :=
  if data.length < headerSize then
    (data, some (logicException "please call encodeHeaderPre first"))
  else
    (data.take (headerSize - 4) ++ bigEndian 4 (data.length - headerSize) ++ data.drop headerSize,
      none)

end RequestMessage

/-- Encode message to sending buffer; `compressing` says that the connection is ready
and has a compressor. -/
def Connection.encodeMessage (compress : Bytes → Appended) (compressing : Bool)
    (message : RequestMessage) : Appended :=
  if compressing then
    -- with compression
    (message.encodeHeaderPre (message.flags ||| 1) []).andThen fun sendingBuffer =>
      match message.encodeBody with
      | (_, some ex) => (sendingBuffer, some ex)
      | (sendingBufferPreCompress, none) =>
        match compress sendingBufferPreCompress with
        | (output, some ex) => (sendingBuffer ++ output, some ex)
        | (output, none) => RequestMessage.encodeHeaderPost (sendingBuffer ++ output)
  else
    -- without compression
    (message.encodeHeaderPre message.flags []).andThen fun sendingBuffer =>
      match message.encodeBody with
      | (body, some ex) => (sendingBuffer ++ body, some ex)
      | (body, none) => RequestMessage.encodeHeaderPost (sendingBuffer ++ body)

namespace RequestMessage

variable {compress : Bytes → Appended} {compressing : Bool} {message : RequestMessage}
  {bytes : Bytes} {flags : Nat}

/-- The complete frame of a message, compressed or not. -/
inductive IsFrame (compress : Bytes → Appended) (message : RequestMessage) : Bytes → Prop
  | plain {body : Bytes} (encoded : message.encodeBody = (body, none)) :
      IsFrame compress message (message.header message.flags body.length ++ body)
  | compressed {body output : Bytes} (encoded : message.encodeBody = (body, none))
      (compressed : compress body = (output, none)) :
      IsFrame compress message (message.header (message.flags ||| 1) output.length ++ output)

@[simp] theorem length_header (flags bodyLength : Nat) :
    (message.header flags bodyLength).length = headerSize := by
  simp [header, headerSize, ProtocolByte.encode, ProtocolShort.encode]

/-- The length of what follows the header is put in place. -/
theorem encodeHeaderPost_header (flags : Nat) (payload : Bytes) :
    encodeHeaderPost (message.header flags 0 ++ payload) =
      (message.header flags payload.length ++ payload, none) := by
  have hlength : (message.header flags 0 ++ payload).length - headerSize = payload.length := by
    rw [List.length_append, length_header, Nat.add_sub_cancel_left]
  have hstart : (message.header flags 0).take (headerSize - 4) ++ bigEndian 4 payload.length =
      message.header flags payload.length := by
    rw [header, List.take_left']
    · rfl
    · simp [headerSize, ProtocolByte.encode, ProtocolShort.encode]
  rw [encodeHeaderPost, if_neg]
  · rw [hlength, List.take_append_of_le_length, hstart, List.drop_left' (length_header flags 0)]
    rw [length_header]
    exact Nat.sub_le _ _
  · rw [List.length_append, length_header]
    exact Nat.not_lt.mpr (Nat.le_add_right _ _)

theorem encodeHeaderPre_ok (h : message.encodeHeaderPre flags [] = (bytes, none)) :
    bytes = message.header flags 0 := by
  cases h
  rfl

section Bodies

variable {body output : Bytes} {ex : Exception}

/-- A body that is not compressed. -/
theorem encodeMessage_plain (h : message.encodeBody = (body, none)) :
    Connection.encodeMessage compress false message =
      (message.header message.flags body.length ++ body, none) := by
  rw [Connection.encodeMessage, if_neg Bool.false_ne_true, encodeHeaderPre, if_pos rfl, h]
  exact encodeHeaderPost_header message.flags body

/-- A body that is compressed. -/
theorem encodeMessage_compressed (h : message.encodeBody = (body, none))
    (hcompressed : compress body = (output, none)) :
    Connection.encodeMessage compress true message =
      (message.header (message.flags ||| 1) output.length ++ output, none) := by
  rw [Connection.encodeMessage, if_pos rfl, encodeHeaderPre, if_pos rfl, h]
  simp only [Appended.andThen, hcompressed]
  exact encodeHeaderPost_header (message.flags ||| 1) output

/-- A body that the compressor does not take. -/
theorem encodeMessage_fails (h : message.encodeBody = (body, none))
    (hfails : (compress body).2 = some ex) :
    (Connection.encodeMessage compress true message).2 = some ex := by
  rw [Connection.encodeMessage, if_pos rfl, encodeHeaderPre, if_pos rfl, h]
  simp only [Appended.andThen]
  rcases hcompress : compress body with ⟨output, thrown⟩
  rw [hcompress] at hfails
  cases hfails
  rfl

end Bodies

/-- What is encoded without an exception is a complete frame. -/
theorem isFrame_of_encodeMessage
    (h : Connection.encodeMessage compress compressing message = (bytes, none)) :
    message.IsFrame compress bytes := by
  rw [Connection.encodeMessage] at h
  split at h
  · obtain ⟨data, hpre, hbody⟩ := Appended.andThen_eq_none h
    obtain rfl := encodeHeaderPre_ok hpre
    split at hbody
    · cases hbody
    next body hencoded =>
      split at hbody
      · cases hbody
      next output hcompressed =>
        rw [encodeHeaderPost_header] at hbody
        cases hbody
        exact .compressed hencoded hcompressed
  · obtain ⟨data, hpre, hbody⟩ := Appended.andThen_eq_none h
    obtain rfl := encodeHeaderPre_ok hpre
    split at hbody
    · cases hbody
    next body hencoded =>
      rw [encodeHeaderPost_header] at hbody
      cases hbody
      exact .plain hencoded

/-- A message whose body throws is not encoded. -/
theorem encodeMessage_of_throws {appended : Bytes} {ex : Exception}
    (h : message.encodeBody = (appended, some ex)) :
    (Connection.encodeMessage compress compressing message).2 = some ex := by
  rw [Connection.encodeMessage, h]
  cases compressing with
  | false => rfl
  | true => rfl

end RequestMessage

end CqlDriver
