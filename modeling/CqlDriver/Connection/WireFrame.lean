import CqlDriver.Connection.RequestFrame
import CqlDriver.Math.Framing

/-!
# Frames on the wire

Both directions of a connection use one layout of frames: nine bytes of header, the last four of
which are the length of the body, and the body. The header is written by `encodeHeaderPre` and
read by `decodeHeader`, so a frame says itself where it ends.

## Main definitions

* `ReceivedFrame.bytes` — the layout
* `ReceivedFrame.IsWhole` — the members fit the layout, and the body is complete
* `ReceivedFrame.next` — the first frame of some bytes
* `ReceivedFrame.framing` — frames as a way to cut a stream of bytes
-/

namespace CqlDriver

open Math (Decode Cursor Framing)

namespace ReceivedFrame

/-- The header and the body behind it. -/
def bytes (frame : ReceivedFrame) : Bytes := (frame.header.encodeHeaderPre []).1 ++ frame.body

/-- The members have the widths of the header, and the length is that of the body. -/
structure IsWhole (frame : ReceivedFrame) : Prop where
  direction : frame.header.direction = 0 ∨ frame.header.direction = MessageHeader.directionMask
  flags_lt : frame.header.flags < 2 ^ 8
  streamId_lt : frame.header.streamId < 2 ^ 16
  opCode_lt : frame.header.opCode < 2 ^ 8
  bodyLength : frame.header.bodyLength = frame.body.length
  length_lt : frame.body.length < 2 ^ 31

instance (frame : ReceivedFrame) : Decidable frame.IsWhole :=
  decidable_of_iff (((frame.header.direction = 0 ∨
      frame.header.direction = MessageHeader.directionMask) ∧ frame.header.flags < 2 ^ 8) ∧
    (frame.header.streamId < 2 ^ 16 ∧ frame.header.opCode < 2 ^ 8) ∧
      frame.header.bodyLength = frame.body.length ∧ frame.body.length < 2 ^ 31)
    ⟨fun ⟨⟨h₁, h₂⟩, ⟨h₃, h₄⟩, h₅, h₆⟩ => ⟨h₁, h₂, h₃, h₄, h₅, h₆⟩,
      fun h => ⟨⟨h.direction, h.flags_lt⟩, ⟨h.streamId_lt, h.opCode_lt⟩, h.bodyLength, h.length_lt⟩⟩

/-- The first frame, if all bytes of it are there. -/
def next (bytes : Bytes) : Option (ReceivedFrame × Bytes) :=
  match MessageHeader.decodeHeader ⟨(), bytes⟩ with
  | .error _ _ => none
  | .ok header c =>
    match header.getBodyLength with
    | .error _ => none
    | .ok bodyLength =>
      if c.rest.length < bodyLength then none
      else some (⟨header, c.rest.take bodyLength⟩, c.rest.drop bodyLength)

variable {frame : ReceivedFrame} {header : MessageHeader} {bytes rest short : Bytes}

@[simp] theorem length_encodeHeaderPre (header : MessageHeader) :
    (header.encodeHeaderPre []).1.length = Connection.headerSize := by
  simp [MessageHeader.encodeHeaderPre, ProtocolByte.encode, ProtocolShort.encode,
    ProtocolInt.encode, Connection.headerSize]

/-- A header that was written is read back. -/
theorem decodeHeader_append (h : frame.IsWhole) (rest : Bytes) :
    MessageHeader.decodeHeader ⟨(), (frame.header.encodeHeaderPre []).1 ++ rest⟩ =
      .ok frame.header ⟨(), rest⟩ := by
  obtain ⟨⟨direction, flags, streamId, opCode, bodyLength⟩, body⟩ := frame
  obtain ⟨hdirection, hflags, hstreamId, hopCode, hlength, hlt⟩ := h
  dsimp only at hdirection hflags hstreamId hopCode hlength hlt
  have hbytes : (MessageHeader.encodeHeaderPre
      ⟨direction, flags, streamId, opCode, bodyLength⟩ []).1 ++ rest =
        ProtocolByte.encode (MessageHeader.version ||| direction) ++ (ProtocolByte.encode flags ++
          (ProtocolShort.encode streamId ++ (ProtocolByte.encode opCode ++
            (ProtocolInt.encode body.length ++ rest)))) := by
    simp [MessageHeader.encodeHeaderPre, hlength]
  -- the version does not reach the bit of the direction
  have hversion : MessageHeader.version ||| direction < 2 ^ 8 ∧
      (MessageHeader.version ||| direction) &&& MessageHeader.directionMask = direction := by
    rcases hdirection with rfl | rfl
    · decide
    · decide
  rw [hbytes, MessageHeader.decodeHeader, Decode.bind_ok (ProtocolByte.decode_append hversion.1),
    Decode.bind_ok (ProtocolByte.decode_append hflags),
    Decode.bind_ok (ProtocolShort.decode_append hstreamId),
    Decode.bind_ok (ProtocolByte.decode_append hopCode),
    Decode.bind_ok (ProtocolInt.decode_append hlt), hversion.2, hlength]
  rfl

/-- A header takes its nine bytes off the front. -/
theorem length_of_decodeHeader {c : Cursor Unit}
    (h : MessageHeader.decodeHeader ⟨(), bytes⟩ = .ok header c) :
    c.rest.length + Connection.headerSize = bytes.length := by
  obtain ⟨version, c₁, hversion, h₁⟩ := Decode.exists_of_bind_ok h
  obtain ⟨flags, c₂, hflags, h₂⟩ := Decode.exists_of_bind_ok h₁
  obtain ⟨streamId, c₃, hstreamId, h₃⟩ := Decode.exists_of_bind_ok h₂
  obtain ⟨opCode, c₄, hopCode, h₄⟩ := Decode.exists_of_bind_ok h₃
  obtain ⟨length, c₅, hlength, hlast⟩ := Decode.exists_of_bind_ok h₄
  obtain ⟨number, c₆, hnumber, hsign⟩ := Decode.exists_of_bind_ok hlength
  have hsame : c = c₅ := by cases hlast; rfl
  have hinner : c₅ = c₆ := by cases hsign; rfl
  have hsize := ByteReceiver.headerSize_le_of_decodeHeader h
  have hrest : c.rest.length = bytes.length - Connection.headerSize := by
    rw [hsame, hinner, (Decode.number_ok hnumber).2, (Decode.number_ok hopCode).2,
      (Decode.number_ok hstreamId).2, (Decode.number_ok hflags).2, (Decode.number_ok hversion).2]
    simp only [List.length_drop, Connection.headerSize]
    omega
  omega

theorem getBodyLength_of_isWhole (h : frame.IsWhole) :
    frame.header.getBodyLength = .ok frame.body.length := by
  rw [MessageHeader.getBodyLength, h.bodyLength, if_neg (by omega), Int.toNat_natCast]

theorem next_append (h : frame.IsWhole) (rest : Bytes) :
    next (frame.bytes ++ rest) = some (frame, rest) := by
  rw [next, ReceivedFrame.bytes, List.append_assoc, decodeHeader_append h]
  dsimp only
  rw [getBodyLength_of_isWhole h]
  simp

/-- What is cut off a frame is not read as one. -/
theorem next_short (h : frame.IsWhole) (hshort : short <+: frame.bytes)
    (hcut : short ≠ frame.bytes) : next short = none := by
  obtain ⟨missing, hmissing⟩ := hshort
  have hlt : short.length < frame.bytes.length := by
    have hne : missing ≠ [] := by
      rintro rfl
      rw [List.append_nil] at hmissing
      exact hcut hmissing
    have hpos := List.length_pos_iff.mpr hne
    rw [← hmissing, List.length_append]
    omega
  rw [ReceivedFrame.bytes, List.length_append, length_encodeHeaderPre] at hlt
  rw [next]
  cases hdecode : MessageHeader.decodeHeader ⟨(), short⟩ with
  | error failure c => rfl
  | ok header c =>
    -- the header is there, so the body is what was cut
    have hsize := length_of_decodeHeader hdecode
    have hsame : short = (frame.header.encodeHeaderPre []).1 ++ c.rest := by
      have htake : short.take Connection.headerSize = (frame.header.encodeHeaderPre []).1 := by
        have hfront := congrArg (List.take Connection.headerSize) hmissing
        rw [ReceivedFrame.bytes, List.take_left' (length_encodeHeaderPre _),
          List.take_append_of_le_length (by omega)] at hfront
        exact hfront
      have hrest := decodeHeader_append h (short.drop Connection.headerSize)
      rw [← htake, List.take_append_drop, hdecode] at hrest
      cases hrest
      rw [← htake, List.take_append_drop]
    have hheader : header = frame.header := by
      have hread := decodeHeader_append h c.rest
      rw [← hsame, hdecode] at hread
      cases hread
      rfl
    dsimp only
    rw [hheader, getBodyLength_of_isWhole h]
    dsimp only
    rw [if_pos (by omega)]

theorem next_length (h : next bytes = some (frame, rest)) : rest.length < bytes.length := by
  rw [next] at h
  split at h
  · cases h
  next header c hdecode =>
    have hsize := length_of_decodeHeader hdecode
    rw [Connection.headerSize] at hsize
    split at h
    · cases h
    · split at h
      · cases h
      · cases h
        rw [List.length_drop]
        omega

/-- Frames cut a stream of bytes. -/
def framing : Framing UInt8 ReceivedFrame where
  IsFrame := IsWhole
  write := ReceivedFrame.bytes
  next := next
  next_append := next_append
  next_short := next_short
  next_length := next_length

end ReceivedFrame

end CqlDriver
