import CqlDriver.Protocol.Containers

/-!
# From the body of a frame to the body of a message

`Connection::decodeMessage` drops what the header flags announce in front of the
message body, and decompresses. In the frame layout that `MessageHeaderFlags` refers
to the whole body of the frame is compressed, and begins with the tracing id, the
warnings and the custom payload, in this order.

LZ4 is a parameter. The objects that are dropped are overwritten before they are read,
so what the thread has put into them does not matter.

## Main definitions

* `LZ4Compressor.decompress`, `Connection.decodeMessage`
* `ResponseFrame.bytes` — the frame layout
* `MessageHeaderFlags.PassesBody` — `decodeMessage` finds the message body

## Main results

* `MessageHeaderFlags.passesBody_iff` — for which flags it does
-/

namespace CqlDriver

open Math (Decode Cursor bigEndian ofBigEndian)

/-- The flags of a message header. -/
structure MessageHeaderFlags where
  compression : Bool
  tracing : Bool
  customPayload : Bool
  warning : Bool
  deriving DecidableEq, Repr

/-- The flags of the byte in the header. -/
def MessageHeaderFlags.ofByte (flags : Nat) : MessageHeaderFlags :=
  ⟨flags.testBit 0, flags.testBit 1, flags.testBit 2, flags.testBit 3⟩

/-- The maximum message body size for security check (avoid oom attack), 256MB. -/
def maximumMessageBodySize : Nat := 256 * 1024 * 1024

/-! ## LZ4 -/

/-- The functions of LZ4: `decompressSafe source capacity` is `none` when the source is
malformed. -/
structure LZ4 where
  compress : Bytes → Bytes
  decompressSafe : Bytes → Nat → Option Bytes

/-- What was compressed is decompressed into a buffer of its size. -/
def LZ4.Inverts (lz4 : LZ4) : Prop :=
  ∀ source, lz4.decompressSafe (lz4.compress source) source.length = some source

namespace LZ4Compressor

variable {lz4 : LZ4} {source : Bytes}

/-- The uncompressed length in network byte order, then the compressed bytes. -/
def compress (lz4 : LZ4) (source : Bytes) : Bytes :=
  bigEndian 4 source.length ++ lz4.compress source

/-- Decompress the response frame's body. -/
def decompress (lz4 : LZ4) (source : Bytes) : Encoded :=
  if source.length < 4 then .ok []
  else
    let outputSize := ofBigEndian (source.take 4)
    if maximumMessageBodySize < outputSize then
      .error (.exception (logicException "uncompressed length of message body too large:"))
    else
      match lz4.decompressSafe (source.drop 4) outputSize with
      | some output =>
        if output.length = outputSize then .ok output
        else .error (.exception (logicException "lz4 decompress failed, ret:"))
      | none => .error (.exception (logicException "lz4 decompress failed, ret:"))

theorem decompress_compress
    (hinverts : lz4.decompressSafe (lz4.compress source) source.length = some source)
    (hsize : source.length ≤ maximumMessageBodySize) :
    decompress lz4 (compress lz4 source) = .ok source := by
  have hfits : source.length < 256 ^ 4 := Nat.lt_of_le_of_lt hsize (by decide)
  have hlength : ¬ (compress lz4 source).length < 4 := by
    rw [compress, List.length_append, Math.length_bigEndian]
    omega
  have htake : (compress lz4 source).take 4 = bigEndian 4 source.length :=
    List.take_left' (Math.length_bigEndian _ _)
  have hdrop : (compress lz4 source).drop 4 = lz4.compress source :=
    List.drop_left' (Math.length_bigEndian _ _)
  rw [decompress, if_neg hlength]
  simp only [htake, hdrop, Math.ofBigEndian_bigEndian hfits]
  rw [if_neg (Nat.not_lt.mpr hsize), hinverts]
  exact if_pos rfl

end LZ4Compressor

/-! ## Decoding -/

/-- Decode an object in front of a buffer and trim it off. -/
def discard {α : Type} (m : Decoder Unit α) (buffer : Bytes) : Encoded :=
  match m ⟨(), buffer⟩ with
  | .ok _ c => .ok c.rest
  | .error failure _ => .error failure

theorem discard_ok {α : Type} {m : Decoder Unit α} {buffer rest : Bytes} {a : α}
    (h : m ⟨(), buffer⟩ = .ok a ⟨(), rest⟩) : discard m buffer = .ok rest := by
  rw [discard, h]

/-- Discard an object if its flag is set. -/
def discardIf {α : Type} (flag : Bool) (m : Decoder Unit α) (buffer : Bytes) : Encoded :=
  if flag then discard m buffer else .ok buffer

theorem discardIf_false {α : Type} (m : Decoder Unit α) (buffer : Bytes) :
    discardIf false m buffer = .ok buffer := rfl

theorem discardIf_append {α : Type} {m : Decoder Unit α} {bytes rest : Bytes} (flag : Bool)
    (h : discard m (bytes ++ rest) = .ok rest) :
    discardIf flag m ((if flag then bytes else []) ++ rest) = .ok rest := by
  cases flag with
  | false => rfl
  | true => exact h

/-- Decode message from temporary buffer. The last argument is the `decodeBody` of the
message. -/
def Connection.decodeMessage {ρ : Type} (compressor : Option LZ4) (flags : MessageHeaderFlags)
    (buffer : Bytes) (decodeBody : Bytes → Except Failure ρ) : Except Failure ρ := do
  -- discard tracing id
  let buffer ← discardIf flags.tracing ProtocolUUID.decode buffer
  -- discard custom payload
  let buffer ← discardIf flags.customPayload (Decode.onLocal [] ProtocolBytesMap.decode) buffer
  -- log and discard warnings
  let buffer ← discardIf flags.warning (Decode.onLocal [] ProtocolStringList.decode) buffer
  if flags.compression then
    match compressor with
    | some lz4 => decodeBody (← LZ4Compressor.decompress lz4 buffer)
    | none =>
      throw (.exception (logicException "server compressed the frame without client's consent"))
  else
    decodeBody buffer

/-- A message that is decoded has a content, and every `decodeBody` gets the same. -/
theorem Connection.decodeMessage_ok {ρ : Type} {compressor : Option LZ4}
    {flags : MessageHeaderFlags} {buffer : Bytes} {decodeBody : Bytes → Except Failure ρ} {a : ρ}
    (h : Connection.decodeMessage compressor flags buffer decodeBody = .ok a) :
    ∃ content, decodeBody content = .ok a ∧
      ∀ {π : Type} (other : Bytes → Except Failure π),
        Connection.decodeMessage compressor flags buffer other = other content := by
  obtain ⟨untraced, huntraced, h₁⟩ := exists_of_bind_eq_ok h
  obtain ⟨unloaded, hunloaded, h₂⟩ := exists_of_bind_eq_ok h₁
  obtain ⟨plain, hplain, h₃⟩ := exists_of_bind_eq_ok h₂
  cases hcompression : flags.compression with
  | false =>
    rw [hcompression, if_neg Bool.false_ne_true] at h₃
    refine ⟨plain, h₃, fun other => ?_⟩
    -- what is in front is dropped whatever the message is
    rw [Connection.decodeMessage, huntraced, ok_bind, hunloaded, ok_bind, hplain, ok_bind,
      hcompression, if_neg Bool.false_ne_true]
  | true =>
    rw [hcompression, if_pos rfl] at h₃
    cases compressor with
    | none => cases h₃
    | some lz4 =>
      obtain ⟨content, hcontent, h₄⟩ := exists_of_bind_eq_ok h₃
      refine ⟨content, h₄, fun other => ?_⟩
      rw [Connection.decodeMessage, huntraced, ok_bind, hunloaded, ok_bind, hplain, ok_bind,
        hcompression, if_pos rfl]
      dsimp only
      rw [hcontent, ok_bind]

/-! ## The frame layout -/

/-- What a server puts into the body of a frame. -/
structure ResponseFrame where
  tracingId : ProtocolUUID
  high_lt : tracingId.high < 2 ^ 64
  low_lt : tracingId.low < 2 ^ 64
  warnings : List Bytes
  warningBytes : Bytes
  encode_warnings : ProtocolStringList.encode warnings = .ok warningBytes
  customPayload : List (Bytes × Option Bytes)
  customPayloadBytes : Bytes
  encode_customPayload : ProtocolBytesMap.encode customPayload = .ok customPayloadBytes
  body : Bytes

namespace ResponseFrame

/-- The body of a frame before compression. -/
def content (frame : ResponseFrame) (flags : MessageHeaderFlags) : Bytes :=
  (if flags.tracing then frame.tracingId.encode else []) ++
    ((if flags.warning then frame.warningBytes else []) ++
      ((if flags.customPayload then frame.customPayloadBytes else []) ++ frame.body))

/-- The body of a frame. -/
def bytes (frame : ResponseFrame) (lz4 : LZ4) (flags : MessageHeaderFlags) : Bytes :=
  if flags.compression then LZ4Compressor.compress lz4 (frame.content flags)
  else frame.content flags

variable (frame : ResponseFrame) (rest : Bytes)

theorem discard_tracingId :
    discard ProtocolUUID.decode (frame.tracingId.encode ++ rest) = .ok rest :=
  discard_ok (ProtocolUUID.decode_append frame.high_lt frame.low_lt)

theorem discard_warnings :
    discard (Decode.onLocal [] ProtocolStringList.decode) (frame.warningBytes ++ rest) =
      .ok rest := by
  rw [discard, Decode.onLocal, ProtocolStringList.decode_append frame.encode_warnings]

theorem discard_customPayload :
    discard (Decode.onLocal [] ProtocolBytesMap.decode) (frame.customPayloadBytes ++ rest) =
      .ok rest := by
  rw [discard, Decode.onLocal, ProtocolBytesMap.decode_append frame.encode_customPayload]

end ResponseFrame

namespace MessageHeaderFlags

/-- For every frame with these flags, the message body is passed to `decodeBody`. A
compressed frame comes only when compression was agreed on, and the content of a frame
has at most 256MB. -/
def PassesBody (flags : MessageHeaderFlags) : Prop :=
  ∀ (lz4 : LZ4) (compressor : Option LZ4) (frame : ResponseFrame), lz4.Inverts →
    (flags.compression = true → compressor = some lz4) →
    (frame.content flags).length ≤ maximumMessageBodySize →
    ∀ {ρ : Type} (decodeBody : Bytes → Except Failure ρ),
      Connection.decodeMessage compressor flags (frame.bytes lz4 flags) decodeBody =
        decodeBody frame.body

/-- A frame is compressed with nothing in front of its message body. -/
theorem passesBody_of_compression {flags : MessageHeaderFlags} (htracing : flags.tracing = false)
    (hwarning : flags.warning = false) (hpayload : flags.customPayload = false)
    (hcompression : flags.compression = true) : flags.PassesBody := by
  intro lz4 compressor frame hinverts hagreed hsize ρ decodeBody
  obtain rfl := hagreed hcompression
  have hcontent : frame.content flags = frame.body := by
    simp [ResponseFrame.content, htracing, hwarning, hpayload]
  rw [hcontent] at hsize
  rw [Connection.decodeMessage, ResponseFrame.bytes, htracing, hwarning, hpayload, hcompression,
    if_pos rfl, hcontent, discardIf_false, ok_bind, discardIf_false, ok_bind, discardIf_false,
    ok_bind, if_pos rfl]
  simp only [LZ4Compressor.decompress_compress (hinverts _) hsize, ok_bind]

/-- A plain frame has warnings or a custom payload, but not both. -/
theorem passesBody_of_plain {flags : MessageHeaderFlags} (hplain : flags.compression = false)
    (hone : flags.warning = false ∨ flags.customPayload = false) : flags.PassesBody := by
  intro lz4 compressor frame _ _ _ ρ decodeBody
  rw [Connection.decodeMessage, ResponseFrame.bytes, hplain, if_neg Bool.false_ne_true,
    ResponseFrame.content,
    discardIf_append flags.tracing (frame.discard_tracingId _), ok_bind]
  rcases hone with hwarning | hpayload
  · rw [hwarning, if_neg Bool.false_ne_true, List.nil_append,
      discardIf_append flags.customPayload (frame.discard_customPayload frame.body), ok_bind,
      discardIf_false, ok_bind, if_neg Bool.false_ne_true]
  · rw [hpayload, if_neg Bool.false_ne_true, List.nil_append, discardIf_false, ok_bind,
      discardIf_append flags.warning (frame.discard_warnings frame.body), ok_bind,
      if_neg Bool.false_ne_true]

/-! ## The other flags -/

/-- LZ4 that stores its source. -/
def stored : LZ4 where
  compress source := source
  decompressSafe source _ := some source

/-- A frame with a warning, an empty custom payload and one byte as its message. -/
def warned : ResponseFrame where
  tracingId := ⟨0, 0⟩
  high_lt := by decide
  low_lt := by decide
  warnings := [[0x61]]
  warningBytes := [0, 1, 0, 1, 0x61]
  encode_warnings := rfl
  customPayload := []
  customPayloadBytes := [0, 0]
  encode_customPayload := rfl
  body := [0xff]

/-- The flags for which `decodeMessage` undoes the frame layout: nothing but the message
is compressed, and warnings and custom payload do not come together. -/
def KeepsLayout (flags : MessageHeaderFlags) : Prop :=
  (flags.compression = true →
    flags.tracing = false ∧ flags.warning = false ∧ flags.customPayload = false) ∧
  ¬ (flags.warning = true ∧ flags.customPayload = true)

instance (flags : MessageHeaderFlags) : Decidable flags.KeepsLayout :=
  inferInstanceAs (Decidable ((_ → _) ∧ ¬ (_ ∧ _)))

/-- What is passed on for the frame with a warning. -/
theorem decodeMessage_warned_ne (flags : MessageHeaderFlags) (hnot : ¬ flags.KeepsLayout) :
    Connection.decodeMessage (some stored) flags (warned.bytes stored flags) .ok ≠
      .ok warned.body := by
  obtain ⟨compression, tracing, customPayload, warning⟩ := flags
  revert hnot
  cases compression <;> cases tracing <;> cases customPayload <;> cases warning <;> decide

/-- The message body is found exactly for these flags. -/
theorem passesBody_iff (flags : MessageHeaderFlags) : flags.PassesBody ↔ flags.KeepsLayout := by
  constructor
  · intro hpasses
    by_contra hnot
    have hsize : (warned.content flags).length ≤ maximumMessageBodySize := by
      obtain ⟨compression, tracing, customPayload, warning⟩ := flags
      cases compression <;> cases tracing <;> cases customPayload <;> cases warning <;> decide
    exact decodeMessage_warned_ne flags hnot
      (hpasses stored (some stored) warned (fun _ => rfl) (fun _ => rfl) hsize .ok)
  · rintro ⟨hcompressed, hboth⟩
    cases hcompression : flags.compression with
    | true =>
      obtain ⟨htracing, hwarning, hpayload⟩ := hcompressed hcompression
      exact passesBody_of_compression htracing hwarning hpayload hcompression
    | false =>
      apply passesBody_of_plain hcompression
      cases hwarning : flags.warning with
      | false => exact .inl rfl
      | true =>
        apply Or.inr
        exact Bool.eq_false_iff.mpr fun hpayload => hboth ⟨hwarning, hpayload⟩

/-- A compressed frame with a warning is taken apart in the wrong order. -/
theorem not_passesBody_compression_warning : ¬ ∀ flags : MessageHeaderFlags, flags.PassesBody := by
  intro hall
  have hpasses := hall ⟨true, false, false, true⟩ stored (some stored) warned (fun _ => rfl)
    (fun _ => rfl) (by decide) .ok
  exact decodeMessage_warned_ne _ (by decide) hpasses

end MessageHeaderFlags

end CqlDriver
