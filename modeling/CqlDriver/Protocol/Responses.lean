import CqlDriver.Protocol.Containers
import CqlDriver.Protocol.ResultMessage

/-!
# Response messages

The factory makes a message object for the opcode of a header, and the object decodes the
body. The members of most messages are reset and then overwritten, so what the object held
does not matter. A result is decoded into an object that may have been used before, next to
the payload objects of the thread.

## Main definitions

* `ResponseMessage` — a message of any of the eight kinds
* `ResponseMessage.decodeBody` — making the object for an opcode and decoding the body
-/

namespace CqlDriver

open Math (Decode Cursor)

namespace MessageType

def error : Nat := 0

def ready : Nat := 2

def authenticate : Nat := 3

def supported : Nat := 6

def result : Nat := 8

def event : Nat := 0xc

def authChallenge : Nat := 0xe

def authSuccess : Nat := 0x10

end MessageType

/-- A response message, with the members that its body is decoded into. -/
inductive ResponseMessage
  | error (errorCode : Int) (errorMessage extraContents : Bytes)
  | ready
  | authenticate (authenticatorClass : Bytes)
  | supported (options : List (Bytes × List Bytes))
  | result (message : ResultMessage)
  | event (type data : Bytes)
  | authChallenge (token : Option Bytes)
  | authSuccess (token : Option Bytes)
  deriving DecidableEq, Repr

namespace ResponseMessage

def opCode : ResponseMessage → Nat
  | error _ _ _ => MessageType.error
  | ready => MessageType.ready
  | authenticate _ => MessageType.authenticate
  | supported _ => MessageType.supported
  | result _ => MessageType.result
  | event _ _ => MessageType.event
  | authChallenge _ => MessageType.authChallenge
  | authSuccess _ => MessageType.authSuccess

/-- Decode from a buffer; what is left of it is not used. -/
def run (m : Decoder Unit ResponseMessage) (body : Bytes) : Except Failure ResponseMessage :=
  match m ⟨(), body⟩ with
  | .ok message _ => .ok message
  | .error failure _ => .error failure

/-- An [int] and a [string], and more content may follow. -/
def decodeError : Decoder Unit ResponseMessage := do
  let errorCode ← ProtocolInt.decode
  let errorMessage ← ProtocolString.decode
  return .error errorCode errorMessage (← Decode.remaining)

/-- The body of a READY message is empty. -/
def decodeReady : Decoder Unit ResponseMessage := pure .ready

def decodeAuthenticate : Decoder Unit ResponseMessage := do
  return .authenticate (← ProtocolString.decode)

def decodeSupported : Decoder Unit ResponseMessage := do
  return .supported (← Decode.onLocal [] ProtocolStringMultiMap.decode)

/-- A [string], the rest depends on the event type. -/
def decodeEvent : Decoder Unit ResponseMessage := do
  let type ← ProtocolString.decode
  return .event type (← Decode.remaining)

/-- Decode into a result object that was used before. -/
def decodeResult (used : ResultMessage) (memory : OptionMemory) (body : Bytes) :
    Except Failure ResponseMessage :=
  match ResultMessage.decodeBody ⟨(used.reset, memory), body⟩ with
  | .ok _ c => .ok (.result c.object.1)
  | .error failure _ => .error failure

def unsupportedMessageType : Failure :=
  .exception ⟨.notImplemented, "unsupported message type:"⟩

/-- Make the message of an opcode and decode its body. -/
def decodeBody (used : ResultMessage) (memory : OptionMemory) (opCode : Nat) (body : Bytes) :
    Except Failure ResponseMessage :=
  if opCode = MessageType.result then decodeResult used memory body
  else if opCode = MessageType.error then run decodeError body
  else if opCode = MessageType.event then run decodeEvent body
  else if opCode = MessageType.ready then run decodeReady body
  else if opCode = MessageType.supported then run decodeSupported body
  else if opCode = MessageType.authenticate then run decodeAuthenticate body
  else if opCode = MessageType.authSuccess then
    run (do return .authSuccess (← ProtocolBytes.decode)) body
  else if opCode = MessageType.authChallenge then
    run (do return .authChallenge (← ProtocolBytes.decode)) body
  else .error unsupportedMessageType

end ResponseMessage

end CqlDriver
