/-!
# The exceptions of the driver

The driver reports failures by C++ exceptions. The model keeps the class of an
exception and the literal part of its text; the code location that
`CQL_CODEINFO` adds is left out.
-/

namespace CqlDriver

/-- The exception classes thrown by the modelled code. -/
inductive ExceptionKind
  | logic
  | decode
  | encode
  | notImplemented
  | network
  | connectionNotAvailable
  | connectionInitialize
  | authenticate
  | responseError
  | format
  | uuidConflict
  deriving DecidableEq, Repr

/-- A thrown exception. -/
structure Exception where
  kind : ExceptionKind
  message : String
  deriving DecidableEq, Repr

/-- `throw LogicException(...)`. -/
def logicException (message : String) : Exception := ⟨.logic, message⟩

/-- `throw DecodeException(...)`. -/
def decodeException (message : String) : Exception := ⟨.decode, message⟩

/-- `throw EncodeException(...)`. -/
def encodeException (message : String) : Exception := ⟨.encode, message⟩

end CqlDriver
