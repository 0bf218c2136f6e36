import CqlDriver.Protocol.Containers

/-!
# Column options

`ProtocolColumnOption::decode` decodes the payload of a constructor into one payload
object per constructor and thread, and encodes it again into the `payload_` string of
the option. While a payload object is being decoded its elements are options that
are decoded in the same way, so a constructor inside itself finds the object that is
still being filled.

The options that can be written to are named by a `Place`. An element of a vector is
named with the number of times its vector was cleared before: `clear()` ends the life
of the elements, and using one of them afterwards is undefined.

## Main definitions

* `ProtocolColumnOption` — type and payload
* `OptionMemory` — an option and the payload objects of the thread
* `ProtocolColumnOption.decode`, `ProtocolColumnOption.encode`
* `ProtocolColumnOption.getListPayload` and the other getters
-/

namespace CqlDriver

open Math (Decode Cursor)

namespace ColumnType

def custom : Nat := 0x0000

def list : Nat := 0x0020

def map : Nat := 0x0021

def set : Nat := 0x0022

def udt : Nat := 0x0030

def tuple : Nat := 0x0031

end ColumnType

/-- The [option] type used for a column type. -/
structure ProtocolColumnOption where
  /-- The column type; the cast keeps any 16-bit value. -/
  type : Nat
  payload : Bytes
  deriving DecidableEq, Repr, Inhabited

/-- A default constructed option. -/
def ProtocolColumnOption.create : ProtocolColumnOption := ⟨ColumnType.custom, []⟩

/-- The payload of a user defined type. -/
structure ProtocolColumnOptionUDTPayload where
  keySpace : Bytes
  udtName : Bytes
  fields : List (Bytes × ProtocolColumnOption)
  /-- How often `fields` was cleared. -/
  clears : Nat
  deriving DecidableEq, Repr

/-- The payload of a tuple. -/
structure ProtocolColumnOptionTuplePayload where
  types : List ProtocolColumnOption
  /-- How often `types` was cleared. -/
  clears : Nat
  deriving DecidableEq, Repr

/-- An option that is being decoded, and the payload objects of the thread. The one
for custom types is left out: it is overwritten before each use. -/
structure OptionMemory where
  object : ProtocolColumnOption
  listElement : ProtocolColumnOption
  mapKey : ProtocolColumnOption
  mapValue : ProtocolColumnOption
  setElement : ProtocolColumnOption
  udt : ProtocolColumnOptionUDTPayload
  tuple : ProtocolColumnOptionTuplePayload
  deriving DecidableEq, Repr

/-- Where an option is. -/
inductive Place
  | object
  | listElement
  | mapKey
  | mapValue
  | setElement
  | udtField (clears index : Nat)
  | tupleType (clears index : Nat)
  deriving DecidableEq, Repr

namespace OptionMemory

/-- A thread that has decoded no option. -/
def create : OptionMemory where
  object := .create
  listElement := .create
  mapKey := .create
  mapValue := .create
  setElement := .create
  udt := ⟨[], [], [], 0⟩
  tuple := ⟨[], 0⟩

/-- The option at a place, if it is alive. -/
def get? (m : OptionMemory) : Place → Option ProtocolColumnOption
  | .object => some m.object
  | .listElement => some m.listElement
  | .mapKey => some m.mapKey
  | .mapValue => some m.mapValue
  | .setElement => some m.setElement
  | .udtField clears index =>
    if clears = m.udt.clears then (m.udt.fields[index]?).map Prod.snd else none
  | .tupleType clears index =>
    if clears = m.tuple.clears then m.tuple.types[index]? else none

/-- Write the option at a place. -/
def put (m : OptionMemory) (option : ProtocolColumnOption) : Place → OptionMemory
  | .object => { m with object := option }
  | .listElement => { m with listElement := option }
  | .mapKey => { m with mapKey := option }
  | .mapValue => { m with mapValue := option }
  | .setElement => { m with setElement := option }
  | .udtField _ index =>
    { m with udt.fields := m.udt.fields.modify index fun field => (field.1, option) }
  | .tupleType _ index => { m with tuple.types := m.tuple.types.set index option }

end OptionMemory

namespace ProtocolColumnOption

/-- Run an action on the option at a place, if it is alive. -/
def atPlace (place : Place) : Decoder OptionMemory ProtocolColumnOption := do
  let memory ← Decode.object
  match memory.get? place with
  | some option => pure option
  | none => throw .undefined

/-- `type_ = type; payload_.resize(0)`. -/
def start (place : Place) (type : Nat) : Decoder OptionMemory Unit := do
  let _ ← atPlace place
  Decode.update fun memory => memory.put ⟨type, []⟩ place

/-- Append to the payload of the option at a place. -/
def append (place : Place) (bytes : Bytes) : Decoder OptionMemory Unit := do
  let option ← atPlace place
  Decode.update fun memory => memory.put ⟨option.type, option.payload ++ bytes⟩ place

/-- The types that are encoded with a payload. -/
def NeedsPayload (type : Nat) : Prop :=
  type = ColumnType.custom ∨ type = ColumnType.list ∨ type = ColumnType.map ∨
    type = ColumnType.set ∨ type = ColumnType.udt ∨ type = ColumnType.tuple

instance (type : Nat) : Decidable (NeedsPayload type) :=
  inferInstanceAs (Decidable (_ ∨ _ ∨ _ ∨ _ ∨ _ ∨ _))

/-- `throw EncodeException(...)` for an option without its payload. -/
def payloadRequired : Failure :=
  .exception (encodeException "this column type require payload presented")

/-- Encode an option. -/
def encode (option : ProtocolColumnOption) : Encoded :=
  if NeedsPayload option.type ∧ option.payload = [] then .error payloadRequired
  else .ok (ProtocolShort.encode option.type ++ option.payload)

/-- Encode the option at a place into the payload of the option at another place.
The two places may be the same: what has been appended then belongs to the payload. -/
def encodeInto (source target : Place) : Decoder OptionMemory Unit := do
  let option ← atPlace source
  if NeedsPayload option.type ∧ option.payload = [] then
    throw payloadRequired
  else
    append target (ProtocolShort.encode option.type)
    append target (← atPlace source).payload

/-- `throw LogicException(...)` for too many fields. -/
def tooMany (what : String) : Failure :=
  .exception (logicException ("too many " ++ what ++ " cause overflow"))

/-- Encode a field of a user defined type. -/
def encodeField (field : Bytes × ProtocolColumnOption) : Encoded := do
  let name ← ProtocolString.encode field.1
  return name ++ (← field.2.encode)

/-- The payload of a user defined type. -/
def encodeUDTPayload (keySpace udtName : Bytes) (fields : List (Bytes × ProtocolColumnOption)) :
    Encoded :=
  if fields.length % 2 ^ 16 = fields.length then do
    let keySpace ← ProtocolString.encode keySpace
    let udtName ← ProtocolString.encode udtName
    return keySpace ++ udtName ++ ProtocolShort.encode fields.length ++
      (← encodeAll encodeField fields)
  else .error (tooMany "udt fields")

/-- The payload of a tuple. -/
def encodeTuplePayload (types : List ProtocolColumnOption) : Encoded :=
  if types.length % 2 ^ 16 = types.length then do
    return ProtocolShort.encode types.length ++ (← encodeAll encode types)
  else .error (tooMany "tuple types")

/-- Decode one more field, behind those that are there. -/
def decodeField (decodeOption : Place → Decoder OptionMemory Unit) : Decoder OptionMemory Unit := do
  let memory ← Decode.object
  let index := memory.udt.fields.length
  Decode.update fun memory => { memory with udt.fields := memory.udt.fields ++ [([], .create)] }
  let name ← ProtocolString.decode
  Decode.update fun memory =>
    { memory with udt.fields := memory.udt.fields.set index (name, .create) }
  decodeOption (.udtField memory.udt.clears index)

/-- Decode one more type, behind those that are there. -/
def decodeType (decodeOption : Place → Decoder OptionMemory Unit) : Decoder OptionMemory Unit := do
  let memory ← Decode.object
  Decode.update fun memory => { memory with tuple.types := memory.tuple.types ++ [.create] }
  decodeOption (.tupleType memory.tuple.clears memory.tuple.types.length)

/-- Decode into the payload object of user defined types. -/
def decodeUDTPayload (decodeOption : Place → Decoder OptionMemory Unit) :
    Decoder OptionMemory Unit := do
  let keySpace ← ProtocolString.decode
  Decode.update fun memory => { memory with udt.keySpace := keySpace }
  let udtName ← ProtocolString.decode
  Decode.update fun memory => { memory with udt.udtName := udtName }
  let fieldsLength ← ProtocolShort.decode
  Decode.update fun memory =>
    { memory with udt.fields := [], udt.clears := memory.udt.clears + 1 }
  Decode.times (decodeField decodeOption) fieldsLength

/-- Decode into the payload object of tuples. -/
def decodeTuplePayload (decodeOption : Place → Decoder OptionMemory Unit) :
    Decoder OptionMemory Unit := do
  let fieldsLength ← ProtocolShort.decode
  Decode.update fun memory =>
    { memory with tuple.types := [], tuple.clears := memory.tuple.clears + 1 }
  Decode.times (decodeType decodeOption) fieldsLength

/-- Decode the option at a place; the first argument bounds the nesting. -/
def decode : Nat → Place → Decoder OptionMemory Unit
  | 0, _ => throw .tooDeep
  | depth + 1, place => do
    let type ← ProtocolShort.decode
    start place type
    if type = ColumnType.custom then
      let payload ← ProtocolString.decode
      append place (← ofEncoded (ProtocolString.encode payload))
    else if type = ColumnType.list then
      decode depth .listElement
      encodeInto .listElement place
    else if type = ColumnType.map then
      decode depth .mapKey
      decode depth .mapValue
      encodeInto .mapKey place
      encodeInto .mapValue place
    else if type = ColumnType.set then
      decode depth .setElement
      encodeInto .setElement place
    else if type = ColumnType.udt then
      decodeUDTPayload (decode depth)
      let memory ← Decode.object
      append place (← ofEncoded
        (encodeUDTPayload memory.udt.keySpace memory.udt.udtName memory.udt.fields))
    else if type = ColumnType.tuple then
      decodeTuplePayload (decode depth)
      let memory ← Decode.object
      append place (← ofEncoded (encodeTuplePayload memory.tuple.types))

/-- Decode an option that is not part of a payload object. The nesting cannot exceed
the number of bytes. -/
def decodeObject : Decoder OptionMemory Unit := fun c => decode (c.rest.length + 1) .object c

/-! ## Reading the payload -/

/-- `throw LogicException(CQL_CODEINFO, "type not matched")`. -/
def typeNotMatched : Failure := .exception (logicException "type not matched")

/-- Decode a local option. -/
def decodeLocal : Decoder OptionMemory ProtocolColumnOption := do
  Decode.update fun memory => { memory with object := .create }
  decodeObject
  return (← Decode.object).object

/-- Decode a number of local options, each by the given function. -/
def decodeLocals {α : Type} (decodeOne : Decoder OptionMemory α) : Nat → Decoder OptionMemory (List α)
  | 0 => pure []
  | count + 1 => do
    let one ← decodeOne
    return one :: (← decodeLocals decodeOne count)

/-- Decode the payload string with a payload object of its own, with the given type
as the only one allowed. -/
def getPayload {α : Type} (type : Nat) (decodePayload : Decoder OptionMemory α)
    (option : ProtocolColumnOption) : StateT OptionMemory (Except Failure) α := fun memory =>
  if option.type = type then
    match decodePayload ⟨memory, option.payload⟩ with
    | .ok value c => .ok (value, c.object)
    | .error failure _ => .error failure
  else .error typeNotMatched

def getCustomPayload : ProtocolColumnOption → StateT OptionMemory (Except Failure) Bytes :=
  getPayload ColumnType.custom ProtocolString.decode

def getListPayload :
    ProtocolColumnOption → StateT OptionMemory (Except Failure) ProtocolColumnOption :=
  getPayload ColumnType.list decodeLocal

def getMapPayload : ProtocolColumnOption →
    StateT OptionMemory (Except Failure) (ProtocolColumnOption × ProtocolColumnOption) :=
  getPayload ColumnType.map do
    let key ← decodeLocal
    return (key, ← decodeLocal)

def getSetPayload :
    ProtocolColumnOption → StateT OptionMemory (Except Failure) ProtocolColumnOption :=
  getPayload ColumnType.set decodeLocal

def getUDTPayload : ProtocolColumnOption → StateT OptionMemory (Except Failure)
    (Bytes × Bytes × List (Bytes × ProtocolColumnOption)) :=
  getPayload ColumnType.udt do
    let keySpace ← ProtocolString.decode
    let udtName ← ProtocolString.decode
    let fieldsLength ← ProtocolShort.decode
    return (keySpace, udtName, ← decodeLocals (do
      let name ← ProtocolString.decode
      return (name, ← decodeLocal)) fieldsLength)

def getTuplePayload : ProtocolColumnOption →
    StateT OptionMemory (Except Failure) (List ProtocolColumnOption) :=
  getPayload ColumnType.tuple do
    let fieldsLength ← ProtocolShort.decode
    decodeLocals decodeLocal fieldsLength

end ProtocolColumnOption

end CqlDriver
