import CqlDriver.Protocol.ColumnOption

/-!
# Column types as trees

A column type is a tree over the native types. The tree of an option is built with
the payload setters and read with the payload getters, both level by level. The
bytes of a tree are given by the [option] grammar.

## Main definitions

* `ColumnTree` — column types
* `ColumnTree.toOption` — the option of a tree, built with the setters
* `ColumnTree.bytes` — the bytes of a tree in the grammar
* `ProtocolColumnOption.readTree` — the tree of an option, read with the getters
* `ColumnTree.RoundTrips` — encoding and decoding gives the tree back
* `ColumnTree.NoSelfNesting` — no constructor occurs inside itself
-/

namespace CqlDriver

open Math (Decode Cursor)

/-- The column types without payload. -/
inductive NativeType
  | ascii | bigInt | blob | boolean | counter | decimal | double | float | int | timestamp | uuid
  | varChar | varInt | timeUUID | inet | date | time | smallInt | tinyInt | duration
  deriving DecidableEq, Repr

/-- The value of the enumeration `ColumnType`. -/
def NativeType.code : NativeType → Nat
  | .ascii => 0x0001
  | .bigInt => 0x0002
  | .blob => 0x0003
  | .boolean => 0x0004
  | .counter => 0x0005
  | .decimal => 0x0006
  | .double => 0x0007
  | .float => 0x0008
  | .int => 0x0009
  | .timestamp => 0x000B
  | .uuid => 0x000C
  | .varChar => 0x000D
  | .varInt => 0x000E
  | .timeUUID => 0x000F
  | .inet => 0x0010
  | .date => 0x0011
  | .time => 0x0012
  | .smallInt => 0x0013
  | .tinyInt => 0x0014
  | .duration => 0x0015

/-- The native type with a code. -/
def NativeType.ofCode? (code : Nat) : Option NativeType :=
  [.ascii, .bigInt, .blob, .boolean, .counter, .decimal, .double, .float, .int, .timestamp, .uuid,
    .varChar, .varInt, .timeUUID, .inet, .date, .time, .smallInt, .tinyInt,
    .duration].find? fun type : NativeType => type.code = code

theorem NativeType.ofCode?_code (type : NativeType) : ofCode? type.code = some type := by
  cases type with
  | _ => rfl

/-- A native type has no payload. -/
theorem NativeType.not_needsPayload (type : NativeType) :
    ¬ ProtocolColumnOption.NeedsPayload type.code := by
  cases type with
  | _ => decide

theorem NativeType.code_lt (type : NativeType) : type.code < 2 ^ 16 := by
  cases type with
  | _ => decide

/-- A column type. -/
inductive ColumnTree
  | native (type : NativeType)
  | custom (name : Bytes)
  | list (element : ColumnTree)
  | map (key value : ColumnTree)
  | set (element : ColumnTree)
  | udt (keySpace udtName : Bytes) (fields : List (Bytes × ColumnTree))
  | tuple (types : List ColumnTree)

/-- The constructors with a payload object that holds options. -/
inductive Constructor
  | list | map | set | udt | tuple
  deriving DecidableEq, Repr

namespace ColumnTree

/-- The value of the enumeration `ColumnType` at the root. -/
def type : ColumnTree → Nat
  | native type => type.code
  | custom _ => ColumnType.custom
  | list _ => ColumnType.list
  | map _ _ => ColumnType.map
  | set _ => ColumnType.set
  | udt _ _ _ => ColumnType.udt
  | tuple _ => ColumnType.tuple

mutual

/-- The bytes behind the type code. -/
def payload : ColumnTree → Bytes
  | native _ => []
  | custom name => ProtocolShort.encode name.length ++ name
  | list element => ProtocolShort.encode element.type ++ element.payload
  | map key value =>
    (ProtocolShort.encode key.type ++ key.payload) ++
      (ProtocolShort.encode value.type ++ value.payload)
  | set element => ProtocolShort.encode element.type ++ element.payload
  | udt keySpace udtName fields =>
    (ProtocolShort.encode keySpace.length ++ keySpace) ++
      (ProtocolShort.encode udtName.length ++ udtName) ++
        ProtocolShort.encode fields.length ++ payloadOfFields fields
  | tuple types => ProtocolShort.encode types.length ++ payloadOfTypes types

def payloadOfTypes : List ColumnTree → Bytes
  | [] => []
  | type :: rest => ProtocolShort.encode type.type ++ type.payload ++ payloadOfTypes rest

def payloadOfFields : List (Bytes × ColumnTree) → Bytes
  | [] => []
  | (name, type) :: rest =>
    (ProtocolShort.encode name.length ++ name) ++
      (ProtocolShort.encode type.type ++ type.payload) ++ payloadOfFields rest

end

/-- The option of a tree, by the grammar. -/
def option (t : ColumnTree) : ProtocolColumnOption := ⟨t.type, t.payload⟩

/-- The bytes of a tree. -/
def bytes (t : ColumnTree) : Bytes := ProtocolShort.encode t.type ++ t.payload

/-- The fields of a user defined type, by the grammar. -/
def optionsOfFields (fields : List (Bytes × ColumnTree)) : List (Bytes × ProtocolColumnOption) :=
  fields.map fun field => (field.1, field.2.option)

mutual

/-- The option of a tree, built with the setters from the leaves up. -/
def toOption : ColumnTree → Except Failure ProtocolColumnOption
  | native type => .ok ⟨type.code, []⟩
  | custom name => do return ⟨ColumnType.custom, ← ProtocolString.encode name⟩
  | list element => do return ⟨ColumnType.list, ← (← toOption element).encode⟩
  | map key value => do
    let keyBytes ← (← toOption key).encode
    return ⟨ColumnType.map, keyBytes ++ (← (← toOption value).encode)⟩
  | set element => do return ⟨ColumnType.set, ← (← toOption element).encode⟩
  | udt keySpace udtName fields => do
    return ⟨ColumnType.udt,
      ← ProtocolColumnOption.encodeUDTPayload keySpace udtName (← toFields fields)⟩
  | tuple types => do
    return ⟨ColumnType.tuple, ← ProtocolColumnOption.encodeTuplePayload (← toTypes types)⟩

def toTypes : List ColumnTree → Except Failure (List ProtocolColumnOption)
  | [] => .ok []
  | type :: rest => do
    let option ← toOption type
    return option :: (← toTypes rest)

def toFields : List (Bytes × ColumnTree) → Except Failure (List (Bytes × ProtocolColumnOption))
  | [] => .ok []
  | (name, type) :: rest => do
    let option ← toOption type
    return (name, option) :: (← toFields rest)

end

mutual

/-- Names have at most 65535 bytes, and there are at most 65535 fields. -/
def Fits : ColumnTree → Prop
  | native _ => True
  | custom name => name.length < 2 ^ 16
  | list element => element.Fits
  | map key value => key.Fits ∧ value.Fits
  | set element => element.Fits
  | udt keySpace udtName fields =>
    keySpace.length < 2 ^ 16 ∧ udtName.length < 2 ^ 16 ∧ fields.length < 2 ^ 16 ∧ FieldsFit fields
  | tuple types => types.length < 2 ^ 16 ∧ TypesFit types

def TypesFit : List ColumnTree → Prop
  | [] => True
  | type :: rest => type.Fits ∧ TypesFit rest

def FieldsFit : List (Bytes × ColumnTree) → Prop
  | [] => True
  | (name, type) :: rest => name.length < 2 ^ 16 ∧ type.Fits ∧ FieldsFit rest

end

mutual

/-- The constructor occurs in the tree. -/
def Uses (k : Constructor) : ColumnTree → Prop
  | native _ => False
  | custom _ => False
  | list element => k = .list ∨ element.Uses k
  | map key value => k = .map ∨ key.Uses k ∨ value.Uses k
  | set element => k = .set ∨ element.Uses k
  | udt _ _ fields => k = .udt ∨ FieldsUse k fields
  | tuple types => k = .tuple ∨ TypesUse k types

def TypesUse (k : Constructor) : List ColumnTree → Prop
  | [] => False
  | type :: rest => type.Uses k ∨ TypesUse k rest

def FieldsUse (k : Constructor) : List (Bytes × ColumnTree) → Prop
  | [] => False
  | (_, type) :: rest => type.Uses k ∨ FieldsUse k rest

end

mutual

/-- No constructor occurs inside itself, neither directly nor deeper. -/
def NoSelfNesting : ColumnTree → Prop
  | native _ => True
  | custom _ => True
  | list element => ¬ element.Uses .list ∧ element.NoSelfNesting
  | map key value =>
    (¬ key.Uses .map ∧ ¬ value.Uses .map) ∧ key.NoSelfNesting ∧ value.NoSelfNesting
  | set element => ¬ element.Uses .set ∧ element.NoSelfNesting
  | udt _ _ fields => ¬ FieldsUse .udt fields ∧ FieldsNoSelfNesting fields
  | tuple types => ¬ TypesUse .tuple types ∧ TypesNoSelfNesting types

def TypesNoSelfNesting : List ColumnTree → Prop
  | [] => True
  | type :: rest => type.NoSelfNesting ∧ TypesNoSelfNesting rest

def FieldsNoSelfNesting : List (Bytes × ColumnTree) → Prop
  | [] => True
  | (_, type) :: rest => type.NoSelfNesting ∧ FieldsNoSelfNesting rest

end

end ColumnTree

namespace ProtocolColumnOption

/-- Read a list of subtrees, one after the other. -/
def readTrees {α β : Type} (readOne : α → StateT OptionMemory (Except Failure) β) :
    List α → StateT OptionMemory (Except Failure) (List β)
  | [] => pure []
  | first :: rest => do
    let tree ← readOne first
    return tree :: (← readTrees readOne rest)

/-- Read the whole tree through the payload getters; the first argument bounds the
nesting. -/
def readTree : Nat → ProtocolColumnOption → StateT OptionMemory (Except Failure) ColumnTree
  | 0, _ => throw .tooDeep
  | depth + 1, option => do
    if option.type = ColumnType.custom then
      return .custom (← getCustomPayload option)
    else if option.type = ColumnType.list then
      return .list (← readTree depth (← getListPayload option))
    else if option.type = ColumnType.map then
      let (key, value) ← getMapPayload option
      let key ← readTree depth key
      return .map key (← readTree depth value)
    else if option.type = ColumnType.set then
      return .set (← readTree depth (← getSetPayload option))
    else if option.type = ColumnType.udt then
      let (keySpace, udtName, fields) ← getUDTPayload option
      return .udt keySpace udtName (← readTrees (fun field => do
        return (field.1, ← readTree depth field.2)) fields)
    else if option.type = ColumnType.tuple then
      return .tuple (← readTrees (readTree depth) (← getTuplePayload option))
    else
      match NativeType.ofCode? option.type with
      | some type => return .native type
      | none => throw typeNotMatched

/-- Reading a tree from an option gives `t`, whatever the thread decoded before. -/
def Reads (option : ProtocolColumnOption) (t : ColumnTree) : Prop :=
  ∀ memory, ∃ memory', readTree (option.payload.length + 1) option memory = .ok (t, memory')

end ProtocolColumnOption

/-- The option of the tree can be encoded, and its bytes followed by any others are
decoded, on a thread that decoded anything before, to an option of the same type that
reads as the same tree, with the cursor at the others. -/
def ColumnTree.RoundTrips (t : ColumnTree) : Prop :=
  ∃ option encoded, t.toOption = .ok option ∧ option.encode = .ok encoded ∧
    ∀ memory rest, ∃ memory',
      ProtocolColumnOption.decodeObject ⟨memory, encoded ++ rest⟩ = .ok () ⟨memory', rest⟩ ∧
        memory'.object.type = option.type ∧ memory'.object.Reads t

end CqlDriver
