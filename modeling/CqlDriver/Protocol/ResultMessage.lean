import CqlDriver.Protocol.ColumnOption

/-!
# RESULT messages

`ResultMessage::decodeBody` decodes into the members of an object that may have been
used before. `reset` clears the integers and the strings, but of the metadata of rows
only the flags and the columns count, and columns are decoded into those that are
there.

An object is decoded next to the payload objects of the thread, which column types
are decoded with.

## Main definitions

* `ProtocolResultColumn`, `ProtocolResultRowsMetadata`,
  `ProtocolResultPreparedMetadata` — the metadata and their `decode`
* `ResultSetData` — what a `ResultSet` is made of
* `ResultMessage.reset`, `ResultMessage.decodeBody`
-/

namespace CqlDriver

open Math (Decode Cursor toSigned ofSigned)

/-- Decode an object, next to the payload objects of the thread. -/
abbrev ObjectDecoder (χ α : Type) := Decoder (χ × OptionMemory) α

namespace ObjectDecoder

variable {χ υ α : Type}

/-- Write members of the object. -/
def write (f : χ → χ) : ObjectDecoder χ Unit := Decode.update fun s => (f s.1, s.2)

theorem write_apply (f : χ → χ) (object : χ) (memory : OptionMemory) (rest : Bytes) :
    write f ⟨(object, memory), rest⟩ = .ok () ⟨(f object, memory), rest⟩ := rfl

/-- Decode a member of the object. -/
def member (get : χ → υ) (set : υ → χ → χ) (m : ObjectDecoder υ α) : ObjectDecoder χ α :=
  Decode.on (fun s => (get s.1, s.2)) (fun t s => (set t.1 s.1, t.2)) m

end ObjectDecoder

open ObjectDecoder (write member)

/-- A 32-bit integer cast to `std::size_t`. -/
def sizeOfInt (value : Int) : Nat := ofSigned 64 value

/-- `enumTrue(flags & flag)` for the flag with the given bit. -/
def hasFlag (flags : Int) (bit : Nat) : Bool := (ofSigned 32 flags).testBit bit

/-! ## Columns -/

/-- Specifies the columns returned in the query. -/
structure ProtocolResultColumn where
  keySpace : Bytes
  table : Bytes
  name : Bytes
  type : ProtocolColumnOption
  deriving DecidableEq, Repr

namespace ProtocolResultColumn

/-- A default constructed column. -/
def create : ProtocolResultColumn := ⟨[], [], [], .create⟩

def decode (containsTableSpec : Bool) : ObjectDecoder ProtocolResultColumn Unit := do
  if containsTableSpec then
    let keySpace ← ProtocolString.decode
    write fun column => { column with keySpace }
    let table ← ProtocolString.decode
    write fun column => { column with table }
  let name ← ProtocolString.decode
  write fun column => { column with name }
  Decode.on (fun s => { s.2 with object := s.1.type })
    (fun memory s => ({ s.1 with type := memory.object }, memory)) ProtocolColumnOption.decodeObject

/-- Decode the column at an index in place. -/
def decodeAt (containsTableSpec : Bool) (i : Nat) :
    ObjectDecoder (List ProtocolResultColumn) Unit :=
  member (fun columns => columns.getD i create) (fun column columns => columns.set i column)
    (decode containsTableSpec)

/-- The loop over the columns from an index on: those that are there are decoded in
place, the others are appended. -/
def decodeColumns (containsTableSpec : Bool) :
    Nat → Nat → ObjectDecoder (List ProtocolResultColumn) Unit
  | 0, _ => pure ()
  | count + 1, i => do
    let s ← Decode.object
    if s.1.length ≤ i then
      write fun columns => columns ++ [create]
    decodeAt containsTableSpec i
    decodeColumns containsTableSpec count (i + 1)

end ProtocolResultColumn

/-! ## Metadata -/

/-- The metadata of rows. -/
structure ProtocolResultRowsMetadata where
  flags : Int
  columnsCount : Int
  pagingState : Option Bytes
  globalKeySpace : Bytes
  globalTable : Bytes
  columns : List ProtocolResultColumn
  deriving DecidableEq, Repr

namespace ProtocolResultRowsMetadata

/-- `ResultRowsMetadataFlags::NoMetadata`. -/
def noMetadata : Int := 4

def create : ProtocolResultRowsMetadata := ⟨noMetadata, 0, none, [], [], []⟩

/-- Reset to initial state. -/
def reset (metadata : ProtocolResultRowsMetadata) : ProtocolResultRowsMetadata :=
  { metadata with flags := noMetadata, columnsCount := 0 }

/-- `getPagingState()`, empty for null. -/
def getPagingState (metadata : ProtocolResultRowsMetadata) : Bytes :=
  metadata.pagingState.getD []

/-- `std::move(getPagingState())` leaves an empty string. -/
def movePagingState (metadata : ProtocolResultRowsMetadata) : ProtocolResultRowsMetadata :=
  { metadata with pagingState := metadata.pagingState.map fun _ => [] }

/-- The columns behind the table specification. -/
def decodeColumns (flags columnsCount : Int) : ObjectDecoder ProtocolResultRowsMetadata Unit :=
  if columnsCount < 0 then
    throw (.exception (logicException "columns count < 0"))
  else do
    write fun metadata => { metadata with columns := metadata.columns.take columnsCount.toNat }
    member (fun metadata => metadata.columns) (fun columns metadata => { metadata with columns })
      (ProtocolResultColumn.decodeColumns (!hasFlag flags 0) columnsCount.toNat 0)

/-- What follows the paging state. -/
def decodeSpecs (flags columnsCount : Int) : ObjectDecoder ProtocolResultRowsMetadata Unit := do
  if hasFlag flags 0 then
    let globalKeySpace ← ProtocolString.decode
    write fun metadata => { metadata with globalKeySpace }
    let globalTable ← ProtocolString.decode
    write fun metadata => { metadata with globalTable }
  decodeColumns flags columnsCount

def decode : ObjectDecoder ProtocolResultRowsMetadata Unit := do
  let flags ← ProtocolInt.decode
  write fun metadata => { metadata with flags }
  let columnsCount ← ProtocolInt.decode
  write fun metadata => { metadata with columnsCount }
  if hasFlag flags 1 then
    let pagingState ← ProtocolBytes.decode
    write fun metadata => { metadata with pagingState }
  if !hasFlag flags 2 then
    decodeSpecs flags columnsCount

end ProtocolResultRowsMetadata

/-- The metadata of a prepared query. -/
structure ProtocolResultPreparedMetadata where
  flags : Int
  partitionKeyIndexes : List Nat
  globalKeySpace : Bytes
  globalTable : Bytes
  columns : List ProtocolResultColumn
  deriving DecidableEq, Repr

namespace ProtocolResultPreparedMetadata

def create : ProtocolResultPreparedMetadata := ⟨0, [], [], [], []⟩

/-- Reset to initial state. -/
def reset (_ : ProtocolResultPreparedMetadata) : ProtocolResultPreparedMetadata := create

def decode : ObjectDecoder ProtocolResultPreparedMetadata Unit := do
  let flags ← ProtocolInt.decode
  write fun metadata => { metadata with flags }
  let columnsCount ← ProtocolInt.decode
  let partitionKeyIndexesCount ← ProtocolInt.decode
  if columnsCount < 0 then
    throw (.exception (logicException "columns count < 0"))
  else if partitionKeyIndexesCount < 0 then
    throw (.exception (logicException "partition key indexes count < 0"))
  else
    write fun metadata => { metadata with partitionKeyIndexes := [] }
    Decode.times (do
      let index ← ProtocolShort.decode
      write fun metadata =>
        { metadata with partitionKeyIndexes := metadata.partitionKeyIndexes ++ [index] })
      partitionKeyIndexesCount.toNat
    if hasFlag flags 0 then
      let globalKeySpace ← ProtocolString.decode
      write fun metadata => { metadata with globalKeySpace }
      let globalTable ← ProtocolString.decode
      write fun metadata => { metadata with globalTable }
    write fun metadata => { metadata with columns := [] }
    member (fun metadata => metadata.columns) (fun columns metadata => { metadata with columns })
      (ProtocolResultColumn.decodeColumns (!hasFlag flags 0) columnsCount.toNat 0)

end ProtocolResultPreparedMetadata

/-! ## The message -/

/-- What a `ResultSet` is made of: `region` is the buffer from `decodePtr` to
`decodeEnd`. -/
structure ResultSetData where
  rowsCount : Nat
  columnsCount : Nat
  pagingState : Bytes
  region : Bytes
  deriving DecidableEq, Repr

namespace ResultKind

def void : Int := 1

def rows : Int := 2

def setKeySpace : Int := 3

def prepared : Int := 4

def schemaChange : Int := 5

end ResultKind

/-- The result to a QUERY, PREPARE, EXECUTE or BATCH message. -/
structure ResultMessage where
  kind : Int
  rowsMetadata : ProtocolResultRowsMetadata
  rowsCount : Int
  /-- `none` is an invalid result set. -/
  resultSet : Option ResultSetData
  keySpaceSet : Bytes
  preparedQueryId : Bytes
  preparedMetadata : ProtocolResultPreparedMetadata
  preparedRowsMetadata : ProtocolResultRowsMetadata
  schemaChangeType : Bytes
  schemaChangeTarget : Bytes
  schemaChangeOptions : Bytes
  deriving DecidableEq, Repr

namespace ResultMessage

def create : ResultMessage := ⟨0, .create, 0, none, [], [], .create, .create, [], [], []⟩

/-- Reset to initial state. -/
def reset (message : ResultMessage) : ResultMessage where
  kind := 0
  rowsMetadata := message.rowsMetadata.reset
  rowsCount := 0
  resultSet := none
  keySpaceSet := []
  preparedQueryId := []
  preparedMetadata := message.preparedMetadata.reset
  preparedRowsMetadata := message.preparedRowsMetadata.reset
  schemaChangeType := []
  schemaChangeTarget := []
  schemaChangeOptions := []

/-- The branch for rows. -/
def decodeRows : ObjectDecoder ResultMessage Unit := do
  member (fun message => message.rowsMetadata)
    (fun rowsMetadata message => { message with rowsMetadata }) ProtocolResultRowsMetadata.decode
  let rowsCount ← ProtocolInt.decode
  write fun message => { message with rowsCount }
  let region ← Decode.remaining
  write fun message => { message with
    rowsMetadata := message.rowsMetadata.movePagingState
    resultSet := some {
      rowsCount := sizeOfInt rowsCount
      columnsCount := sizeOfInt message.rowsMetadata.columnsCount
      pagingState := message.rowsMetadata.getPagingState
      region } }

/-- The branch for a prepared query. -/
def decodePrepared : ObjectDecoder ResultMessage Unit := do
  -- a [short bytes] is read like a [string]
  let preparedQueryId ← ProtocolString.decode
  write fun message => { message with preparedQueryId }
  member (fun message => message.preparedMetadata)
    (fun preparedMetadata message => { message with preparedMetadata })
    ProtocolResultPreparedMetadata.decode
  member (fun message => message.preparedRowsMetadata)
    (fun preparedRowsMetadata message => { message with preparedRowsMetadata })
    ProtocolResultRowsMetadata.decode

/-- The branch for a schema change. -/
def decodeSchemaChange : ObjectDecoder ResultMessage Unit := do
  let schemaChangeType ← ProtocolString.decode
  write fun message => { message with schemaChangeType }
  let schemaChangeTarget ← ProtocolString.decode
  write fun message => { message with schemaChangeTarget }
  let schemaChangeOptions ← Decode.remaining
  write fun message => { message with schemaChangeOptions }

/-- The exception for a kind that is not known. -/
def unsupportedKind (kind : Int) : Exception :=
  logicException s!"unsupported result kind: {sizeOfInt kind}"

/-- The branches of `decodeBody`. -/
def decodeKind (kind : Int) : ObjectDecoder ResultMessage Unit := do
  if kind = ResultKind.void then
    pure ()
  else if kind = ResultKind.rows then
    decodeRows
  else if kind = ResultKind.setKeySpace then
    let keySpaceSet ← ProtocolString.decode
    write fun message => { message with keySpaceSet }
  else if kind = ResultKind.prepared then
    decodePrepared
  else if kind = ResultKind.schemaChange then
    decodeSchemaChange
  else
    throw (.exception (unsupportedKind kind))

/-- Decode message body from binary data. -/
def decodeBody : ObjectDecoder ResultMessage Unit := do
  let kind ← ProtocolInt.decode
  write fun message => { message with kind }
  decodeKind kind

end ResultMessage

end CqlDriver
