import CqlDriver.Column.Codec
import CqlDriver.Math.Lists

/-!
# Batch commands and what they stand for

A batch command is built by calls. A parameter is encoded when it is added, into the bytes
of the last parameter set of the last query, and the number of parameters is kept beside
the bytes. A set is opened when there is none. A call that needs a query throws when there
is none, and changes nothing.

Beside the command stands the batch that was meant: its parameter sets are lists of
parameters. The command is the batch with each set replaced by its size and its encoding.

## Main definitions

* `Parameter` — a bound value; `ValueType.parameter` — one of a column type
* `BatchCommand`, `BatchCall.apply` — the command and its builder
* `Batch`, `Batch.apply` — the batch that the calls mean

## Main results

* `ValueType.encode_parameter` — the encoding of a column value is that of its parameter
* `BatchCommand.build_eq` — the calls build the command of the batch they mean
-/

namespace CqlDriver

open Math (bigEndian modifyLast)

/-! ## The values of the enumerations -/

inductive ConsistencyLevel
  | any
  | one
  | two
  | three
  | quorum
  | all
  | localQuorum
  | eachQuorum
  | serial
  | localSerial
  | localOne
  | max_
  deriving DecidableEq, Repr

def ConsistencyLevel.value : ConsistencyLevel → Nat
  | any => 0
  | one => 1
  | two => 2
  | three => 3
  | quorum => 4
  | all => 5
  | localQuorum => 6
  | eachQuorum => 7
  | serial => 8
  | localSerial => 9
  | localOne => 0xa
  | max_ => 0xb

inductive BatchType
  | logged
  | unLogged
  | counter
  deriving DecidableEq, Repr

def BatchType.value : BatchType → Nat
  | logged => 0
  | unLogged => 1
  | counter => 2

/-! ## Parameters -/

/-- A bound value: null, or a body of some column type. -/
structure Parameter where
  body : Option Bytes
  deriving DecidableEq, Repr

namespace Parameter

/-- `ColumnTrait::encode` of the value. -/
def encode (parameter : Parameter) (data : Bytes) : Bytes :=
  match parameter.body with
  | none => data ++ ProtocolInt.encode (-1)
  | some body => ColumnTrait.encode (fun data => data ++ body) data

/-- The bytes of a value. -/
def bytes (parameter : Parameter) : Bytes := parameter.encode []

/-- The size of the body can be written. -/
def Fits (parameter : Parameter) : Prop := ∀ body ∈ parameter.body, body.length < 2 ^ 31

theorem bytes_some (body : Bytes) :
    bytes ⟨some body⟩ = bigEndian 4 body.length ++ body :=
  ColumnTrait.encode_eq (fun _ => rfl) []

theorem encode_eq (parameter : Parameter) (data : Bytes) :
    parameter.encode data = data ++ parameter.bytes := by
  obtain ⟨body⟩ := parameter
  cases body with
  | none => rfl
  | some body =>
    rw [bytes_some]
    exact ColumnTrait.encode_eq (fun _ => rfl) data

end Parameter

/-- The parameter of a value of a column type. -/
def ValueType.parameter (order : IterationOrder) : (type : ValueType) → type.Value → Parameter
  | nullable type, value => if value.isNull then ⟨none⟩ else type.parameter order value.value
  | scalar s, value => ⟨some (s.column.encodeBody value [])⟩
  | list element, value => ⟨some (((list element).column order).encodeBody value [])⟩
  | set element, value => ⟨some (((set element).column order).encodeBody value [])⟩
  | map key type, value => ⟨some (((map key type).column order).encodeBody value [])⟩

/-- A class without a specialised `ColumnTrait` encodes a parameter that is not null. -/
theorem ColumnClass.IsPlain.encode_parameter {α : Type} {c : ColumnClass α} (hplain : c.IsPlain)
    {value : α} (hbody : ∀ data, c.encodeBody value data = data ++ c.encodeBody value [])
    (data : Bytes) : c.encode value data = Parameter.encode ⟨some (c.encodeBody value [])⟩ data := by
  rw [hplain.encode_eq, ColumnTrait.encode_eq hbody, Parameter.encode_eq, Parameter.bytes_some]

/-- The encoding of a column value is that of its parameter. -/
theorem ValueType.encode_parameter (order : IterationOrder) (type : ValueType) (value : type.Value)
    (data : Bytes) :
    (type.column order).encode value data = (type.parameter order value).encode data := by
  induction type with
  | nullable type ih =>
    show Nullable.encode (type.column order) value data = _
    by_cases hnull : value.isNull
    · simp only [Nullable.encode, parameter, if_pos hnull]
      rfl
    · simp only [Nullable.encode, parameter, if_neg hnull]
      exact ih value.value
  | scalar s => exact s.column_isPlain.encode_parameter (s.bodyRoundTrip.encodeBody_eq value) data
  | list element | set element | map key type =>
    exact ColumnTrait.column_isPlain.encode_parameter
      ((ValueType.roundTrips _).1.encodeBody_eq value) data

/-! ## The command -/

/-- Members of a single query in a batch command. A parameter set is the number of its
parameters and their encodings. -/
structure BatchQueryData where
  queryStr : Bytes
  needPrepare : Option Bool
  parameterSets : List (Nat × Bytes)
  deriving DecidableEq, Repr

/-- Members of a batch command. The timestamp is the 64-bit count of nanoseconds since the
epoch. -/
structure BatchCommand where
  batchType : BatchType
  consistencyLevel : Option ConsistencyLevel
  queries : List BatchQueryData
  serialConsistencyLevel : Option ConsistencyLevel
  defaultTimestamp : Option (BitVec 64)
  deriving DecidableEq, Repr

/-- The calls of the builder. -/
inductive BatchCall
  | setType (batchType : BatchType)
  | setConsistency (consistencyLevel : ConsistencyLevel)
  | addQuery (query : Bytes)
  | prepareQuery (value : Bool)
  | openParameterSet
  | addParameter (parameter : Parameter)
  | addParameters (parameters : List Parameter)
  | setSerialConsistency (consistencyLevel : ConsistencyLevel)
  | setDefaultTimestamp (timeStamp : BitVec 64)
  deriving DecidableEq, Repr

namespace BatchQueryData

/-- Create the first parameter set if there is none. -/
def ensureParameterSet (query : BatchQueryData) : BatchQueryData :=
  if query.parameterSets = [] then { query with parameterSets := [(0, [])] } else query

/-- Write the last parameter set, which is created if there is none. -/
def modifyLastSet (f : Nat × Bytes → Nat × Bytes) (query : BatchQueryData) : BatchQueryData :=
  let query := query.ensureParameterSet
  { query with parameterSets := modifyLast f query.parameterSets }

end BatchQueryData

namespace BatchCommand

/-- The initial state. -/
def new : BatchCommand := ⟨.logged, none, [], none, none⟩

/-- Write the last query, or throw when there is none. -/
def modifyLastQuery (message : String) (f : BatchQueryData → BatchQueryData)
    (command : BatchCommand) : Except Exception BatchCommand :=
  if command.queries = [] then
    .error (logicException message)
  else
    .ok { command with queries := modifyLast f command.queries }

/-- Write through the reference to the encoded parameters of the last parameter set. -/
def getParametersOfLastSet (f : Bytes → Bytes) : BatchCommand → Except Exception BatchCommand :=
  modifyLastQuery "please call addQuery before addParameters" <|
    BatchQueryData.modifyLastSet fun set => (set.1, f set.2)

/-- Write through the reference to the count of parameters of the last parameter set. -/
def getParameterCountOfLastSet (f : Nat → Nat) : BatchCommand → Except Exception BatchCommand :=
  modifyLastQuery "please call addQuery before addParameters" <|
    BatchQueryData.modifyLastSet fun set => (f set.1, set.2)

def setType (batchType : BatchType) (command : BatchCommand) : BatchCommand :=
  { command with batchType }

def setConsistency (consistencyLevel : ConsistencyLevel) (command : BatchCommand) : BatchCommand :=
  { command with consistencyLevel := some consistencyLevel }

/-- Add a new query to this batch. -/
def addQuery (query : Bytes) (command : BatchCommand) : BatchCommand :=
  { command with queries := command.queries ++ [⟨query, none, []⟩] }

/-- Set should prepare the last query. -/
def prepareQuery (value : Bool) : BatchCommand → Except Exception BatchCommand :=
  modifyLastQuery "please call addQuery before prepareQuery" fun query =>
    { query with needPrepare := some value }

/-- Open a new parameter set explicitly of the last query. -/
def openParameterSet : BatchCommand → Except Exception BatchCommand :=
  modifyLastQuery "please call addQuery before openParameterSet" fun query =>
    { query with parameterSets := query.parameterSets ++ [(0, [])] }

/-- Add single query parameter to the last parameter set. -/
def addParameter (parameter : Parameter) (command : BatchCommand) :
    Except Exception BatchCommand := do
  let command ← command.getParametersOfLastSet parameter.encode
  command.getParameterCountOfLastSet fun count => count + 1

/-- Add multiple query parameters to the last parameter set. -/
def addParameters (parameters : List Parameter) (command : BatchCommand) :
    Except Exception BatchCommand := do
  let command ← command.getParametersOfLastSet fun data =>
    parameters.foldl (fun data parameter => parameter.encode data) data
  command.getParameterCountOfLastSet fun count => count + parameters.length

def setSerialConsistency (consistencyLevel : ConsistencyLevel) (command : BatchCommand) :
    BatchCommand :=
  { command with serialConsistencyLevel := some consistencyLevel }

def setDefaultTimestamp (timeStamp : BitVec 64) (command : BatchCommand) : BatchCommand :=
  { command with defaultTimestamp := some timeStamp }

end BatchCommand

/-- What a call does to a command, or throws. -/
def BatchCall.apply : BatchCall → BatchCommand → Except Exception BatchCommand
  | setType batchType, command => .ok (command.setType batchType)
  | setConsistency level, command => .ok (command.setConsistency level)
  | addQuery query, command => .ok (command.addQuery query)
  | prepareQuery value, command => command.prepareQuery value
  | openParameterSet, command => command.openParameterSet
  | addParameter parameter, command => command.addParameter parameter
  | addParameters parameters, command => command.addParameters parameters
  | setSerialConsistency level, command => .ok (command.setSerialConsistency level)
  | setDefaultTimestamp timeStamp, command => .ok (command.setDefaultTimestamp timeStamp)

/-- A call whose exception is caught leaves the command as it was. -/
def BatchCommand.call (command : BatchCommand) (call : BatchCall) : BatchCommand :=
  match call.apply command with
  | .ok command => command
  | .error _ => command

/-- The command after some calls. -/
def BatchCommand.build (calls : List BatchCall) : BatchCommand := calls.foldl call new

/-! ## The batch that is meant -/

/-- A query of a batch, with the parameters of each of its parameter sets. -/
structure BatchQuery where
  queryStr : Bytes
  needPrepare : Option Bool
  parameterSets : List (List Parameter)
  deriving DecidableEq, Repr

/-- A batch: its queries in order, and what else the calls have set. -/
structure Batch where
  batchType : BatchType
  consistencyLevel : Option ConsistencyLevel
  queries : List BatchQuery
  serialConsistencyLevel : Option ConsistencyLevel
  defaultTimestamp : Option (BitVec 64)
  deriving DecidableEq, Repr

/-- Bind more parameters in the last parameter set, or in a first one. -/
def BatchQuery.bind (parameters : List Parameter) (query : BatchQuery) : BatchQuery :=
  { query with parameterSets :=
      if query.parameterSets = [] then [parameters]
      else modifyLast (fun set => set ++ parameters) query.parameterSets }

namespace Batch

def new : Batch := ⟨.logged, none, [], none, none⟩

/-- Write the last query, if there is one. -/
def modifyLastQuery (f : BatchQuery → BatchQuery) (batch : Batch) : Batch :=
  { batch with queries := modifyLast f batch.queries }

/-- What a call means. Without a query, the calls for the last query mean nothing. -/
def apply (batch : Batch) : BatchCall → Batch
  | .setType batchType => { batch with batchType }
  | .setConsistency level => { batch with consistencyLevel := some level }
  | .addQuery query => { batch with queries := batch.queries ++ [⟨query, none, []⟩] }
  | .prepareQuery value =>
    batch.modifyLastQuery fun query => { query with needPrepare := some value }
  | .openParameterSet =>
    batch.modifyLastQuery fun query =>
      { query with parameterSets := query.parameterSets ++ [[]] }
  | .addParameter parameter => batch.modifyLastQuery (BatchQuery.bind [parameter])
  | .addParameters parameters => batch.modifyLastQuery (BatchQuery.bind parameters)
  | .setSerialConsistency level => { batch with serialConsistencyLevel := some level }
  | .setDefaultTimestamp timeStamp => { batch with defaultTimestamp := some timeStamp }

/-- The batch that some calls mean. -/
def build (calls : List BatchCall) : Batch := calls.foldl apply new

end Batch

/-- The data of a parameter set: its size and its encoding. -/
def Parameter.setData (set : List Parameter) : Nat × Bytes := (set.length, set.flatMap bytes)

/-- The data of a query. -/
def BatchQuery.data (query : BatchQuery) : BatchQueryData where
  queryStr := query.queryStr
  needPrepare := query.needPrepare
  parameterSets := query.parameterSets.map Parameter.setData

/-- The command of a batch. -/
def Batch.command (batch : Batch) : BatchCommand where
  batchType := batch.batchType
  consistencyLevel := batch.consistencyLevel
  queries := batch.queries.map BatchQuery.data
  serialConsistencyLevel := batch.serialConsistencyLevel
  defaultTimestamp := batch.defaultTimestamp

/-! ## The calls build the command of their batch -/

namespace BatchQueryData

theorem ensureParameterSet_of_ne_nil {query : BatchQueryData} (h : query.parameterSets ≠ []) :
    query.ensureParameterSet = query :=
  if_neg h

theorem ensureParameterSet_ne_nil (query : BatchQueryData) :
    query.ensureParameterSet.parameterSets ≠ [] := by
  rw [ensureParameterSet]
  by_cases h : query.parameterSets = []
  · rw [if_pos h]
    exact List.cons_ne_nil _ _
  · rwa [if_neg h]

/-- Both writes are to the same set. -/
theorem modifyLastSet_modifyLastSet (f g : Nat × Bytes → Nat × Bytes) (query : BatchQueryData) :
    modifyLastSet g (modifyLastSet f query) = modifyLastSet (g ∘ f) query := by
  have hne : (modifyLastSet f query).parameterSets ≠ [] :=
    Math.modifyLast_ne_nil query.ensureParameterSet_ne_nil
  rw [modifyLastSet, ensureParameterSet_of_ne_nil hne]
  simp only [modifyLastSet, Math.modifyLast_modifyLast]

end BatchQueryData

/-- The encodings of parameters are appended in order. -/
theorem Parameter.foldl_encode (parameters : List Parameter) (data : Bytes) :
    parameters.foldl (fun data parameter => parameter.encode data) data =
      data ++ parameters.flatMap Parameter.bytes := by
  induction parameters generalizing data with
  | nil => exact (List.append_nil data).symm
  | cons parameter parameters ih =>
    rw [List.foldl_cons, ih, Parameter.encode_eq, List.flatMap_cons, List.append_assoc]

/-- Binding parameters adds their encodings and their number to the last set. -/
theorem BatchQuery.bind_data (parameters : List Parameter) (query : BatchQuery) :
    (query.bind parameters).data = query.data.modifyLastSet fun set =>
      (set.1 + parameters.length, set.2 ++ parameters.flatMap Parameter.bytes) := by
  obtain ⟨queryStr, needPrepare, sets⟩ := query
  by_cases hsets : sets = []
  · subst hsets
    simp [bind, data, BatchQueryData.modifyLastSet, BatchQueryData.ensureParameterSet, modifyLast,
      Parameter.setData]
  · have hne : (data ⟨queryStr, needPrepare, sets⟩).parameterSets ≠ [] :=
      fun h => hsets (List.map_eq_nil_iff.mp h)
    have hmap := Math.map_modifyLast (f := fun set => set ++ parameters) (h := Parameter.setData)
      (g := fun set => (set.1 + parameters.length, set.2 ++ parameters.flatMap Parameter.bytes))
      (fun set => by rw [Parameter.setData, List.length_append, List.flatMap_append]; rfl) sets
    rw [BatchQueryData.modifyLastSet, BatchQueryData.ensureParameterSet_of_ne_nil hne]
    simp only [bind, if_neg hsets, data, hmap]

namespace BatchCommand

variable {batch : Batch} {message : String}

/-- Writing the last query of the command is writing that of the batch, and it throws
exactly without a query. -/
theorem call_modifyLastQuery {f : BatchQueryData → BatchQueryData} {g : BatchQuery → BatchQuery}
    (hcomm : ∀ query : BatchQuery, (g query).data = f query.data) (batch : Batch) :
    (match modifyLastQuery message f batch.command with
      | .ok command => command
      | .error _ => batch.command) = (batch.modifyLastQuery g).command := by
  by_cases hqueries : batch.queries = []
  · have hnil : batch.command.queries = [] := List.map_eq_nil_iff.mpr hqueries
    rw [modifyLastQuery, if_pos hnil]
    simp only [Batch.command, Batch.modifyLastQuery, hqueries, Math.modifyLast_nil]
  · have hne : batch.command.queries ≠ [] := fun h => hqueries (List.map_eq_nil_iff.mp h)
    rw [modifyLastQuery, if_neg hne]
    simp only [Batch.command, Batch.modifyLastQuery, Math.map_modifyLast hcomm]

/-- Both writes are to the same query. -/
theorem modifyLastQuery_bind (f g : BatchQueryData → BatchQueryData) (command : BatchCommand) :
    (modifyLastQuery message f command >>= modifyLastQuery message g) =
      modifyLastQuery message (g ∘ f) command := by
  by_cases hqueries : command.queries = []
  · simp only [modifyLastQuery, if_pos hqueries]
    rfl
  · have hne : modifyLast f command.queries ≠ [] := Math.modifyLast_ne_nil hqueries
    simp only [modifyLastQuery, if_neg hqueries]
    show (if modifyLast f command.queries = [] then _ else _) = _
    rw [if_neg hne, Math.modifyLast_modifyLast]

theorem addParameters_eq (parameters : List Parameter) (command : BatchCommand) :
    command.addParameters parameters =
      modifyLastQuery "please call addQuery before addParameters"
        (BatchQueryData.modifyLastSet fun set =>
          (set.1 + parameters.length, set.2 ++ parameters.flatMap Parameter.bytes)) command := by
  have hcomp : ∀ f g, BatchQueryData.modifyLastSet g ∘ BatchQueryData.modifyLastSet f =
      BatchQueryData.modifyLastSet (g ∘ f) := fun f g =>
    funext (BatchQueryData.modifyLastSet_modifyLastSet f g)
  simp only [addParameters, getParametersOfLastSet, getParameterCountOfLastSet,
    Parameter.foldl_encode]
  exact (modifyLastQuery_bind _ _ command).trans (by rw [hcomp]; rfl)

theorem addParameter_eq (parameter : Parameter) (command : BatchCommand) :
    command.addParameter parameter = command.addParameters [parameter] := rfl

/-- A call does to the command of a batch what it means for the batch. -/
theorem call_command (batch : Batch) (call : BatchCall) :
    batch.command.call call = (batch.apply call).command := by
  cases call with
  | setType batchType => rfl
  | setConsistency level => rfl
  | addQuery query => simp [BatchCommand.call, BatchCall.apply, addQuery, Batch.apply, Batch.command,
      BatchQuery.data]
  | prepareQuery value => exact call_modifyLastQuery (fun _ => rfl) batch
  | openParameterSet =>
    refine call_modifyLastQuery (fun query => ?_) batch
    simp [BatchQuery.data, Parameter.setData]
  | addParameter parameter =>
    rw [BatchCommand.call, BatchCall.apply, addParameter_eq, addParameters_eq]
    exact call_modifyLastQuery (BatchQuery.bind_data [parameter]) batch
  | addParameters parameters =>
    rw [BatchCommand.call, BatchCall.apply, addParameters_eq]
    exact call_modifyLastQuery (BatchQuery.bind_data parameters) batch
  | setSerialConsistency level => rfl
  | setDefaultTimestamp timeStamp => rfl

/-- The calls build the command of the batch they mean. -/
theorem build_eq (calls : List BatchCall) : build calls = (Batch.build calls).command := by
  have hfrom : ∀ (batch : Batch),
      calls.foldl BatchCommand.call batch.command = (calls.foldl Batch.apply batch).command := by
    induction calls with
    | nil => exact fun _ => rfl
    | cons call calls ih =>
      intro batch
      rw [List.foldl_cons, List.foldl_cons, call_command, ih]
  exact hfrom Batch.new

end BatchCommand

end CqlDriver
