import CqlDriver.Connection.EncodeMessage
import CqlDriver.Protocol.BatchCommand

/-!
# Batch requests

The body of a batch request is its type, the number of its entries, the entries, and the
batch parameters. A query is an entry for each of its parameter sets, or one entry without
values. The number of entries is computed by one loop, and the entries are written by
another one, which counts them again.

## Main definitions

* `ProtocolBatchParameters`, `BatchMessage.encodeBody` — what the driver sends
* `BatchBody.decode` — the grammar of the body
* `Batch.body` — what a batch stands for in the grammar

## Main results

* `BatchMessage.encodeBody_cases` — what is appended, or thrown
* `encodesBatch` — the body of a command that some calls built parses to the batch they mean
* `not_encodesBatch_hugeValue` — a value of two gibibytes does not parse
-/

namespace CqlDriver

open Math (Decode Cursor bigEndian)

/-! ## The message -/

/-- The microseconds since the epoch. -/
def ProtocolTimestamp.get (timeStamp : BitVec 64) : Int := timeStamp.toInt.tdiv 1000

def ProtocolTimestamp.encode (timeStamp : BitVec 64) : Bytes :=
  ProtocolLong.encode (get timeStamp)

/-- `<consistency><flags>[<serial_consistency>][<timestamp>]`. The optional members that are
read are there. -/
structure ProtocolBatchParameters where
  flags : Nat
  batchCommand : BatchCommand
  hasConsistency : batchCommand.consistencyLevel.isSome
  hasSerialConsistency : flags &&& 16 ≠ 0 → batchCommand.serialConsistencyLevel.isSome
  hasDefaultTimestamp : flags &&& 32 ≠ 0 → batchCommand.defaultTimestamp.isSome

namespace ProtocolBatchParameters

/-- The optional components that a command has. -/
def flagsOf (command : BatchCommand) : Nat :=
  (if command.serialConsistencyLevel.isSome then 16 else 0) |||
    (if command.defaultTimestamp.isSome then 32 else 0)

theorem flagsOf_serialConsistency (command : BatchCommand) :
    flagsOf command &&& 16 ≠ 0 ↔ command.serialConsistencyLevel.isSome := by
  rw [flagsOf]
  cases command.serialConsistencyLevel.isSome <;> cases command.defaultTimestamp.isSome <;> decide

theorem flagsOf_defaultTimestamp (command : BatchCommand) :
    flagsOf command &&& 32 ≠ 0 ↔ command.defaultTimestamp.isSome := by
  rw [flagsOf]
  cases command.serialConsistencyLevel.isSome <;> cases command.defaultTimestamp.isSome <;> decide

/-- Set the batch command contains queries and parameters. -/
def setBatchCommand (command : BatchCommand) : Except Exception ProtocolBatchParameters :=
  if h : command.consistencyLevel.isSome then
    .ok ⟨flagsOf command, command, h, (flagsOf_serialConsistency command).mp,
      (flagsOf_defaultTimestamp command).mp⟩
  else
    .error (logicException "can't set a batch command with empty consistency")

def encode (parameters : ProtocolBatchParameters) (data : Bytes) : Bytes :=
  let command := parameters.batchCommand
  let consistency := command.consistencyLevel.get parameters.hasConsistency
  let data := data ++ ProtocolShort.encode consistency.value
  let data := data ++ ProtocolByte.encode parameters.flags
  let data :=
    if h : parameters.flags &&& 16 ≠ 0 then
      let serialConsistency :=
        command.serialConsistencyLevel.get (parameters.hasSerialConsistency h)
      data ++ ProtocolShort.encode serialConsistency.value
    else data
  if h : parameters.flags &&& 32 ≠ 0 then
    data ++ ProtocolTimestamp.encode
      (command.defaultTimestamp.get (parameters.hasDefaultTimestamp h))
  else data

end ProtocolBatchParameters

/-- A batch request, with the prepared id of each query; an empty one means none. -/
structure BatchMessage where
  batchParameters : ProtocolBatchParameters
  preparedQueryIds : List Bytes

namespace BatchMessage

def tooManyQueries : Exception := logicException "too many queries"

def tooManyParameters : Exception := logicException "too many parameters"

def incorrectQueryCount : Exception := logicException "incorrect query count calculation"

/-- Get the prepared query id of the query at an index. -/
def getPreparedQueryId (message : BatchMessage) (index : Nat) : Bytes :=
  message.preparedQueryIds.getD index []

/-- The entries of a query, where no parameter set means execute just once. -/
def countEntries (query : BatchQueryData) : Nat :=
  if query.parameterSets = [] then 1 else query.parameterSets.length

/-- `<kind><string_or_id>`. -/
def encodeStatement (preparedQueryId : Bytes) (query : BatchQueryData) : Bytes :=
  if preparedQueryId = [] then
    ProtocolByte.encode 0 ++ ProtocolInt.encode query.queryStr.length ++ query.queryStr
  else
    ProtocolByte.encode 1 ++ ProtocolShort.encode preparedQueryId.length ++ preparedQueryId

/-- Write an entry for each of the parameter sets, counting them. -/
def encodeSets (statement : Bytes) : List (Nat × Bytes) → Bytes × Nat →
    (Bytes × Nat) × Option Exception
  | [], written => (written, none)
  | set :: sets, (data, queryCountVerify) =>
    let data := data ++ statement
    if set.1 % 2 ^ 16 ≠ set.1 then
      ((data, queryCountVerify), some tooManyParameters)
    else
      encodeSets statement sets (data ++ ProtocolShort.encode set.1 ++ set.2, queryCountVerify + 1)

/-- Write the entries of the queries from an index on, counting them. -/
def encodeQueries (preparedQueryId : Nat → Bytes) : Nat → List BatchQueryData → Bytes × Nat →
    (Bytes × Nat) × Option Exception
  | _, [], written => (written, none)
  | i, query :: queries, (data, queryCountVerify) =>
    let statement := encodeStatement (preparedQueryId i) query
    if query.parameterSets = [] then
      -- no parameter set means execute just once
      encodeQueries preparedQueryId (i + 1) queries
        (data ++ statement ++ ProtocolShort.encode 0, queryCountVerify + 1)
    else
      match encodeSets statement query.parameterSets (data, queryCountVerify) with
      | (written, some ex) => (written, some ex)
      | (written, none) => encodeQueries preparedQueryId (i + 1) queries written

/-- Encode message body to binary data. -/
def encodeBody (message : BatchMessage) (data : Bytes) : Appended :=
  let command := message.batchParameters.batchCommand
  let data := data ++ ProtocolByte.encode command.batchType.value
  let queryCountValue := (command.queries.map countEntries).sum
  if queryCountValue % 2 ^ 16 ≠ queryCountValue then
    (data, some tooManyQueries)
  else
    let data := data ++ ProtocolShort.encode queryCountValue
    match encodeQueries message.getPreparedQueryId 0 command.queries (data, 0) with
    | ((data, _), some ex) => (data, some ex)
    | ((data, queryCountVerify), none) =>
      if queryCountValue ≠ queryCountVerify then
        (data, some incorrectQueryCount)
      else
        (message.batchParameters.encode data, none)

end BatchMessage

/-! ## The grammar -/

/-- What an entry of a batch executes. -/
inductive BatchStatement
  | query (string : Bytes)
  | prepared (id : Bytes)
  deriving DecidableEq, Repr

/-- An entry of a batch. -/
structure BatchEntry where
  statement : BatchStatement
  values : List ProtocolValue
  deriving DecidableEq, Repr

/-- The body of a batch request. -/
structure BatchBody where
  batchType : Nat
  entries : List BatchEntry
  consistency : Nat
  flags : Nat
  serialConsistency : Option Nat
  timestamp : Option Int
  deriving DecidableEq, Repr

variable {σ : Type}

/-- `<kind><string_or_id>`. -/
def BatchStatement.decode : Decoder σ BatchStatement := do
  let kind ← ProtocolByte.decode
  if kind = 0 then
    return .query (← ProtocolLongString.decode)
  else if kind = 1 then
    return .prepared (← ProtocolShortBytes.decode)
  else
    throw (.exception (decodeException "unknown kind of query"))

/-- `<kind><string_or_id><n><value_1>...<value_n>`. -/
def BatchEntry.decode : Decoder σ BatchEntry := do
  let statement ← BatchStatement.decode
  let n ← ProtocolShort.decode
  return ⟨statement, ← Decode.collect ProtocolValue.decode n⟩

/-- A component that is there if a flag is set. -/
def BatchBody.decodeOptional {α : Type} (flag : Nat) (m : Decoder σ α) : Decoder σ (Option α) := do
  if flag ≠ 0 then
    return some (← m)
  else
    return none

/-- `<type><n><query_1>...<query_n><consistency><flags>[<serial_consistency>][<timestamp>]`. -/
def BatchBody.decode : Decoder σ BatchBody := do
  let batchType ← ProtocolByte.decode
  let n ← ProtocolShort.decode
  let entries ← Decode.collect BatchEntry.decode n
  let consistency ← ProtocolShort.decode
  let flags ← ProtocolByte.decode
  let serialConsistency ← decodeOptional (flags &&& 16) ProtocolShort.decode
  let timestamp ← decodeOptional (flags &&& 32) ProtocolLong.decode
  return ⟨batchType, entries, consistency, flags, serialConsistency, timestamp⟩

/-! ## What a batch stands for -/

/-- The query text, unless the query is prepared. -/
def BatchStatement.of (preparedQueryId queryStr : Bytes) : BatchStatement :=
  if preparedQueryId = [] then .query queryStr else .prepared preparedQueryId

/-- The value that a parameter is. -/
def Parameter.value (parameter : Parameter) : ProtocolValue :=
  match parameter.body with
  | none => .null
  | some body => .normal body

namespace BatchQuery

/-- The parameter sets, or one without parameters. -/
def executions (query : BatchQuery) : List (List Parameter) :=
  if query.parameterSets = [] then [[]] else query.parameterSets

/-- One entry for each execution. -/
def entries (preparedQueryId : Bytes) (query : BatchQuery) : List BatchEntry :=
  query.executions.map fun set =>
    ⟨.of preparedQueryId query.queryStr, set.map Parameter.value⟩

end BatchQuery

namespace Batch

/-- The entries of the queries from an index on. -/
def entriesFrom (preparedQueryId : Nat → Bytes) : Nat → List BatchQuery → List BatchEntry
  | _, [] => []
  | i, query :: queries =>
    query.entries (preparedQueryId i) ++ entriesFrom preparedQueryId (i + 1) queries

/-- The entries of the queries in order. -/
def entries (batch : Batch) (preparedQueryId : Nat → Bytes) : List BatchEntry :=
  entriesFrom preparedQueryId 0 batch.queries

/-- The body of the request for a batch. -/
def body (batch : Batch) (preparedQueryId : Nat → Bytes) (consistency : ConsistencyLevel) :
    BatchBody where
  batchType := batch.batchType.value
  entries := batch.entries preparedQueryId
  consistency := consistency.value
  flags := (if batch.serialConsistencyLevel.isSome then 16 else 0) |||
    (if batch.defaultTimestamp.isSome then 32 else 0)
  serialConsistency := batch.serialConsistencyLevel.map ConsistencyLevel.value
  timestamp := batch.defaultTimestamp.map ProtocolTimestamp.get

end Batch

/-! ## The bytes of an entry -/

def BatchStatement.bytes : BatchStatement → Bytes
  | query string =>
    ProtocolByte.encode 0 ++ ProtocolInt.encode string.length ++ string
  | prepared id => ProtocolByte.encode 1 ++ ProtocolShort.encode id.length ++ id

def ProtocolValue.bytes : ProtocolValue → Bytes
  | normal value => ProtocolInt.encode value.length ++ value
  | null => ProtocolInt.encode (-1)
  | notSet => ProtocolInt.encode (-2)

namespace BatchEntry

def bytes (entry : BatchEntry) : Bytes :=
  entry.statement.bytes ++ ProtocolShort.encode entry.values.length ++
    entry.values.flatMap ProtocolValue.bytes

end BatchEntry

theorem Parameter.bytes_value (parameter : Parameter) : parameter.value.bytes = parameter.bytes := by
  obtain ⟨body⟩ := parameter
  cases body with
  | none => rfl
  | some body =>
    rw [Parameter.bytes_some]
    exact congrArg (· ++ body) (ProtocolInt.encode_natCast body.length)

namespace BatchMessage

variable {preparedQueryId : Nat → Bytes} {statement : BatchStatement} {data : Bytes}
  {queryCountVerify : Nat}

theorem encodeStatement_eq (id : Bytes) (query : BatchQuery) :
    encodeStatement id query.data = (BatchStatement.of id query.queryStr).bytes := by
  by_cases hid : id = []
  · simp [encodeStatement, BatchStatement.of, hid, BatchStatement.bytes, BatchQuery.data]
  · simp [encodeStatement, BatchStatement.of, hid, BatchStatement.bytes]

/-- What is written for a parameter set is the entry. -/
theorem setBytes_eq (statement : BatchStatement) (set : List Parameter) :
    statement.bytes ++ ProtocolShort.encode (Parameter.setData set).1 ++ (Parameter.setData set).2 =
      BatchEntry.bytes ⟨statement, set.map Parameter.value⟩ := by
  have hvalues : (set.map Parameter.value).flatMap ProtocolValue.bytes =
      set.flatMap Parameter.bytes := by
    rw [List.flatMap_map]
    exact List.flatMap_congr fun parameter _ => parameter.bytes_value
  rw [BatchEntry.bytes, hvalues, List.length_map, Parameter.setData]

/-- Every set that is not too long is written as its entry. -/
theorem encodeSets_ok {sets : List (List Parameter)} (hsets : ∀ set ∈ sets, set.length < 2 ^ 16) :
    encodeSets statement.bytes (sets.map Parameter.setData) (data, queryCountVerify) =
      ((data ++ (sets.map fun set => ⟨statement, set.map Parameter.value⟩).flatMap BatchEntry.bytes,
        queryCountVerify + sets.length), none) := by
  induction sets generalizing data queryCountVerify with
  | nil => simp [encodeSets]
  | cons set sets ih =>
    have hlength : (Parameter.setData set).1 % 2 ^ 16 = (Parameter.setData set).1 :=
      Nat.mod_eq_of_lt (hsets set List.mem_cons_self)
    have hrest := fun other hother => hsets other (List.mem_cons_of_mem _ hother)
    have hentry : data ++ statement.bytes ++ ProtocolShort.encode (Parameter.setData set).1 ++
        (Parameter.setData set).2 =
          data ++ BatchEntry.bytes ⟨statement, set.map Parameter.value⟩ := by
      rw [← setBytes_eq]
      simp only [List.append_assoc]
    rw [List.map_cons, encodeSets, if_neg (not_not.mpr hlength), hentry, ih hrest, List.map_cons,
      List.flatMap_cons, List.append_assoc, List.length_cons, Nat.add_assoc, Nat.add_comm 1]

/-- A set that is too long throws. -/
theorem encodeSets_throws {sets : List (List Parameter)} (hset : ∃ set ∈ sets, 2 ^ 16 ≤ set.length) :
    ∃ written, encodeSets statement.bytes (sets.map Parameter.setData) (data, queryCountVerify) =
      (written, some tooManyParameters) := by
  induction sets generalizing data queryCountVerify with
  | nil => simp at hset
  | cons set sets ih =>
    rw [List.map_cons, encodeSets]
    by_cases hlength : (Parameter.setData set).1 % 2 ^ 16 = (Parameter.setData set).1
    · rw [if_neg (not_not.mpr hlength)]
      have hlt : (Parameter.setData set).1 < 2 ^ 16 := by
        rw [← hlength]
        exact Nat.mod_lt _ (by decide)
      obtain ⟨other, hother, hle⟩ := hset
      rcases List.mem_cons.mp hother with rfl | hmem
      · exact absurd hlt (Nat.not_lt.mpr hle)
      · exact ih ⟨other, hmem, hle⟩
    · rw [if_pos hlength]
      exact ⟨_, rfl⟩

/-- A query without parameter sets is written like one with an empty set. -/
theorem encodeQueries_cons (i : Nat) (query : BatchQuery) (queries : List BatchQueryData)
    (written : Bytes × Nat) :
    encodeQueries preparedQueryId i (query.data :: queries) written =
      match encodeSets (BatchStatement.of (preparedQueryId i) query.queryStr).bytes
          (query.executions.map Parameter.setData) written with
      | (written, some ex) => (written, some ex)
      | (written, none) => encodeQueries preparedQueryId (i + 1) queries written := by
  obtain ⟨data, queryCountVerify⟩ := written
  by_cases hsets : query.parameterSets = []
  · have hdata : query.data.parameterSets = [] := List.map_eq_nil_iff.mpr hsets
    simp [encodeQueries, hdata, encodeStatement_eq, BatchQuery.executions, hsets, encodeSets,
      Parameter.setData]
  · have hdata : query.data.parameterSets ≠ [] := fun h => hsets (List.map_eq_nil_iff.mp h)
    have hexecutions : query.executions.map Parameter.setData = query.data.parameterSets := by
      rw [BatchQuery.executions, if_neg hsets]
      rfl
    rw [hexecutions, ← encodeStatement_eq, encodeQueries, if_neg hdata]

/-- The entries of the queries are written in order, and all of them are counted. -/
theorem encodeQueries_ok (data : Bytes) (queryCountVerify : Nat) {i : Nat}
    {queries : List BatchQuery}
    (hentries : ∀ entry ∈ Batch.entriesFrom preparedQueryId i queries,
      entry.values.length < 2 ^ 16) :
    encodeQueries preparedQueryId i (queries.map BatchQuery.data) (data, queryCountVerify) =
      ((data ++ (Batch.entriesFrom preparedQueryId i queries).flatMap BatchEntry.bytes,
        queryCountVerify + (Batch.entriesFrom preparedQueryId i queries).length), none) := by
  induction queries generalizing i data queryCountVerify with
  | nil => simp [encodeQueries, Batch.entriesFrom]
  | cons query queries ih =>
    rw [Batch.entriesFrom] at hentries ⊢
    have hsets : ∀ set ∈ query.executions, set.length < 2 ^ 16 := by
      intro set hset
      have hentry := hentries _ (List.mem_append_left _ (List.mem_map_of_mem hset))
      rwa [List.length_map] at hentry
    have hrest := fun entry hentry => hentries entry (List.mem_append_right _ hentry)
    rw [List.map_cons, encodeQueries_cons, encodeSets_ok hsets]
    dsimp only
    rw [ih _ _ hrest, List.flatMap_append, List.append_assoc, List.length_append, Nat.add_assoc,
      BatchQuery.entries, List.length_map]

/-- A set that is too long throws, whichever query it is of. -/
theorem encodeQueries_throws (data : Bytes) (queryCountVerify : Nat) {i : Nat}
    {queries : List BatchQuery}
    (hentry : ∃ entry ∈ Batch.entriesFrom preparedQueryId i queries,
      2 ^ 16 ≤ entry.values.length) :
    ∃ written, encodeQueries preparedQueryId i (queries.map BatchQuery.data)
      (data, queryCountVerify) = (written, some tooManyParameters) := by
  induction queries generalizing i data queryCountVerify with
  | nil => simp [Batch.entriesFrom] at hentry
  | cons query queries ih =>
    rw [List.map_cons, encodeQueries_cons]
    by_cases hsets : ∀ set ∈ query.executions, set.length < 2 ^ 16
    · -- the set is one of a later query
      rw [encodeSets_ok hsets]
      obtain ⟨entry, hmem, hle⟩ := hentry
      rcases List.mem_append.mp hmem with hfirst | hlater
      · obtain ⟨set, hset, rfl⟩ := List.mem_map.mp hfirst
        rw [List.length_map] at hle
        exact absurd (hsets set hset) (Nat.not_lt.mpr hle)
      · exact ih _ _ ⟨entry, hlater, hle⟩
    · push Not at hsets
      obtain ⟨written, hwritten⟩ := encodeSets_throws hsets
      rw [hwritten]
      exact ⟨written, rfl⟩

/-- Both loops count the same entries. -/
theorem sum_countEntries (i : Nat) (queries : List BatchQuery) :
    ((queries.map BatchQuery.data).map countEntries).sum =
      (Batch.entriesFrom preparedQueryId i queries).length := by
  induction queries generalizing i with
  | nil => rfl
  | cons query queries ih =>
    have hquery : countEntries query.data = (query.entries (preparedQueryId i)).length := by
      rw [BatchQuery.entries, List.length_map, BatchQuery.executions, countEntries]
      by_cases hsets : query.parameterSets = []
      · simp [hsets, BatchQuery.data]
      · simp [hsets, BatchQuery.data]
    rw [List.map_cons, List.map_cons, List.sum_cons, ih (i + 1), hquery, Batch.entriesFrom,
      List.length_append]

variable {message : BatchMessage} {batch : Batch}

/-- Too many entries throw. -/
theorem encodeBody_tooManyQueries (hcommand : message.batchParameters.batchCommand = batch.command)
    (hlength : 2 ^ 16 ≤ (batch.entries message.getPreparedQueryId).length) (data : Bytes) :
    ∃ written, message.encodeBody data = (written, some tooManyQueries) := by
  have hcount : ((batch.command.queries.map countEntries).sum) =
      (batch.entries message.getPreparedQueryId).length :=
    sum_countEntries 0 batch.queries
  have hmod : (batch.entries message.getPreparedQueryId).length % 2 ^ 16 ≠
      (batch.entries message.getPreparedQueryId).length := by
    have hlt := Nat.mod_lt (batch.entries message.getPreparedQueryId).length
      (show 0 < 2 ^ 16 by decide)
    omega
  simp only [encodeBody, hcommand, hcount, if_pos hmod]
  exact ⟨_, rfl⟩

/-- Too many parameters throw. -/
theorem encodeBody_tooManyParameters
    (hcommand : message.batchParameters.batchCommand = batch.command)
    (hlength : (batch.entries message.getPreparedQueryId).length < 2 ^ 16)
    (hentry : ∃ entry ∈ batch.entries message.getPreparedQueryId, 2 ^ 16 ≤ entry.values.length)
    (data : Bytes) : ∃ written, message.encodeBody data = (written, some tooManyParameters) := by
  have hcount : ((batch.command.queries.map countEntries).sum) =
      (batch.entries message.getPreparedQueryId).length :=
    sum_countEntries 0 batch.queries
  have hmod := Nat.mod_eq_of_lt hlength
  obtain ⟨written, hwritten⟩ := encodeQueries_throws (data ++
    ProtocolByte.encode batch.command.batchType.value ++
      ProtocolShort.encode (batch.entries message.getPreparedQueryId).length) 0 hentry
  refine ⟨written.1, ?_⟩
  simp only [encodeBody, hcommand, hcount, if_neg (not_not.mpr hmod)]
  rw [show batch.command.queries = batch.queries.map BatchQuery.data from rfl, hwritten]

/-- Otherwise the type, the entries and the batch parameters are appended. -/
theorem encodeBody_ok (hcommand : message.batchParameters.batchCommand = batch.command)
    (hlength : (batch.entries message.getPreparedQueryId).length < 2 ^ 16)
    (hentries : ∀ entry ∈ batch.entries message.getPreparedQueryId, entry.values.length < 2 ^ 16)
    (data : Bytes) :
    message.encodeBody data = (message.batchParameters.encode (data ++
      ProtocolByte.encode batch.batchType.value ++
        ProtocolShort.encode (batch.entries message.getPreparedQueryId).length ++
          (batch.entries message.getPreparedQueryId).flatMap BatchEntry.bytes), none) := by
  have hcount : ((batch.command.queries.map countEntries).sum) =
      (batch.entries message.getPreparedQueryId).length :=
    sum_countEntries 0 batch.queries
  have hmod := Nat.mod_eq_of_lt hlength
  have hwritten := encodeQueries_ok (data ++ ProtocolByte.encode batch.batchType.value ++
    ProtocolShort.encode (batch.entries message.getPreparedQueryId).length) 0 hentries
  rw [Nat.zero_add] at hwritten
  simp only [encodeBody, hcommand, hcount, if_neg (not_not.mpr hmod)]
  rw [show batch.command.queries = batch.queries.map BatchQuery.data from rfl,
    show batch.command.batchType = batch.batchType from rfl, hwritten]
  exact if_neg (not_not.mpr rfl)

end BatchMessage

/-! ## The bytes parse -/

variable {x : σ} {rest : Bytes}

/-- The length of the text or the id can be written. -/
def BatchStatement.Fits : BatchStatement → Prop
  | query string => string.length < 2 ^ 31
  | prepared id => id.length < 2 ^ 16

theorem BatchStatement.decode_append {statement : BatchStatement} (h : statement.Fits) :
    BatchStatement.decode (⟨x, statement.bytes ++ rest⟩ : Cursor σ) = .ok statement ⟨x, rest⟩ := by
  cases statement with
  | query string =>
    rw [bytes, List.append_assoc, List.append_assoc, decode,
      Decode.bind_ok (ProtocolByte.decode_append (by decide)), if_pos rfl, ← List.append_assoc,
      Decode.bind_ok (ProtocolLongString.decode_append h)]
    rfl
  | prepared id =>
    rw [bytes, List.append_assoc, List.append_assoc, decode,
      Decode.bind_ok (ProtocolByte.decode_append (by decide)), if_neg (by decide), if_pos rfl,
      ← List.append_assoc, ProtocolShortBytes.decode, Decode.bind_ok (ProtocolString.decode_append h)]
    rfl

theorem Parameter.decode_value {parameter : Parameter} (h : parameter.Fits) :
    ProtocolValue.decode (⟨x, parameter.value.bytes ++ rest⟩ : Cursor σ) =
      .ok parameter.value ⟨x, rest⟩ := by
  obtain ⟨body⟩ := parameter
  cases body with
  | none => exact ProtocolValue.decode_null
  | some body => exact ProtocolValue.decode_normal (h body rfl)

/-- An entry whose parts fit is read back. -/
theorem BatchEntry.decode_append {statement : BatchStatement} {set : List Parameter}
    (hstatement : statement.Fits) (hlength : set.length < 2 ^ 16)
    (hset : ∀ parameter ∈ set, parameter.Fits) :
    BatchEntry.decode (⟨x, BatchEntry.bytes ⟨statement, set.map Parameter.value⟩ ++ rest⟩ :
      Cursor σ) = .ok ⟨statement, set.map Parameter.value⟩ ⟨x, rest⟩ := by
  have hvalues := Decode.collect_append (m := ProtocolValue.decode) (x := x)
    (set.map Parameter.value) (fun value hvalue rest => by
      obtain ⟨parameter, hparameter, rfl⟩ := List.mem_map.mp hvalue
      exact Parameter.decode_value (hset parameter hparameter)) rest
  rw [List.length_map] at hvalues
  rw [bytes, List.append_assoc, List.append_assoc, decode,
    Decode.bind_ok (BatchStatement.decode_append hstatement), List.length_map,
    Decode.bind_ok (ProtocolShort.decode_append hlength), Decode.bind_ok hvalues]
  rfl

theorem ProtocolTimestamp.decode_append (timeStamp : BitVec 64) :
    ProtocolLong.decode (⟨x, ProtocolTimestamp.encode timeStamp ++ rest⟩ : Cursor σ) =
      .ok (ProtocolTimestamp.get timeStamp) ⟨x, rest⟩ := by
  have hlt := timeStamp.toInt_lt
  have hle := timeStamp.le_toInt
  have habs : (get timeStamp).natAbs = timeStamp.toInt.natAbs / 1000 := Int.natAbs_tdiv _ _
  refine ProtocolLong.decode_append ?_ ?_ <;> omega

/-- A component is read exactly if its flag is set. -/
theorem BatchBody.decodeOptional_append {α β : Type} {m : Decoder σ β} {encode : α → Bytes}
    {value : α → β} {flag : Nat} (component : Option α) (hflag : flag ≠ 0 ↔ component.isSome)
    (hdecode : ∀ a rest, m ⟨x, encode a ++ rest⟩ = .ok (value a) ⟨x, rest⟩) (rest : Bytes) :
    decodeOptional flag m ⟨x, component.elim [] encode ++ rest⟩ =
      .ok (component.map value) ⟨x, rest⟩ := by
  cases component with
  | none =>
    rw [decodeOptional, if_neg (by simpa using hflag)]
    rfl
  | some a =>
    rw [decodeOptional, if_pos (by simpa using hflag)]
    exact Decode.bind_ok (hdecode a rest) _

theorem BatchStatement.of_fits {id queryStr : Bytes} (hid : id.length < 2 ^ 16)
    (hquery : queryStr.length < 2 ^ 31) : (BatchStatement.of id queryStr).Fits := by
  rw [of]
  split
  · exact hquery
  · exact hid

namespace Batch

variable {batch : Batch} {preparedQueryId : Nat → Bytes} {level : ConsistencyLevel}

/-- An entry is an execution of one of the queries. -/
theorem exists_of_mem_entriesFrom {i : Nat} {queries : List BatchQuery} {entry : BatchEntry}
    (h : entry ∈ entriesFrom preparedQueryId i queries) :
    ∃ query ∈ queries, ∃ j, ∃ set ∈ query.executions,
      entry = ⟨.of (preparedQueryId j) query.queryStr, set.map Parameter.value⟩ := by
  induction queries generalizing i with
  | nil => simp [entriesFrom] at h
  | cons query queries ih =>
    rcases List.mem_append.mp h with hfirst | hlater
    · obtain ⟨set, hset, rfl⟩ := List.mem_map.mp hfirst
      exact ⟨query, List.mem_cons_self, i, set, hset, rfl⟩
    · obtain ⟨other, hother, hentry⟩ := ih hlater
      exact ⟨other, List.mem_cons_of_mem _ hother, hentry⟩

/-- The query texts, the ids and the parameters can be written with their sizes. -/
structure Fits (batch : Batch) (preparedQueryId : Nat → Bytes) : Prop where
  query : ∀ query ∈ batch.queries, query.queryStr.length < 2 ^ 31
  id : ∀ i, (preparedQueryId i).length < 2 ^ 16
  parameter : ∀ query ∈ batch.queries, ∀ set ∈ query.parameterSets, ∀ parameter ∈ set,
    parameter.Fits

/-- The entries are read back. -/
theorem Fits.decode_entry (h : batch.Fits preparedQueryId)
    (hlength : ∀ entry ∈ batch.entries preparedQueryId, entry.values.length < 2 ^ 16)
    {entry : BatchEntry} (hentry : entry ∈ batch.entries preparedQueryId) (rest : Bytes) :
    BatchEntry.decode (⟨x, entry.bytes ++ rest⟩ : Cursor σ) = .ok entry ⟨x, rest⟩ := by
  have hvalues := hlength entry hentry
  obtain ⟨query, hquery, j, set, hset, rfl⟩ := exists_of_mem_entriesFrom hentry
  rw [List.length_map] at hvalues
  refine BatchEntry.decode_append (BatchStatement.of_fits (h.id j) (h.query query hquery)) hvalues ?_
  intro parameter hparameter
  rw [BatchQuery.executions] at hset
  split at hset
  · -- the execution without parameters
    obtain rfl := List.mem_singleton.mp hset
    cases hparameter
  · exact h.parameter query hquery set hset parameter hparameter

/-- The batch parameters that follow the entries. -/
def parameterBytes (batch : Batch) (level : ConsistencyLevel) : Bytes :=
  ProtocolShort.encode level.value ++
    (ProtocolByte.encode (ProtocolBatchParameters.flagsOf batch.command) ++
      (batch.serialConsistencyLevel.elim [] (fun level => ProtocolShort.encode level.value) ++
        batch.defaultTimestamp.elim [] ProtocolTimestamp.encode))

/-- A batch with a consistency level has batch parameters. -/
theorem setBatchCommand_eq (hlevel : batch.consistencyLevel = some level) :
    ∃ parameters, ProtocolBatchParameters.setBatchCommand batch.command = .ok parameters ∧
      parameters.batchCommand = batch.command ∧
      ∀ data, parameters.encode data = data ++ batch.parameterBytes level := by
  obtain ⟨batchType, consistencyLevel, queries, serialConsistencyLevel, defaultTimestamp⟩ := batch
  obtain rfl : consistencyLevel = some level := hlevel
  refine ⟨_, dif_pos rfl, rfl, fun data => ?_⟩
  cases serialConsistencyLevel <;> cases defaultTimestamp <;>
    simp [ProtocolBatchParameters.encode, parameterBytes, ProtocolBatchParameters.flagsOf, command]

end Batch

theorem ConsistencyLevel.value_lt (level : ConsistencyLevel) : level.value < 2 ^ 16 := by
  cases level <;> decide

theorem BatchType.value_lt (batchType : BatchType) : batchType.value < 2 ^ 8 := by
  cases batchType <;> decide

theorem ProtocolBatchParameters.flagsOf_lt (command : BatchCommand) : flagsOf command < 2 ^ 8 := by
  rw [flagsOf]
  cases command.serialConsistencyLevel.isSome <;> cases command.defaultTimestamp.isSome <;> decide

/-- What is appended for a batch parses to the batch. -/
theorem Batch.Fits.decode_body {batch : Batch} {preparedQueryId : Nat → Bytes}
    (h : batch.Fits preparedQueryId) (level : ConsistencyLevel)
    (hentries : (batch.entries preparedQueryId).length < 2 ^ 16)
    (hlength : ∀ entry ∈ batch.entries preparedQueryId, entry.values.length < 2 ^ 16) :
    BatchBody.decode (⟨x, ProtocolByte.encode batch.batchType.value ++
      (ProtocolShort.encode (batch.entries preparedQueryId).length ++
        ((batch.entries preparedQueryId).flatMap BatchEntry.bytes ++
          batch.parameterBytes level))⟩ : Cursor σ) =
      .ok (batch.body preparedQueryId level) ⟨x, []⟩ := by
  have hcollect := Decode.collect_append (x := x) (batch.entries preparedQueryId)
    (fun entry hentry rest => h.decode_entry hlength hentry rest) (batch.parameterBytes level)
  have hserial := BatchBody.decodeOptional_append (x := x) batch.serialConsistencyLevel
    (ProtocolBatchParameters.flagsOf_serialConsistency batch.command)
    (fun level _ => ProtocolShort.decode_append level.value_lt)
    (batch.defaultTimestamp.elim [] ProtocolTimestamp.encode)
  have htimestamp := BatchBody.decodeOptional_append (x := x) batch.defaultTimestamp
    (ProtocolBatchParameters.flagsOf_defaultTimestamp batch.command)
    (fun timeStamp _ => ProtocolTimestamp.decode_append timeStamp) []
  rw [List.append_nil] at htimestamp
  rw [BatchBody.decode, Decode.bind_ok (ProtocolByte.decode_append batch.batchType.value_lt),
    Decode.bind_ok (ProtocolShort.decode_append hentries), Decode.bind_ok hcollect,
    Batch.parameterBytes, Decode.bind_ok (ProtocolShort.decode_append level.value_lt),
    Decode.bind_ok (ProtocolByte.decode_append (ProtocolBatchParameters.flagsOf_lt _)),
    Decode.bind_ok hserial, Decode.bind_ok htimestamp]
  rfl

/-! ## The requests for the commands that calls build -/

/-- The body of the request for what some calls built throws exactly when the batch has too
many entries, or one of them too many values, and otherwise parses to the batch. -/
def EncodesBatch (calls : List BatchCall) (preparedQueryIds : List Bytes)
    (level : ConsistencyLevel) : Prop :=
  ∃ parameters, ProtocolBatchParameters.setBatchCommand (BatchCommand.build calls) =
      .ok parameters ∧ ∀ data : Bytes,
    let message : BatchMessage := ⟨parameters, preparedQueryIds⟩
    let entries := (Batch.build calls).entries message.getPreparedQueryId
    ((message.encodeBody data).2 ≠ none ↔
      65535 < entries.length ∨ ∃ entry ∈ entries, 65535 < entry.values.length) ∧
    ((message.encodeBody data).2 = none → ∃ bytes, (message.encodeBody data).1 = data ++ bytes ∧
      BatchBody.decode (⟨(), bytes⟩ : Cursor Unit) =
        .ok ((Batch.build calls).body message.getPreparedQueryId level) ⟨(), []⟩)

variable {calls : List BatchCall} {preparedQueryIds : List Bytes} {level : ConsistencyLevel}

theorem length_getPreparedQueryId_lt {message : BatchMessage}
    (hids : ∀ id ∈ message.preparedQueryIds, id.length ≤ 65535) (i : Nat) :
    (message.getPreparedQueryId i).length < 2 ^ 16 := by
  rw [BatchMessage.getPreparedQueryId, List.getD_eq_getElem?_getD]
  cases hid : message.preparedQueryIds[i]? with
  | none => exact Nat.two_pow_pos 16
  | some id => exact Nat.lt_succ_of_le (hids id (List.mem_of_getElem? hid))

/-- The requests for the commands that calls build are encoded right. -/
theorem encodesBatch (hlevel : (Batch.build calls).consistencyLevel = some level)
    (hqueries : ∀ query ∈ (Batch.build calls).queries, query.queryStr.length < 2 ^ 31)
    (hids : ∀ id ∈ preparedQueryIds, id.length ≤ 65535)
    (hparameters : ∀ query ∈ (Batch.build calls).queries, ∀ set ∈ query.parameterSets,
      ∀ parameter ∈ set, parameter.Fits) : EncodesBatch calls preparedQueryIds level := by
  obtain ⟨parameters, hset, hcommand, hencode⟩ := Batch.setBatchCommand_eq hlevel
  refine ⟨parameters, BatchCommand.build_eq calls ▸ hset, fun data => ?_⟩
  intro message entries
  have hfits : (Batch.build calls).Fits message.getPreparedQueryId :=
    ⟨hqueries, fun i => length_getPreparedQueryId_lt hids i, hparameters⟩
  by_cases hlength : entries.length < 2 ^ 16
  · by_cases hvalues : ∀ entry ∈ entries, entry.values.length < 2 ^ 16
    · have hbody := BatchMessage.encodeBody_ok hcommand hlength hvalues data
      rw [hbody]
      constructor
      · refine ⟨fun h => absurd rfl h, ?_⟩
        rintro (h | ⟨entry, hentry, h⟩)
        · exact absurd h (Nat.not_lt.mpr (Nat.le_of_lt_succ hlength))
        · exact absurd h (Nat.not_lt.mpr (Nat.le_of_lt_succ (hvalues entry hentry)))
      · intro _
        have hdecode := hfits.decode_body (x := ()) level hlength hvalues
        refine ⟨_, ?_, hdecode⟩
        rw [hencode]
        simp only [List.append_assoc]
    · push Not at hvalues
      obtain ⟨written, hwritten⟩ :=
        BatchMessage.encodeBody_tooManyParameters hcommand hlength hvalues data
      obtain ⟨entry, hentry, hle⟩ := hvalues
      rw [hwritten]
      exact ⟨⟨fun _ => .inr ⟨entry, hentry, hle⟩, fun _ => Option.some_ne_none _⟩,
        fun h => (by cases h)⟩
  · have hle := Nat.not_lt.mp hlength
    obtain ⟨written, hwritten⟩ :=
      BatchMessage.encodeBody_tooManyQueries hcommand hle data
    rw [hwritten]
    exact ⟨⟨fun _ => .inl hle, fun _ => Option.some_ne_none _⟩, fun h => (by cases h)⟩

/-- Two queries, of which the second one is prepared and has a parameter. -/
theorem encodesBatch_run : EncodesBatch
    [.setType .unLogged, .setConsistency .one, .setSerialConsistency .localSerial,
      .addQuery [97, 98, 99], .addQuery [113], .addParameters [⟨some [49]⟩]]
    [[], [97, 97, 97]] .one :=
  encodesBatch rfl (by decide) (by decide) (by
    intro query hquery set hset parameter hparameter
    simp [Batch.build, Batch.apply, Batch.modifyLastQuery, Math.modifyLast, BatchQuery.bind,
      Batch.new] at hquery
    rcases hquery with rfl | rfl
    · simp at hset
    · obtain rfl := List.mem_singleton.mp hset
      obtain rfl := List.mem_singleton.mp hparameter
      rintro body ⟨⟩
      decide)

example : (ProtocolBatchParameters.setBatchCommand (BatchCommand.build
      [.setType .unLogged, .setConsistency .one, .setSerialConsistency .localSerial,
        .addQuery [97, 98, 99], .addQuery [113], .addParameters [⟨some [49]⟩]])).map
    (fun parameters => BatchMessage.encodeBody ⟨parameters, [[], [97, 97, 97]]⟩ []) =
      .ok ([1, 0, 2, 0, 0, 0, 0, 3, 97, 98, 99, 0, 0, 1, 0, 3, 97, 97, 97, 0, 1, 0, 0, 0, 1, 49,
        0, 1, 0x10, 0, 9], none) := by
  rfl

/-- The size of two gibibytes reads as a negative number. -/
theorem ProtocolValue.decode_huge {value : Bytes} (h : value.length = 2 ^ 31) :
    ProtocolValue.decode (⟨x, (normal value).bytes ++ rest⟩ : Cursor σ) =
      .error (.exception (decodeException "invalid negative string length"))
        ⟨x, value ++ rest⟩ := by
  have hnumber : Math.number lengthNotEnough 4
      (⟨x, bigEndian 4 (2 ^ 31) ++ (value ++ rest)⟩ : Cursor σ) = .ok (2 ^ 31) ⟨x, value ++ rest⟩ :=
    Math.number_append (by decide)
  have hsize : ProtocolInt.decode (⟨x, (normal value).bytes ++ rest⟩ : Cursor σ) =
      .ok (-2 ^ 31) ⟨x, value ++ rest⟩ := by
    rw [bytes, h, List.append_assoc, ProtocolInt.encode_natCast, ProtocolInt.decode,
      Decode.bind_ok hnumber]
    rfl
  rw [decode, Decode.bind_ok hsize, if_neg (by decide), if_neg (by decide), if_neg (by decide)]
  rfl

/-- An entry with such a value does not parse. -/
theorem BatchEntry.decode_huge {value : Bytes} (h : value.length = 2 ^ 31) :
    BatchEntry.decode
        (⟨x, BatchEntry.bytes ⟨.query [], [.normal value]⟩ ++ rest⟩ : Cursor σ) =
      .error (.exception (decodeException "invalid negative string length"))
        ⟨x, value ++ rest⟩ := by
  have hstatement : (BatchStatement.query []).Fits := Nat.two_pow_pos 31
  have hone : (1 : Nat) < 2 ^ 16 := by decide
  have hbytes : BatchEntry.bytes ⟨.query [], [.normal value]⟩ =
      (BatchStatement.query []).bytes ++ ProtocolShort.encode 1 ++
        (ProtocolValue.normal value).bytes := by
    rw [bytes, List.flatMap_singleton]
    rfl
  have hvalues : Decode.collect ProtocolValue.decode 1
      (⟨x, (ProtocolValue.normal value).bytes ++ rest⟩ : Cursor σ) = .error _ _ :=
    Decode.collect_error (ProtocolValue.decode_huge h) 0
  rw [hbytes, List.append_assoc, List.append_assoc, decode,
    Decode.bind_ok (BatchStatement.decode_append hstatement),
    Decode.bind_ok (ProtocolShort.decode_append hone)]
  exact Decode.bind_error hvalues _

/-- A value of two gibibytes does not parse. -/
theorem not_encodesBatch_hugeValue : ¬ ∀ (calls : List BatchCall) (preparedQueryIds : List Bytes)
    (level : ConsistencyLevel), (Batch.build calls).consistencyLevel = some level →
    (∀ query ∈ (Batch.build calls).queries, query.queryStr.length < 2 ^ 31) →
    (∀ id ∈ preparedQueryIds, id.length ≤ 65535) → EncodesBatch calls preparedQueryIds level := by
  intro hall
  obtain ⟨value, hvalue⟩ : ∃ value : Bytes, value.length = 2 ^ 31 :=
    ⟨List.replicate (2 ^ 31) 0, List.length_replicate⟩
  let calls : List BatchCall := [.setConsistency .one, .addQuery [], .addParameter ⟨some value⟩]
  let batch := Batch.build calls
  have hqueries : batch.queries = [⟨[], none, [[⟨some value⟩]]⟩] := rfl
  obtain ⟨parameters, hset, hencodes⟩ := hall calls [] .one rfl
    (fun query hquery => by
      obtain rfl := List.mem_singleton.mp (hqueries ▸ hquery)
      exact Nat.two_pow_pos 31)
    (fun id hid => by cases hid)
  obtain ⟨parameters', hset', hcommand, hencode⟩ := Batch.setBatchCommand_eq
    (show batch.consistencyLevel = some .one from rfl)
  rw [BatchCommand.build_eq, hset'] at hset
  cases hset
  let message : BatchMessage := ⟨parameters, []⟩
  have hentries : batch.entries message.getPreparedQueryId =
      [⟨.query [], [.normal value]⟩] := rfl
  have hone : (1 : Nat) < 2 ^ 16 := by decide
  -- nothing is thrown
  have hbody := @BatchMessage.encodeBody_ok message batch hcommand
    (by rw [hentries]; exact hone)
    (fun entry hentry => by
      obtain rfl := List.mem_singleton.mp (hentries ▸ hentry)
      exact hone) []
  obtain ⟨bytes, hbytes, hdecode⟩ := (hencodes []).2 (congrArg Prod.snd hbody)
  -- but the entry does not parse
  have heq : bytes = ProtocolByte.encode batch.batchType.value ++ (ProtocolShort.encode 1 ++
      (BatchEntry.bytes ⟨.query [], [.normal value]⟩ ++ batch.parameterBytes .one)) := by
    have happended := hbytes.symm.trans (congrArg Prod.fst hbody)
    rw [hencode, hentries, List.flatMap_singleton] at happended
    simpa only [List.nil_append, List.append_assoc, List.length_singleton] using happended
  have herror : Decode.collect BatchEntry.decode 1
      (⟨(), BatchEntry.bytes ⟨.query [], [.normal value]⟩ ++ batch.parameterBytes .one⟩ :
        Cursor Unit) = .error _ _ :=
    Decode.collect_error (BatchEntry.decode_huge hvalue) 0
  rw [heq, BatchBody.decode, Decode.bind_ok (ProtocolByte.decode_append batch.batchType.value_lt),
    Decode.bind_ok (ProtocolShort.decode_append hone), Decode.bind_error herror] at hdecode
  cases hdecode

end CqlDriver
