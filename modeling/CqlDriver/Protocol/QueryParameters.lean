import CqlDriver.Protocol.BatchMessage
import CqlDriver.Protocol.PrimitiveReading

/-!
# Query parameters

A command is built by calls, and a parameter is encoded when it is added. The flags of query
parameters say which components the command has; they are computed when the command is set, and the
flag that skips the metadata is kept. Encoding writes the components that are flagged, and decoding
reads them into a new command.

The number of parameters is checked to fit into its two bytes. The page size and the size of the
paging state are written into four bytes as they are, and so was the size of each parameter.

## Main definitions

* `Command`, `CommandCall` — the command and its builder
* `ProtocolQueryParameters.encode`, `ProtocolQueryParameters.decode`
* `ProtocolQueryParameters.RestoresSet` — encoding throws, or decoding restores the components
* `Command.IsValues`, `Command.Fits` — which commands allow this

## Main results

* `Command.isValues_build` — parameters that are not too long are values
* `ProtocolQueryParameters.encode_eq` — what is written
* `ProtocolQueryParameters.restoresSet_iff_fits`
-/

namespace CqlDriver

open Math (Decode Cursor toSigned ofSigned ofBigEndian)
open Math.Decode (Keeps)

/-! ## The command -/

/-- Members of a command. The consistency levels are the values of the enumeration, and the
timestamp is the 64-bit count of nanoseconds since the epoch. -/
structure Command where
  queryStr : Bytes
  needPrepare : Option Bool
  consistencyLevel : Option Nat
  pageSize : Option (BitVec 64)
  pagingState : Bytes
  parameterCount : Nat
  parameters : Bytes
  serialConsistencyLevel : Option Nat
  defaultTimestamp : Option (BitVec 64)
  maxRetries : Nat
  deriving DecidableEq, Repr

/-- The calls of the builder. -/
inductive CommandCall
  | prepareQuery (value : Bool)
  | setConsistency (consistencyLevel : ConsistencyLevel)
  | setPageSize (pageSize : BitVec 64)
  | setPagingState (pagingState : Bytes)
  | addParameter (parameter : Parameter)
  | addParameters (parameters : List Parameter)
  | setSerialConsistency (consistencyLevel : ConsistencyLevel)
  | setDefaultTimestamp (timeStamp : BitVec 64)
  | setMaxRetries (maxRetries : Nat)
  deriving DecidableEq, Repr

namespace Command

/-- A command with a query only. -/
def new (query : Bytes) : Command := ⟨query, none, none, none, [], 0, [], none, none, 0⟩

def addParameter (parameter : Parameter) (command : Command) : Command :=
  { command with
    parameters := parameter.encode command.parameters
    parameterCount := command.parameterCount + 1 }

def addParameters (parameters : List Parameter) (command : Command) : Command :=
  { command with
    parameters := parameters.foldl (fun data parameter => parameter.encode data) command.parameters
    parameterCount := command.parameterCount + parameters.length }

end Command

/-- What a call does to a command. -/
def CommandCall.apply : CommandCall → Command → Command
  | prepareQuery value, command => { command with needPrepare := some value }
  | setConsistency level, command => { command with consistencyLevel := some level.value }
  | setPageSize pageSize, command => { command with pageSize := some pageSize }
  | setPagingState pagingState, command => { command with pagingState }
  | addParameter parameter, command => command.addParameter parameter
  | addParameters parameters, command => command.addParameters parameters
  | setSerialConsistency level, command =>
    { command with serialConsistencyLevel := some level.value }
  | setDefaultTimestamp timeStamp, command => { command with defaultTimestamp := some timeStamp }
  | setMaxRetries maxRetries, command => { command with maxRetries }

/-- The parameters that a call adds. -/
def CommandCall.parameters : CommandCall → List Parameter
  | addParameter parameter => [parameter]
  | addParameters parameters => parameters
  | _ => []

/-- The command that calls build. -/
def Command.build (query : Bytes) (calls : List CommandCall) : Command :=
  calls.foldl (fun command call => call.apply command) (new query)

/-! ## Query parameters -/

/-- The time point of some microseconds since the epoch. -/
def ProtocolTimestamp.timePoint (microseconds : Int) : BitVec 64 :=
  BitVec.ofInt 64 (microseconds * 1000)

/-- `enumTrue(flags & flag)`. -/
def enumTrue (flags flag : Nat) : Bool := flags &&& flag != 0

/-- The flags, and the command that is referred to; `none` is a command that was moved. -/
structure ProtocolQueryParameters where
  flags : Nat
  command : Option Command
  deriving DecidableEq, Repr

namespace ProtocolQueryParameters

/-- `*optional`. -/
def deref {α : Type} : Option α → Except Failure α
  | some a => .ok a
  | none => .error .undefined

def invalidCommand : Failure := .exception (logicException "invalid(moved) command")

def tooManyParameters : Failure := .exception (logicException "too many parameters")

def namedParameters : Failure :=
  .exception ⟨.notImplemented, "decode named parameters is unsupported"⟩

/-- Set whether to not receive metadata in result. -/
def setSkipMetadata (value : Bool) (parameters : ProtocolQueryParameters) :
    ProtocolQueryParameters :=
  if value then { parameters with flags := parameters.flags ||| 2 }
  else { parameters with flags := parameters.flags &&& 253 }

/-- The components that a command has. -/
def flagsOf (flags : Nat) (command : Command) : Nat :=
  let flags := flags &&& 2
  let flags := if 0 < command.parameterCount then flags ||| 1 else flags
  let flags :=
    if command.pageSize.isSome then
      if command.pagingState ≠ [] then flags ||| 4 ||| 8 else flags ||| 4
    else flags
  let flags := if command.serialConsistencyLevel.isSome then flags ||| 16 else flags
  if command.defaultTimestamp.isSome then flags ||| 32 else flags

/-- Set the command contains query and parameters. -/
def setCommand (command : Option Command) (parameters : ProtocolQueryParameters) :
    Except Exception ProtocolQueryParameters :=
  match command with
  | none => .error (logicException "can't set a invalid command to query parameters")
  | some command =>
    if command.consistencyLevel.isNone then
      .error (logicException "can't set a command with empty consistency")
    else
      .ok ⟨flagsOf parameters.flags command, some command⟩

/-- A component that is written if it is flagged. -/
def encodeFlagged (flags flag : Nat) (encoded : Encoded) : Encoded :=
  if enumTrue flags flag then encoded else .ok []

/-- `<n><value_1>...<value_n>`. -/
def encodeValues (command : Command) : Encoded :=
  if command.parameterCount % 2 ^ 16 ≠ command.parameterCount then
    .error tooManyParameters
  else
    .ok (ProtocolShort.encode command.parameterCount ++ command.parameters)

/-- Encode to binary data. -/
def encode (parameters : ProtocolQueryParameters) : Encoded := do
  let command ← match parameters.command with
    | none => .error invalidCommand
    | some command => .ok command
  let flags := parameters.flags
  let consistency ← deref command.consistencyLevel
  let values ← encodeFlagged flags 1 (encodeValues command)
  let pageSize ← encodeFlagged flags 4 do
    let pageSize ← deref command.pageSize
    return ProtocolInt.encode pageSize.toNat
  let pagingState ← encodeFlagged flags 8 do
    return ProtocolInt.encode command.pagingState.length ++ command.pagingState
  let serialConsistency ← encodeFlagged flags 16 do
    let consistency ← deref command.serialConsistencyLevel
    return ProtocolShort.encode consistency
  let timeStamp ← encodeFlagged flags 32 do
    let timeStamp ← deref command.defaultTimestamp
    return ProtocolTimestamp.encode timeStamp
  return ProtocolShort.encode consistency ++ (ProtocolByte.encode flags ++
    (values ++ (pageSize ++ (pagingState ++ (serialConsistency ++ timeStamp)))))

/-- Write a member of the command that is referred to. -/
def modifyCommand (f : Command → Command) : Decoder ProtocolQueryParameters Unit :=
  Decode.update fun parameters => { parameters with command := parameters.command.map f }

/-- Append a value with its size to the encoded parameters. -/
def decodeValue : Decoder Bytes Unit := do
  let parameterSize ← ProtocolInt.decode
  Decode.update fun encodedParameters => encodedParameters ++ ProtocolInt.encode parameterSize
  if parameterSize ≤ 0 then
    pure ()
  else do
    let value ← Math.take lengthNotEnough parameterSize.toNat
    Decode.update fun encodedParameters => encodedParameters ++ value

/-- Decode the parameters in place. -/
def decodeValues : Decoder ProtocolQueryParameters Unit := do
  let parameterCount ← ProtocolShort.decode
  modifyCommand fun command => { command with parameterCount }
  Decode.on (fun parameters => (parameters.command.map Command.parameters).getD [])
    (fun encoded parameters => { parameters with
      command := parameters.command.map fun command => { command with parameters := encoded } })
    (Decode.times decodeValue parameterCount)

/-- A component that is read if it is flagged, and stored. -/
def decodeFlagged {α : Type} (flags flag : Nat) (m : Decoder ProtocolQueryParameters α)
    (store : α → Command → Command) : Decoder ProtocolQueryParameters Unit :=
  if enumTrue flags flag then do
    let a ← m
    modifyCommand (store a)
  else
    pure ()

def decodePageSize (flags : Nat) : Decoder ProtocolQueryParameters Unit :=
  decodeFlagged flags 4 ProtocolInt.decode fun pageSize command =>
    { command with pageSize := some (BitVec.ofInt 64 pageSize) }

def decodePagingState (flags : Nat) : Decoder ProtocolQueryParameters Unit :=
  decodeFlagged flags 8 ProtocolBytes.decode fun pagingState command =>
    { command with pagingState := pagingState.getD [] }

def decodeSerialConsistency (flags : Nat) : Decoder ProtocolQueryParameters Unit :=
  decodeFlagged flags 16 ProtocolShort.decode fun consistency command =>
    { command with serialConsistencyLevel := some consistency }

def decodeDefaultTimestamp (flags : Nat) : Decoder ProtocolQueryParameters Unit :=
  decodeFlagged flags 32 ProtocolLong.decode fun timeStamp command =>
    { command with defaultTimestamp := some (ProtocolTimestamp.timePoint timeStamp) }

/-- The components behind the page size. -/
def decodeStates (flags : Nat) : Decoder ProtocolQueryParameters Unit := do
  decodePagingState flags
  decodeSerialConsistency flags
  decodeDefaultTimestamp flags

/-- The components behind the values. -/
def decodeOptions (flags : Nat) : Decoder ProtocolQueryParameters Unit := do
  decodePageSize flags
  decodeStates flags

/-- Decode from binary data. -/
def decode : Decoder ProtocolQueryParameters Unit := do
  Decode.update fun parameters => { parameters with command := some (.new []) }
  let consistency ← ProtocolShort.decode
  modifyCommand fun command => { command with consistencyLevel := some consistency }
  let flags ← ProtocolByte.decode
  Decode.update fun parameters => { parameters with flags }
  if enumTrue flags 1 then
    if enumTrue flags 64 then
      throw namedParameters
    else do
      decodeValues
      decodeOptions flags
  else
    decodeOptions flags

end ProtocolQueryParameters

/-! ## What is restored -/

namespace ProtocolTimestamp

/-- The time point without what is less than a microsecond. -/
def truncated (timeStamp : BitVec 64) : BitVec 64 :=
  timeStamp - BitVec.ofInt 64 (timeStamp.toInt.tmod 1000)

theorem timePoint_get (timeStamp : BitVec 64) : timePoint (get timeStamp) = truncated timeStamp := by
  have hsplit : BitVec.ofInt 64 (get timeStamp * 1000) +
      BitVec.ofInt 64 (timeStamp.toInt.tmod 1000) = timeStamp := by
    rw [← BitVec.ofInt_add, Int.add_comm, get, Int.tmod_add_tdiv_mul, BitVec.ofInt_toInt]
  calc timePoint (get timeStamp)
    _ = BitVec.ofInt 64 (get timeStamp * 1000) + BitVec.ofInt 64 (timeStamp.toInt.tmod 1000) -
        BitVec.ofInt 64 (timeStamp.toInt.tmod 1000) := (BitVec.add_sub_cancel _ _).symm
    _ = truncated timeStamp := by rw [hsplit, truncated]

end ProtocolTimestamp

/-- A size of four bytes, and as many bytes as it says. A size that is not positive is followed by
none. -/
def IsValue (bytes : Bytes) : Prop := ∃ size body : Bytes, size.length = 4 ∧ bytes = size ++ body ∧
  body.length = (toSigned 32 (ofBigEndian size)).toNat

namespace Command

/-- The bytes of the parameters are as many values as were counted. -/
def IsValues (command : Command) : Prop := ∃ values : List Bytes,
  values.length = command.parameterCount ∧ command.parameters = values.flatten ∧
    ∀ value ∈ values, IsValue value

/-- Encoding throws, or all sizes can be read back. -/
def Fits (command : Command) : Prop :=
  2 ^ 16 ≤ command.parameterCount ∨
    ((∀ pageSize ∈ command.pageSize, pageSize.toNat < 2 ^ 31 ∨ 2 ^ 64 - 2 ^ 31 ≤ pageSize.toNat) ∧
      (command.pageSize.isSome → command.pagingState.length < 2 ^ 31) ∧ command.IsValues)

/-- What every command is that calls have built. -/
structure Tidy (command : Command) : Prop where
  parameters_eq : command.parameterCount = 0 → command.parameters = []
  consistency_lt : ∀ level ∈ command.consistencyLevel, level < 2 ^ 16
  serialConsistency_lt : ∀ level ∈ command.serialConsistencyLevel, level < 2 ^ 16

/-- The command is there with the components of another one. -/
structure Restores (command restored : Command) : Prop where
  consistencyLevel : restored.consistencyLevel = command.consistencyLevel
  parameterCount : restored.parameterCount = command.parameterCount
  parameters : restored.parameters = command.parameters
  pageSize : restored.pageSize = command.pageSize
  pagingState : command.pageSize.isSome → restored.pagingState = command.pagingState
  serialConsistencyLevel : restored.serialConsistencyLevel = command.serialConsistencyLevel
  defaultTimestamp :
    restored.defaultTimestamp = command.defaultTimestamp.map ProtocolTimestamp.truncated

end Command

/-- Encoding throws, or decoding the bytes before any others restores the flags and the command,
whatever the object was used for, and leaves the other bytes. -/
def ProtocolQueryParameters.RoundTrips (parameters : ProtocolQueryParameters) (command : Command) :
    Prop :=
  match parameters.encode with
  | .ok bytes => ∀ used suffix, ∃ flags restored,
      decode ⟨used, bytes ++ suffix⟩ = .ok () ⟨⟨flags, some restored⟩, suffix⟩ ∧
        flags = parameters.flags ∧ command.Restores restored
  | .error (.exception _) => True
  | .error _ => False

/-! ## Values -/

section Values

variable {rest encoded : Bytes}

namespace ProtocolQueryParameters

/-- A value is appended as it is. -/
theorem decodeValue_append {value : Bytes} (h : IsValue value) :
    decodeValue ⟨encoded, value ++ rest⟩ = .ok () ⟨encoded ++ value, rest⟩ := by
  obtain ⟨size, body, hsize, rfl, hbody⟩ := h
  rw [decodeValue, List.append_assoc, Decode.bind_ok (ProtocolInt.decode_size hsize),
    Decode.bind_ok (Decode.update_apply _)]
  dsimp only
  rw [ProtocolInt.encode_size hsize]
  split
  next hle =>
    obtain rfl : body = [] := List.length_eq_zero_iff.mp (by omega)
    rw [List.append_nil]
    rfl
  · rw [Decode.bind_ok (Math.take_append hbody), Decode.update_apply, List.append_assoc]

theorem exists_of_decodeValue_ok {c c' : Cursor Bytes} (h : decodeValue c = .ok () c') :
    ∃ value, IsValue value ∧ c.rest = value ++ c'.rest ∧ c'.object = c.object ++ value := by
  obtain ⟨parameterSize, d, hdecode, hnext⟩ := Decode.exists_of_bind_ok h
  obtain ⟨size, hsize, hrest, rfl, hobject⟩ := ProtocolInt.exists_of_decode hdecode
  obtain ⟨_, e, hupdate, hbody⟩ := Decode.exists_of_bind_ok hnext
  cases hupdate
  rw [ProtocolInt.encode_size hsize, hobject] at hbody
  split at hbody
  next hle =>
    cases hbody
    refine ⟨size, ⟨size, [], hsize, (List.append_nil size).symm, ?_⟩, hrest, rfl⟩
    rw [List.length_nil]
    omega
  · obtain ⟨body, f, htake, happend⟩ := Decode.exists_of_bind_ok hbody
    cases happend
    obtain ⟨hlength, rfl, rfl⟩ := Decode.take_ok htake
    refine ⟨size ++ d.rest.take _, ⟨size, _, hsize, rfl, List.length_take_of_le hlength⟩, ?_, ?_⟩
    · rw [hrest, List.append_assoc, List.take_append_drop]
    · exact List.append_assoc _ _ _

/-- The values that are left are appended to those that are done. -/
theorem times_decodeValue_append {values : List Bytes} (h : ∀ value ∈ values, IsValue value) :
    Decode.times decodeValue values.length ⟨encoded, values.flatten ++ rest⟩ =
      .ok () ⟨encoded ++ values.flatten, rest⟩ := by
  induction values generalizing encoded with
  | nil => simp [Decode.times]
  | cons value values ih =>
    have hfirst := @decodeValue_append (values.flatten ++ rest) encoded value
      (h value List.mem_cons_self)
    have hothers := @ih (encoded ++ value) fun other hother => h other (List.mem_cons_of_mem _ hother)
    rw [List.length_cons, Decode.times, List.flatten_cons, List.append_assoc,
      Decode.bind_ok hfirst, hothers, List.append_assoc]

theorem exists_of_times_decodeValue_ok {n : Nat} {c c' : Cursor Bytes}
    (h : Decode.times decodeValue n c = .ok () c') :
    ∃ values : List Bytes, values.length = n ∧ (∀ value ∈ values, IsValue value) ∧
      c.rest = values.flatten ++ c'.rest ∧ c'.object = c.object ++ values.flatten := by
  induction n generalizing c with
  | zero =>
    cases h
    exact ⟨[], rfl, fun _ h => absurd h List.not_mem_nil, rfl, (List.append_nil _).symm⟩
  | succ n ih =>
    obtain ⟨_, d, hfirst, hothers⟩ := Decode.exists_of_bind_ok h
    obtain ⟨value, hvalue, hrest, hobject⟩ := exists_of_decodeValue_ok hfirst
    obtain ⟨values, hlength, hvalues, hrest', hobject'⟩ := ih hothers
    refine ⟨value :: values, congrArg (· + 1) hlength, List.forall_mem_cons.mpr ⟨hvalue, hvalues⟩,
      ?_, ?_⟩
    · rw [hrest, hrest', List.flatten_cons, List.append_assoc]
    · rw [hobject', hobject, List.flatten_cons, List.append_assoc]

end ProtocolQueryParameters

end Values

/-! ## Commands that were built -/

namespace Command

theorem Tidy.apply {command : Command} (h : command.Tidy) (call : CommandCall) :
    (call.apply command).Tidy := by
  obtain ⟨hparameters, hconsistency, hserial⟩ := h
  cases call with
  | setConsistency level =>
    refine ⟨hparameters, fun value hvalue => ?_, hserial⟩
    obtain rfl := Option.some.inj hvalue
    exact level.value_lt
  | setSerialConsistency level =>
    refine ⟨hparameters, hconsistency, fun value hvalue => ?_⟩
    obtain rfl := Option.some.inj hvalue
    exact level.value_lt
  | addParameter parameter => exact ⟨fun h => (by cases h), hconsistency, hserial⟩
  | addParameters parameters =>
    refine ⟨fun hzero => ?_, hconsistency, hserial⟩
    obtain ⟨hcount, hlength⟩ := Nat.add_eq_zero_iff.mp hzero
    obtain rfl := List.length_eq_zero_iff.mp hlength
    exact hparameters hcount
  | prepareQuery | setPageSize | setPagingState | setDefaultTimestamp | setMaxRetries =>
    exact ⟨hparameters, hconsistency, hserial⟩

theorem Tidy.foldl {command : Command} (h : command.Tidy) (calls : List CommandCall) :
    (calls.foldl (fun command call => call.apply command) command).Tidy := by
  induction calls generalizing command with
  | nil => exact h
  | cons call calls ih => exact ih (h.apply call)

theorem tidy_build (query : Bytes) (calls : List CommandCall) : (build query calls).Tidy := by
  have hnew : (new query).Tidy := ⟨fun _ => rfl, fun _ h => (by cases h), fun _ h => (by cases h)⟩
  exact hnew.foldl calls

/-- Parameters that can be written with their sizes are values. -/
theorem isValue_bytes {parameter : Parameter} (h : parameter.Fits) : IsValue parameter.bytes := by
  obtain ⟨body⟩ := parameter
  cases body with
  | none => exact ⟨_, [], Math.length_bigEndian 4 _, (List.append_nil _).symm, by decide⟩
  | some body =>
    have hlt : body.length < 2 ^ 31 := h body rfl
    refine ⟨_, body, Math.length_bigEndian 4 _, Parameter.bytes_some body, ?_⟩
    rw [Math.ofBigEndian_bigEndian (hlt.trans (by decide)), toSigned, if_pos hlt,
      Int.toNat_natCast]

theorem IsValues.append {command command' : Command} (h : command.IsValues)
    {parameters : List Parameter} (hfits : ∀ parameter ∈ parameters, parameter.Fits)
    (hcount : command'.parameterCount = command.parameterCount + parameters.length)
    (hbytes : command'.parameters = command.parameters ++ parameters.flatMap Parameter.bytes) :
    command'.IsValues := by
  obtain ⟨values, hlength, hparameters, hvalues⟩ := h
  refine ⟨values ++ parameters.map Parameter.bytes, ?_, ?_, ?_⟩
  · rw [List.length_append, List.length_map, hlength, hcount]
  · rw [hbytes, hparameters, List.flatten_append, List.flatMap_def]
  · intro value hvalue
    rcases List.mem_append.mp hvalue with hold | hnew
    · exact hvalues value hold
    · obtain ⟨parameter, hparameter, rfl⟩ := List.mem_map.mp hnew
      exact isValue_bytes (hfits parameter hparameter)

theorem IsValues.apply {command : Command} (h : command.IsValues) {call : CommandCall}
    (hfits : ∀ parameter ∈ call.parameters, parameter.Fits) : (call.apply command).IsValues := by
  cases call with
  | addParameter parameter =>
    refine h.append hfits rfl ((Parameter.encode_eq _ _).trans ?_)
    rw [CommandCall.parameters, List.flatMap_singleton]
  | addParameters parameters => exact h.append hfits rfl (Parameter.foldl_encode parameters _)
  | _ => exact h

/-- Sizes that can be written for every parameter make the parameters values. -/
theorem isValues_build (query : Bytes) {calls : List CommandCall}
    (hfits : ∀ call ∈ calls, ∀ parameter ∈ call.parameters, parameter.Fits) :
    (build query calls).IsValues := by
  have hfold : ∀ command : Command, command.IsValues →
      (calls.foldl (fun command call => call.apply command) command).IsValues := by
    induction calls with
    | nil => exact fun _ h => h
    | cons call calls ih =>
      intro command h
      exact ih (fun other hother => hfits other (List.mem_cons_of_mem _ hother)) _
        (h.apply (hfits call List.mem_cons_self))
  exact hfold _ ⟨[], rfl, rfl, fun _ h => absurd h List.not_mem_nil⟩

end Command

/-! ## Flags -/

namespace ProtocolQueryParameters

/-- The flags say which components a command has. -/
structure Match (flags : Nat) (command : Command) : Prop where
  lt : flags < 2 ^ 8
  values : enumTrue flags 1 = decide (0 < command.parameterCount)
  named : enumTrue flags 64 = false
  pageSize : enumTrue flags 4 = command.pageSize.isSome
  pagingState : enumTrue flags 8 = (command.pageSize.isSome && decide (command.pagingState ≠ []))
  serialConsistency : enumTrue flags 16 = command.serialConsistencyLevel.isSome
  defaultTimestamp : enumTrue flags 32 = command.defaultTimestamp.isSome

theorem enumTrue_or (flags value flag : Nat) :
    enumTrue (flags ||| value) flag = (enumTrue flags flag || enumTrue value flag) := by
  simp [enumTrue, Nat.and_or_distrib_right, bne, Bool.beq_eq_decide_eq, Nat.or_eq_zero_iff]

theorem enumTrue_and (flags value flag : Nat) :
    enumTrue (flags &&& value) flag = enumTrue flags (value &&& flag) := by
  rw [enumTrue, Nat.and_assoc, ← enumTrue]

section Flagged

variable {b : Prop} [Decidable b] {flags value flag : Nat}

theorem enumTrue_ite_or : enumTrue (if b then flags ||| value else flags) flag =
    (enumTrue flags flag || (decide b && enumTrue value flag)) := by
  by_cases h : b
  · simp [h, enumTrue_or]
  · simp [h]

theorem ite_or_lt (hflags : flags < 2 ^ 8) (hvalue : value < 2 ^ 8) :
    (if b then flags ||| value else flags) < 2 ^ 8 := by
  split
  · exact Nat.or_lt_two_pow hflags hvalue
  · exact hflags

end Flagged

theorem match_flagsOf (flags : Nat) (command : Command) : Match (flagsOf flags command) command := by
  have hkept : ∀ flag, 2 &&& flag = 0 → enumTrue (flags &&& 2) flag = false := by
    intro flag hflag
    rw [enumTrue_and, hflag, enumTrue, Nat.and_zero]
    rfl
  have hlt : flags &&& 2 < 2 ^ 8 := (Nat.and_le_right).trans_lt (by decide)
  -- the flags of the paging components are set one after the other
  have hpaging (flags : Nat) : (if command.pageSize.isSome then
      if command.pagingState ≠ [] then flags ||| 4 ||| 8 else flags ||| 4 else flags) =
        if command.pageSize.isSome ∧ command.pagingState ≠ [] then
          (if command.pageSize.isSome then flags ||| 4 else flags) ||| 8
        else if command.pageSize.isSome then flags ||| 4 else flags := by
    by_cases hsome : command.pageSize.isSome
    · simp [hsome]
    · simp [hsome]
  rw [flagsOf]
  simp only [hpaging]
  refine ⟨?_, ?_, ?_, ?_, ?_, ?_, ?_⟩
  · exact ite_or_lt (ite_or_lt (ite_or_lt (ite_or_lt (ite_or_lt hlt (by decide)) (by decide))
      (by decide)) (by decide)) (by decide)
  all_goals simp [enumTrue_ite_or, hkept]
  all_goals simp [enumTrue]

/-- Skipping the metadata is a flag of its own. -/
theorem Match.setSkipMetadata {parameters : ProtocolQueryParameters} {command : Command}
    (h : Match parameters.flags command) (value : Bool) :
    Match (parameters.setSkipMetadata value).flags command := by
  have hor : ∀ flag, enumTrue 2 flag = false →
      enumTrue (parameters.flags ||| 2) flag = enumTrue parameters.flags flag := by
    intro flag hflag
    rw [enumTrue_or, hflag, Bool.or_false]
  have hand : ∀ flag, 253 &&& flag = flag →
      enumTrue (parameters.flags &&& 253) flag = enumTrue parameters.flags flag := by
    intro flag hflag
    rw [enumTrue_and, hflag]
  rw [ProtocolQueryParameters.setSkipMetadata]
  split
  · exact ⟨Nat.or_lt_two_pow h.lt (by decide), (hor 1 rfl).trans h.values,
      (hor 64 rfl).trans h.named, (hor 4 rfl).trans h.pageSize, (hor 8 rfl).trans h.pagingState,
      (hor 16 rfl).trans h.serialConsistency, (hor 32 rfl).trans h.defaultTimestamp⟩
  · exact ⟨Nat.and_le_right.trans_lt (by decide), (hand 1 rfl).trans h.values,
      (hand 64 rfl).trans h.named, (hand 4 rfl).trans h.pageSize, (hand 8 rfl).trans h.pagingState,
      (hand 16 rfl).trans h.serialConsistency, (hand 32 rfl).trans h.defaultTimestamp⟩

end ProtocolQueryParameters

/-! ## The bytes of a command -/

namespace Command

/-- The paging state that is written. -/
def pagingState? (command : Command) : Option Bytes :=
  if command.pageSize.isSome && decide (command.pagingState ≠ []) then some command.pagingState
  else none

/-- The number of the parameters and the parameters, if there are any. -/
def valueBytes (command : Command) : Bytes :=
  if 0 < command.parameterCount then
    ProtocolShort.encode command.parameterCount ++ command.parameters
  else []

def pagingStateBytes (pagingState : Bytes) : Bytes :=
  ProtocolInt.encode pagingState.length ++ pagingState

/-- The components behind the values. -/
def optionBytes (command : Command) : Bytes :=
  command.pageSize.elim [] (fun pageSize => ProtocolInt.encode pageSize.toNat) ++
    (command.pagingState?.elim [] pagingStateBytes ++
      (command.serialConsistencyLevel.elim [] ProtocolShort.encode ++
        command.defaultTimestamp.elim [] ProtocolTimestamp.encode))

/-- The page size as it is read back. -/
def narrowed (pageSize : BitVec 64) : BitVec 64 :=
  BitVec.ofInt 64 (toSigned 32 (ofSigned 32 pageSize.toNat))

/-- The command with the components behind the values read into it. -/
def withOptions (command stored : Command) : Command :=
  { stored with
    pageSize := (command.pageSize.map narrowed).or stored.pageSize
    pagingState := command.pagingState?.getD stored.pagingState
    serialConsistencyLevel := command.serialConsistencyLevel.or stored.serialConsistencyLevel
    defaultTimestamp :=
      (command.defaultTimestamp.map ProtocolTimestamp.truncated).or stored.defaultTimestamp }

/-- The upper half of the 64-bit sizes that survive is negative as an integer. -/
theorem narrowed_eq_iff {pageSize : BitVec 64} : narrowed pageSize = pageSize ↔
    pageSize.toNat < 2 ^ 31 ∨ 2 ^ 64 - 2 ^ 31 ≤ pageSize.toNat := by
  have hlt := pageSize.isLt
  rw [narrowed, ← BitVec.toNat_inj, BitVec.toNat_ofInt, toSigned, ofSigned]
  split
  · omega
  · omega

theorem isSome_pagingState? (command : Command) : command.pagingState?.isSome =
    (command.pageSize.isSome && decide (command.pagingState ≠ [])) := by
  rw [pagingState?]
  split
  next h => exact h.symm
  next h => exact (Bool.eq_false_of_not_eq_true h).symm

end Command

namespace ProtocolQueryParameters

section Encoding

variable {parameters : ProtocolQueryParameters} {command : Command} {level : Nat}

theorem encodeFlagged_elim {α : Type} {component : Option α} {f : α → Bytes} {flags flag : Nat}
    (h : enumTrue flags flag = component.isSome) :
    encodeFlagged flags flag (do return f (← deref component)) = .ok (component.elim [] f) := by
  rw [encodeFlagged, h]
  cases component with
  | none => rfl
  | some a => rfl

theorem encodeFlagged_pagingState {flags : Nat} (h : Match flags command) :
    encodeFlagged flags 8
      (do return ProtocolInt.encode command.pagingState.length ++ command.pagingState) =
        .ok (command.pagingState?.elim [] Command.pagingStateBytes) := by
  rw [encodeFlagged, h.pagingState, Command.pagingState?]
  split
  · rfl
  · rfl

/-- Too many parameters, or the components in their order. -/
theorem encode_eq (hmatch : Match parameters.flags command)
    (hcommand : parameters.command = some command) (hlevel : command.consistencyLevel = some level) :
    parameters.encode =
      if 2 ^ 16 ≤ command.parameterCount then .error tooManyParameters
      else .ok (ProtocolShort.encode level ++ (ProtocolByte.encode parameters.flags ++
        (command.valueBytes ++ command.optionBytes))) := by
  have hvalues : encodeFlagged parameters.flags 1 (encodeValues command) =
      if 2 ^ 16 ≤ command.parameterCount then .error tooManyParameters
      else .ok command.valueBytes := by
    rw [encodeFlagged, hmatch.values, encodeValues, Command.valueBytes]
    by_cases hpos : 0 < command.parameterCount
    · simp only [hpos, decide_true, if_true]
      exact if_congr (by omega) rfl rfl
    · simp only [hpos, decide_false, Bool.false_eq_true, if_false]
      rw [if_neg (by omega)]
  rw [encode, hcommand]
  dsimp only
  rw [ok_bind, hlevel, deref, ok_bind, hvalues]
  split
  · rfl
  · rw [ok_bind, encodeFlagged_elim (f := fun pageSize : BitVec 64 =>
        ProtocolInt.encode pageSize.toNat) hmatch.pageSize, ok_bind,
      encodeFlagged_pagingState hmatch, ok_bind,
      encodeFlagged_elim (f := ProtocolShort.encode) hmatch.serialConsistency, ok_bind,
      encodeFlagged_elim (f := ProtocolTimestamp.encode) hmatch.defaultTimestamp, ok_bind]
    rfl

end Encoding

section Decoding

variable {x : ProtocolQueryParameters} {command stored : Command} {flags flag : Nat}
  {rest : Bytes} {α β : Type}

theorem modifyCommand_apply (f : Command → Command) :
    modifyCommand f ⟨⟨flags, some stored⟩, rest⟩ = .ok () ⟨⟨flags, some (f stored)⟩, rest⟩ := rfl

/-- A component that was written is read and stored. -/
theorem decodeFlagged_elim {component : Option α} {f : α → Bytes} {g : α → β}
    {m : Decoder ProtocolQueryParameters β} {store : β → Command → Command}
    (h : enumTrue flags flag = component.isSome)
    (hread : ∀ a ∈ component, m ⟨⟨flags, some stored⟩, f a ++ rest⟩ =
      .ok (g a) ⟨⟨flags, some stored⟩, rest⟩) :
    decodeFlagged flags flag m store ⟨⟨flags, some stored⟩, component.elim [] f ++ rest⟩ =
      .ok () ⟨⟨flags, some (component.elim stored fun a => store (g a) stored)⟩, rest⟩ := by
  rw [decodeFlagged, h]
  cases component with
  | none => rfl
  | some a =>
    rw [Option.elim_some, Option.isSome_some, if_pos rfl, Decode.bind_ok (hread a rfl)]
    rfl

theorem decode_pagingState {σ : Type} {y : σ} {pagingState : Bytes}
    (h : pagingState.length < 2 ^ 31) :
    ProtocolBytes.decode (⟨y, Command.pagingStateBytes pagingState ++ rest⟩ : Cursor σ) =
      .ok (some pagingState) ⟨y, rest⟩ :=
  ProtocolBytes.decode_append (if_neg (by omega))

/-- Sizes that fit let all components be read. -/
theorem decodeOptions_append (hmatch : Match flags command) (hcommand : command.Tidy)
    (hpaging : ∀ pagingState ∈ command.pagingState?, pagingState.length < 2 ^ 31) :
    decodeOptions flags ⟨⟨flags, some stored⟩, command.optionBytes ++ rest⟩ =
      .ok () ⟨⟨flags, some (command.withOptions stored)⟩, rest⟩ := by
  have hstate := hmatch.pagingState.trans command.isSome_pagingState?.symm
  rw [decodeOptions, Command.optionBytes, List.append_assoc, List.append_assoc, List.append_assoc,
    decodePageSize,
    Decode.bind_ok (decodeFlagged_elim hmatch.pageSize fun _ _ => ProtocolInt.decode_encode_mod _),
    decodeStates, decodePagingState,
    Decode.bind_ok (decodeFlagged_elim hstate fun s hs => decode_pagingState (hpaging s hs)),
    decodeSerialConsistency, Decode.bind_ok (decodeFlagged_elim hmatch.serialConsistency
      fun level hlevel => ProtocolShort.decode_append (hcommand.serialConsistency_lt level hlevel)),
    decodeDefaultTimestamp, decodeFlagged_elim hmatch.defaultTimestamp fun timeStamp _ =>
      ProtocolTimestamp.decode_append timeStamp, Command.withOptions]
  cases command.pageSize <;> cases command.pagingState? <;>
    cases command.serialConsistencyLevel <;> cases command.defaultTimestamp <;>
    simp [Command.narrowed, ProtocolTimestamp.timePoint_get]

/-- The command when its level and the flags have been read. -/
def started (level : Nat) : Command := { Command.new [] with consistencyLevel := some level }

/-- The parameters of a command as they are decoded. -/
def decodeValuesOf (command : Command) : Decoder ProtocolQueryParameters Unit :=
  if 0 < command.parameterCount then decodeValues else pure ()

/-- The level and the flags say how the rest is decoded. -/
theorem decode_started {used : ProtocolQueryParameters} {level : Nat} (hmatch : Match flags command)
    (hlevel : level < 2 ^ 16) :
    decode ⟨used, ProtocolShort.encode level ++ (ProtocolByte.encode flags ++ rest)⟩ =
      (do decodeValuesOf command; decodeOptions flags) ⟨⟨flags, some (started level)⟩, rest⟩ := by
  rw [decode, Decode.bind_ok (Decode.update_apply _), Decode.bind_ok
    (ProtocolShort.decode_append hlevel), Decode.bind_ok (modifyCommand_apply _),
    Decode.bind_ok (ProtocolByte.decode_append hmatch.lt), Decode.bind_ok (Decode.update_apply _),
    hmatch.values, hmatch.named, decodeValuesOf]
  by_cases hpos : 0 < command.parameterCount
  · simp only [hpos, decide_true, if_true, Bool.false_eq_true, if_false]
    rfl
  · simp only [hpos, decide_false, Bool.false_eq_true, if_false]
    rfl

/-- The parameters are read as they were written. -/
theorem decodeValues_append {values : List Bytes} (hvalues : ∀ value ∈ values, IsValue value)
    (hcount : values.length < 2 ^ 16) (hstored : stored.parameters = []) :
    decodeValues ⟨⟨flags, some stored⟩,
        ProtocolShort.encode values.length ++ (values.flatten ++ rest)⟩ =
      .ok () ⟨⟨flags, some { stored with
        parameterCount := values.length, parameters := values.flatten }⟩, rest⟩ := by
  have hloop := @times_decodeValue_append rest [] values hvalues
  rw [List.nil_append] at hloop
  rw [decodeValues, Decode.bind_ok (ProtocolShort.decode_append hcount),
    Decode.bind_ok (modifyCommand_apply _), Decode.on]
  simp only [Option.map_some, Option.getD_some, hstored, hloop]

/-- Values that were read are what the object holds. -/
theorem exists_of_decodeValues_ok {count : Nat} {bytes : Bytes}
    {c' : Cursor ProtocolQueryParameters} (hcount : count < 2 ^ 16)
    (hstored : stored.parameters = [])
    (h : decodeValues ⟨⟨flags, some stored⟩, ProtocolShort.encode count ++ bytes⟩ = .ok () c') :
    ∃ values : List Bytes, values.length = count ∧ (∀ value ∈ values, IsValue value) ∧
      bytes = values.flatten ++ c'.rest ∧ c'.object = ⟨flags, some { stored with
        parameterCount := count, parameters := values.flatten }⟩ := by
  rw [decodeValues, Decode.bind_ok (ProtocolShort.decode_append hcount),
    Decode.bind_ok (modifyCommand_apply _), Decode.on] at h
  split at h
  next d hloop =>
    cases h
    obtain ⟨values, hlength, hvalues, hrest, hobject⟩ := exists_of_times_decodeValue_ok hloop
    refine ⟨values, hlength, hvalues, hrest, ?_⟩
    have hnew : d.object = values.flatten := by
      rw [hobject]
      exact congrArg (· ++ values.flatten) hstored
    rw [← hnew]
    rfl
  · cases h

theorem keeps_modifyCommand {γ : Type} {get : Command → γ} {f : Command → Command}
    (h : ∀ command, get (f command) = get command) :
    Keeps (fun x : ProtocolQueryParameters => x.command.map get) (modifyCommand f) := by
  refine .update fun x => ?_
  rw [Option.map_map]
  exact congrFun (congrArg Option.map (funext h)) x.command

theorem keeps_decodeFlagged {γ : Type} {get : Command → γ} {m : Decoder ProtocolQueryParameters β}
    {store : β → Command → Command}
    (hread : Keeps (fun x : ProtocolQueryParameters => x.command.map get) m)
    (h : ∀ b command, get (store b command) = get command) :
    Keeps (fun x : ProtocolQueryParameters => x.command.map get)
      (decodeFlagged flags flag m store) :=
  .ite (hread.bind fun b => keeps_modifyCommand (h b)) (.pure _)

/-- What the components behind the page size do not write. -/
theorem keeps_decodeStates {γ : Type} {get : Command → γ}
    (h : ∀ command pagingState serialConsistencyLevel defaultTimestamp,
      get { command with pagingState, serialConsistencyLevel, defaultTimestamp } = get command) :
    Keeps (fun x : ProtocolQueryParameters => x.command.map get) (decodeStates flags) := by
  refine .bind ?_ fun _ => .bind ?_ fun _ => ?_
  · exact keeps_decodeFlagged ProtocolBytes.keeps_decode fun _ command => h command _ _ _
  · exact keeps_decodeFlagged ProtocolShort.keeps_decode fun _ command => h command _ _ _
  · exact keeps_decodeFlagged ProtocolLong.keeps_decode fun _ command => h command _ _ _

/-- The parameters are not written behind the values. -/
theorem keeps_decodeOptions : Keeps (fun x : ProtocolQueryParameters =>
    x.command.map Command.parameters) (decodeOptions flags) := by
  refine .bind ?_ fun _ => keeps_decodeStates fun _ _ _ _ => rfl
  exact keeps_decodeFlagged ProtocolInt.keeps_decode fun _ _ => rfl

/-- A paging state that was read is not too long. -/
theorem length_pagingState_of_decodeStates {c' : Cursor ProtocolQueryParameters}
    (hflag : enumTrue flags 8 = true) (h : decodeStates flags ⟨⟨flags, some stored⟩, rest⟩ = .ok () c') :
    ∀ restored ∈ c'.object.command, restored.pagingState.length < 2 ^ 31 := by
  obtain ⟨_, d, hpaging, hothers⟩ := Decode.exists_of_bind_ok h
  have hkeeps : Keeps (fun x : ProtocolQueryParameters => x.command.map Command.pagingState)
      (do decodeSerialConsistency flags; decodeDefaultTimestamp flags) := by
    refine .bind ?_ fun _ => ?_
    · exact keeps_decodeFlagged ProtocolShort.keeps_decode fun _ _ => rfl
    · exact keeps_decodeFlagged ProtocolLong.keeps_decode fun _ _ => rfl
  have hkept : c'.object.command.map Command.pagingState =
      d.object.command.map Command.pagingState := hkeeps d () c' hothers
  rw [decodePagingState, decodeFlagged, if_pos hflag] at hpaging
  obtain ⟨pagingState, e, hread, hstore⟩ := Decode.exists_of_bind_ok hpaging
  obtain ⟨hobject, hlt⟩ := And.intro (ProtocolBytes.keeps_decode.object_eq hread)
    (ProtocolBytes.length_lt_of_decode hread)
  cases hstore
  intro restored hrestored
  dsimp only at hkept
  rw [hrestored, hobject] at hkept
  rw [Option.some.inj hkept]
  exact hlt

end Decoding

/-! ## Round trips -/

section RoundTrip

variable {used : ProtocolQueryParameters} {command : Command} {level flags : Nat} {rest : Bytes}

theorem decodeValuesOf_append (htidy : command.Tidy) (hcount : command.parameterCount < 2 ^ 16)
    (hvalues : command.IsValues) :
    decodeValuesOf command ⟨⟨flags, some (started level)⟩, command.valueBytes ++ rest⟩ =
      .ok () ⟨⟨flags, some { started level with
        parameterCount := command.parameterCount, parameters := command.parameters }⟩, rest⟩ := by
  obtain ⟨values, hlength, hparameters, hvalue⟩ := hvalues
  rw [decodeValuesOf, Command.valueBytes]
  by_cases hpos : 0 < command.parameterCount
  · rw [if_pos hpos, if_pos hpos, hparameters, ← hlength, List.append_assoc]
    exact decodeValues_append hvalue (hlength ▸ hcount) rfl
  · have hzero : command.parameterCount = 0 := Nat.eq_zero_of_not_pos hpos
    rw [if_neg hpos, if_neg hpos, htidy.parameters_eq hzero, hzero]
    rfl

/-- The values that were read, from what was written for a command. -/
theorem exists_of_decodeValuesOf_ok {c' : Cursor ProtocolQueryParameters} (htidy : command.Tidy)
    (hcount : command.parameterCount < 2 ^ 16)
    (h : decodeValuesOf command ⟨⟨flags, some (started level)⟩, command.valueBytes ++ rest⟩ =
      .ok () c') :
    ∃ values : List Bytes, values.length = command.parameterCount ∧
      (∀ value ∈ values, IsValue value) ∧ command.parameters ++ rest = values.flatten ++ c'.rest ∧
      c'.object = ⟨flags, some { started level with
        parameterCount := command.parameterCount, parameters := values.flatten }⟩ := by
  rw [decodeValuesOf, Command.valueBytes] at h
  by_cases hpos : 0 < command.parameterCount
  · rw [if_pos hpos, if_pos hpos, List.append_assoc] at h
    exact exists_of_decodeValues_ok hcount rfl h
  · have hzero : command.parameterCount = 0 := Nat.eq_zero_of_not_pos hpos
    rw [if_neg hpos, if_neg hpos] at h
    cases h
    refine ⟨[], hzero.symm, fun _ h => absurd h List.not_mem_nil, ?_, ?_⟩
    · rw [htidy.parameters_eq hzero]
      rfl
    · rw [hzero]
      rfl

/-- Sizes that fit are read back with everything else. -/
theorem decode_append (hmatch : Match flags command) (htidy : command.Tidy)
    (hlevel : command.consistencyLevel = some level) (hcount : command.parameterCount < 2 ^ 16)
    (hvalues : command.IsValues)
    (hpaging : ∀ pagingState ∈ command.pagingState?, pagingState.length < 2 ^ 31) :
    decode ⟨used, ProtocolShort.encode level ++ (ProtocolByte.encode flags ++
        (command.valueBytes ++ (command.optionBytes ++ rest)))⟩ =
      .ok () ⟨⟨flags, some (command.withOptions { started level with
        parameterCount := command.parameterCount, parameters := command.parameters })⟩, rest⟩ := by
  have hstarted := @decode_started command flags
    (command.valueBytes ++ (command.optionBytes ++ rest)) used level hmatch
    (htidy.consistency_lt level hlevel)
  rw [hstarted]
  refine (Decode.bind_ok (decodeValuesOf_append htidy hcount hvalues) _).trans ?_
  exact decodeOptions_append hmatch htidy hpaging

/-- What was decoded and restores the parameters, the page size and the paging state had sizes
that fit. -/
theorem fits_of_decode {restored : Command} {suffix : Bytes} (hmatch : Match flags command)
    (htidy : command.Tidy) (hlevel : command.consistencyLevel = some level)
    (hcount : command.parameterCount < 2 ^ 16) (hrestores : command.Restores restored)
    (h : decode ⟨used, ProtocolShort.encode level ++ (ProtocolByte.encode flags ++
        (command.valueBytes ++ (command.optionBytes ++ rest)))⟩ =
      .ok () ⟨⟨flags, some restored⟩, suffix⟩) : command.Fits := by
  rw [decode_started hmatch (htidy.consistency_lt level hlevel)] at h
  obtain ⟨_, ⟨x, left⟩, hread, hoptions⟩ := Decode.exists_of_bind_ok h
  obtain ⟨values, hlength, hvalues, hbytes, rfl⟩ := exists_of_decodeValuesOf_ok htidy hcount hread
  -- the values are the parameters, so the components follow them
  have hparameters : command.parameters = values.flatten := by
    have hkept := keeps_decodeOptions _ _ _ hoptions
    exact hrestores.parameters.symm.trans (Option.some.inj hkept)
  rw [hparameters] at hbytes
  obtain rfl : command.optionBytes ++ rest = left := List.append_cancel_left hbytes
  have hstate := hmatch.pagingState.trans command.isSome_pagingState?.symm
  rw [decodeOptions, decodePageSize, Command.optionBytes, List.append_assoc, Decode.bind_ok
    (decodeFlagged_elim hmatch.pageSize fun _ _ => ProtocolInt.decode_encode_mod _)] at hoptions
  refine .inr ⟨fun pageSize hpageSize => ?_, fun hsome => ?_, values, hlength, hparameters, hvalues⟩
  · have hkept := @keeps_decodeStates flags _ Command.pageSize (fun _ _ _ _ => rfl) _ _ _ hoptions
    have hpage := (Option.some.inj hkept).symm.trans hrestores.pageSize
    rw [hpageSize] at hpage
    exact Command.narrowed_eq_iff.mp (Option.some.inj hpage)
  · by_cases hempty : command.pagingState = []
    · rw [hempty]
      exact Nat.two_pow_pos 31
    · have hflag : enumTrue flags 8 = true := by
        rw [hmatch.pagingState, hsome, decide_eq_true hempty]
        rfl
      rw [← hrestores.pagingState hsome]
      exact length_pagingState_of_decodeStates hflag hoptions restored rfl

/-- Parameters that a command has been set for are restored exactly if its sizes fit. -/
theorem Match.roundTrips_iff {parameters : ProtocolQueryParameters}
    (hmatch : Match parameters.flags command) (hcommand : parameters.command = some command)
    (htidy : command.Tidy) (hlevel : command.consistencyLevel = some level) :
    parameters.RoundTrips command ↔ command.Fits := by
  rw [RoundTrips, encode_eq hmatch hcommand hlevel]
  by_cases hcount : 2 ^ 16 ≤ command.parameterCount
  · rw [if_pos hcount]
    exact iff_of_true trivial (.inl hcount)
  rw [if_neg hcount]
  have hlt : command.parameterCount < 2 ^ 16 := Nat.lt_of_not_le hcount
  dsimp only
  simp only [List.append_assoc]
  constructor
  · intro hrestored
    obtain ⟨flags, restored, hdecode, rfl, hrestores⟩ := hrestored parameters []
    exact fits_of_decode hmatch htidy hlevel hlt hrestores hdecode
  · rintro (htoo | ⟨hpageSize, hpaging, hvalues⟩) used suffix
    · exact absurd htoo hcount
    refine ⟨_, _, decode_append hmatch htidy hlevel hlt hvalues ?_, rfl, ?_⟩
    · intro pagingState hpagingState
      rw [Command.pagingState?] at hpagingState
      split at hpagingState
      next hsome =>
        obtain rfl := Option.some.inj hpagingState
        exact hpaging (Bool.and_eq_true_iff.mp hsome).1
      · cases hpagingState
    · refine ⟨hlevel.symm, rfl, rfl, ?_, fun hsome => ?_, Option.or_none, Option.or_none⟩
      · refine Option.or_none.trans ?_
        cases hpage : command.pageSize with
        | none => rfl
        | some pageSize =>
          rw [Option.map_some, Command.narrowed_eq_iff.mpr (hpageSize pageSize hpage)]
      · show command.pagingState?.getD [] = command.pagingState
        rw [Command.pagingState?, hsome]
        by_cases hempty : command.pagingState = []
        · simp [hempty]
        · simp [hempty]

end RoundTrip

/-! ## Commands that have been set -/

/-- The flag that skips the metadata is switched, one value after the other. -/
def setSkipMetadatas (values : List Bool) (parameters : ProtocolQueryParameters) :
    ProtocolQueryParameters :=
  values.foldl (fun parameters value => parameters.setSkipMetadata value) parameters

/-- Parameters that were used, with the metadata flag switched before and after, take the command,
and restore it. -/
def RestoresSet (used : ProtocolQueryParameters) (before after : List Bool) (command : Command) :
    Prop :=
  ∃ parameters, (used.setSkipMetadatas before).setCommand (some command) = .ok parameters ∧
    (parameters.setSkipMetadatas after).RoundTrips command

section Set

variable {used parameters : ProtocolQueryParameters} {command : Command}

theorem setCommand_eq (h : command.consistencyLevel.isSome) :
    used.setCommand (some command) = .ok ⟨flagsOf used.flags command, some command⟩ := by
  rw [setCommand, if_neg (by simpa using Option.isSome_iff_ne_none.mp h)]

@[simp] theorem setSkipMetadata_command (parameters : ProtocolQueryParameters) (value : Bool) :
    (parameters.setSkipMetadata value).command = parameters.command := by
  rw [setSkipMetadata]
  split
  · rfl
  · rfl

theorem Match.setSkipMetadatas (h : Match parameters.flags command)
    (hcommand : parameters.command = some command) (values : List Bool) :
    Match (parameters.setSkipMetadatas values).flags command ∧
      (parameters.setSkipMetadatas values).command = some command := by
  induction values generalizing parameters with
  | nil => exact ⟨h, hcommand⟩
  | cons value values ih =>
    exact ih (h.setSkipMetadata value) ((parameters.setSkipMetadata_command value).trans hcommand)

theorem restoresSet_of_tidy (used : ProtocolQueryParameters) (before after : List Bool)
    (htidy : command.Tidy) (hconsistency : command.consistencyLevel.isSome) :
    used.RestoresSet before after command ↔ command.Fits := by
  obtain ⟨level, hlevel⟩ := Option.isSome_iff_exists.mp hconsistency
  have hset : Match (flagsOf (used.setSkipMetadatas before).flags command) command :=
    match_flagsOf _ command
  obtain ⟨hmatch, hcommand⟩ := @Match.setSkipMetadatas ⟨_, some command⟩ command hset rfl after
  rw [← hmatch.roundTrips_iff hcommand htidy hlevel, RestoresSet, setCommand_eq hconsistency]
  constructor
  · rintro ⟨parameters, hparameters, hroundTrips⟩
    cases hparameters
    exact hroundTrips
  · exact fun hroundTrips => ⟨_, rfl, hroundTrips⟩

/-- Query parameters restore every command with a consistency level, whatever calls have built it,
exactly if its sizes fit. -/
theorem restoresSet_iff_fits (query : Bytes) (calls : List CommandCall)
    (used : ProtocolQueryParameters) (before after : List Bool)
    (hconsistency : (Command.build query calls).consistencyLevel.isSome) :
    used.RestoresSet before after (Command.build query calls) ↔ (Command.build query calls).Fits :=
  restoresSet_of_tidy used before after (Command.tidy_build query calls) hconsistency

end Set

/-- A page of a hundred rows can be asked for. -/
theorem restoresSet_hundredRows : (⟨0, none⟩ : ProtocolQueryParameters).RestoresSet [] [true]
    (Command.build [] [.setConsistency .one, .setPageSize 100]) := by
  refine (restoresSet_iff_fits [] [.setConsistency .one, .setPageSize 100] ⟨0, none⟩ [] [true]
    rfl).mpr (.inr ⟨fun pageSize hpageSize => ?_, fun _ => Nat.two_pow_pos 31, ?_⟩)
  · obtain rfl := Option.some.inj hpageSize
    exact .inl (by decide)
  · refine Command.isValues_build [] fun call hcall parameter hparameter => ?_
    simp only [List.mem_cons, List.not_mem_nil, or_false] at hcall
    rcases hcall with rfl | rfl <;> cases hparameter

/-- A page of 2^31 rows is read back as one of almost 2^64 rows. -/
theorem not_restoresSet_hugePage : ¬ ∀ (query : Bytes) (calls : List CommandCall)
    (used : ProtocolQueryParameters) (before after : List Bool),
    (Command.build query calls).consistencyLevel.isSome →
      used.RestoresSet before after (Command.build query calls) := by
  intro hall
  let calls : List CommandCall := [.setConsistency .one, .setPageSize (BitVec.ofNat 64 (2 ^ 31))]
  have hfits := (restoresSet_of_tidy ⟨0, none⟩ [] [] (Command.tidy_build [] calls) rfl).mp
    (hall [] calls ⟨0, none⟩ [] [] rfl)
  rcases hfits with hcount | ⟨hpageSize, -⟩
  · exact absurd hcount (by decide)
  · exact absurd (hpageSize _ rfl) (by decide)

end ProtocolQueryParameters

end CqlDriver
