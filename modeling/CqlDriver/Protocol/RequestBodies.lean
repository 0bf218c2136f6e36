import CqlDriver.Column.Collections
import CqlDriver.Connection.Handshake
import CqlDriver.Connection.RequestFrame
import CqlDriver.Protocol.ContainerReuse
import CqlDriver.Protocol.QueryParameters

/-!
# What a request says

A message object is taken from a storage, reset, filled by some calls, and encoded. Whatever the
object was used for, the body is read as what the calls asked for: the last command and the last
value of each switch, but the first compressor, since a second one is not inserted into the
options. A request that cannot be encoded throws.

## Main definitions

* `StartupMessage`, `AuthResponseMessage`, `PrepareMessage`, `RegisterMessage`, `QueryMessage`,
  `ExecuteMessage` — the message objects
* `RequestCalls` — what the caller asks for, with `RequestCalls.encodeBody`
* `RequestBody.decode` — the grammar of the bodies
* `RequestCalls.Says` — the body says what was asked for

## Main results

* `RequestCalls.sends_of_fits` — encoding throws, or the body is read as the request
-/

namespace CqlDriver

open Math (Decode Cursor)
open ProtocolSizedStringBase (NormalState NullState)

/-! ## Fields -/

def ProtocolLongString.encode (value : Bytes) : Encoded :=
  if 2 ^ 31 - 1 < value.length then .error lengthTooLong
  else .ok (ProtocolInt.encode value.length ++ value)

def ProtocolShortBytes.encode (value : Bytes) : Encoded := ProtocolString.encode value

/-- A [short] n, followed by n pairs of a [string] and a [string]. -/
def ProtocolStringMap.decode : Decoder (List (Bytes × Bytes)) Unit :=
  ProtocolMapBase.decode ProtocolString.decode ProtocolString.decode

/-- `value_.erase(key)`, which keeps the order of the others. -/
def UnorderedMap.erase {κ ν : Type} [DecidableEq κ] (m : UnorderedMap κ ν) (key : κ) :
    UnorderedMap κ ν :=
  ⟨m.entries.filter fun entry => entry.1 ≠ key, m.nodup.sublist (List.filter_sublist.map Prod.fst)⟩

/-- What is done to a [bytes]. -/
inductive BytesCall
  | setNull
  | set (value : Bytes)
  | append (str : Bytes)

/-- What a call does to the string and its state. -/
def BytesCall.apply (x : SizedString) : BytesCall → SizedString
  | setNull => ⟨[], NullState⟩
  | set value => ⟨value, NormalState⟩
  | append str => ⟨x.value ++ str, NormalState⟩

/-- What is done to query parameters between two resets. The command is one that calls have
built. -/
inductive ParametersCall
  | setSkipMetadata (value : Bool)
  | setCommand (query : Bytes) (calls : List CommandCall)

namespace ProtocolQueryParameters

/-- Reset to initial state. -/
def reset (_ : ProtocolQueryParameters) : ProtocolQueryParameters := ⟨0, none⟩

def apply (parameters : ProtocolQueryParameters) :
    ParametersCall → Except Exception ProtocolQueryParameters
  | .setSkipMetadata value => .ok (parameters.setSkipMetadata value)
  | .setCommand query calls => parameters.setCommand (some (Command.build query calls))

/-- The calls one after the other, until one throws. -/
def fill (parameters : ProtocolQueryParameters) (calls : List ParametersCall) :
    Except Exception ProtocolQueryParameters :=
  calls.foldlM apply parameters

end ProtocolQueryParameters

/-! ## The message objects -/

structure StartupMessage where
  options : UnorderedMap Bytes Bytes

namespace StartupMessage

def versionKey : Bytes := asciiBytes "CQL_VERSION"

def compressionKey : Bytes := asciiBytes "COMPRESSION"

def versionValue : Bytes := asciiBytes "3.0.0"

def reset (order : IterationOrder) (_ : StartupMessage) : StartupMessage :=
  ⟨UnorderedMap.empty.emplace order (versionKey, versionValue)⟩

/-- Set the compression algorithm to use, or none. -/
def setCompression (order : IterationOrder) (message : StartupMessage) :
    Option Bytes → StartupMessage
  | some algorithm => ⟨message.options.emplace order (compressionKey, algorithm)⟩
  | none => ⟨message.options.erase compressionKey⟩

/-- The body is a [string map] of options. -/
def encodeBody (message : StartupMessage) : Encoded :=
  ProtocolStringMap.encode message.options.entries

end StartupMessage

structure AuthResponseMessage where
  token : SizedString

namespace AuthResponseMessage

def reset (_ : AuthResponseMessage) : AuthResponseMessage := ⟨⟨[], NullState⟩⟩

/-- The body is a single [bytes] token. -/
def encodeBody (message : AuthResponseMessage) : Encoded :=
  ProtocolSizedStringBase.encode message.token

end AuthResponseMessage

structure PrepareMessage where
  query : Bytes

namespace PrepareMessage

def reset (_ : PrepareMessage) : PrepareMessage := ⟨[]⟩

/-- `<query>`. -/
def encodeBody (message : PrepareMessage) : Encoded := ProtocolLongString.encode message.query

end PrepareMessage

structure RegisterMessage where
  events : List Bytes

namespace RegisterMessage

def reset (_ : RegisterMessage) : RegisterMessage := ⟨[]⟩

/-- The body is a [string list] of event types. -/
def encodeBody (message : RegisterMessage) : Encoded := ProtocolStringList.encode message.events

end RegisterMessage

structure QueryMessage where
  queryParameters : ProtocolQueryParameters

namespace QueryMessage

def reset (message : QueryMessage) : QueryMessage := ⟨message.queryParameters.reset⟩

/-- `<query><query_parameters>`. -/
def encodeBody (message : QueryMessage) : Encoded := do
  let command ← match message.queryParameters.command with
    | none => .error ProtocolQueryParameters.invalidCommand
    | some command => .ok command
  let query := command.queryStr
  return ProtocolInt.encode query.length ++ (query ++ (← message.queryParameters.encode))

end QueryMessage

structure ExecuteMessage where
  preparedQueryId : Bytes
  queryParameters : ProtocolQueryParameters

namespace ExecuteMessage

def reset (message : ExecuteMessage) : ExecuteMessage := ⟨[], message.queryParameters.reset⟩

/-- `<id><query_parameters>`. -/
def encodeBody (message : ExecuteMessage) : Encoded := do
  return (← ProtocolShortBytes.encode message.preparedQueryId) ++ (← message.queryParameters.encode)

end ExecuteMessage

/-! ## Requests -/

/-- What a caller asks for, by the calls that fill the message object. -/
inductive RequestCalls
  | startup (algorithms : List (Option Bytes))
  | options
  | query (calls : List ParametersCall)
  | prepare (query : Bytes)
  | execute (preparedQueryId : Bytes) (calls : List ParametersCall)
  | register (events : List Bytes)
  | batch (calls : List BatchCall) (preparedQueryIds : List Bytes)
  | authResponse (calls : List BytesCall)

/-- The objects that the storages give out, which may have been used. -/
structure RequestMessages where
  startup : StartupMessage
  query : QueryMessage
  prepare : PrepareMessage
  execute : ExecuteMessage
  register : RegisterMessage
  authResponse : AuthResponseMessage

/-- A call that may throw, before an encoding that may fail. -/
def liftException {α : Type} : Except Exception α → Except Failure α
  | .ok a => .ok a
  | .error ex => .error (.exception ex)

/-- What was appended to an empty buffer. -/
def encodedOf : Appended → Encoded
  | (data, none) => .ok data
  | (_, some ex) => .error (.exception ex)

namespace RequestCalls

def type : RequestCalls → RequestType
  | .startup _ => .startup
  | .options => .options
  | .query _ => .query
  | .prepare _ => .prepare
  | .execute _ _ => .execute
  | .register _ => .register
  | .batch _ _ => .batch
  | .authResponse _ => .authResponse

/-- Reset the message object, fill it, and encode its body. Nothing of a batch message is left
when it has got a command and the ids of its queries. -/
def encodeBody (order : IterationOrder) (used : RequestMessages) : RequestCalls → Encoded
  | .startup algorithms =>
    (algorithms.foldl (StartupMessage.setCompression order) (used.startup.reset order)).encodeBody
  | .options => .ok []
  | .query calls => do
    let queryParameters ← liftException (used.query.reset.queryParameters.fill calls)
    QueryMessage.encodeBody ⟨queryParameters⟩
  | .prepare queryStr => { used.prepare.reset with query := queryStr }.encodeBody
  | .execute preparedQueryId calls => do
    let queryParameters ← liftException (used.execute.reset.queryParameters.fill calls)
    ExecuteMessage.encodeBody ⟨preparedQueryId, queryParameters⟩
  | .register events => { used.register.reset with events }.encodeBody
  | .batch calls preparedQueryIds => do
    let parameters ← liftException
      (ProtocolBatchParameters.setBatchCommand (BatchCommand.build calls))
    encodedOf (BatchMessage.encodeBody ⟨parameters, preparedQueryIds⟩ [])
  | .authResponse calls =>
    AuthResponseMessage.encodeBody ⟨calls.foldl BytesCall.apply used.authResponse.reset.token⟩

end RequestCalls

/-! ## The grammar -/

/-- What a peer reads. -/
inductive RequestBody
  | startup (options : List (Bytes × Bytes))
  | options
  | query (query : Bytes) (parameters : ProtocolQueryParameters)
  | prepare (query : Bytes)
  | execute (preparedQueryId : Bytes) (parameters : ProtocolQueryParameters)
  | register (events : List Bytes)
  | batch (body : BatchBody)
  | authResponse (token : Option Bytes)
  deriving DecidableEq, Repr

/-- Query parameters, as a local object. -/
def RequestBody.decodeParameters : Decoder Unit ProtocolQueryParameters :=
  Decode.onLocal ⟨0, none⟩ ProtocolQueryParameters.decode

/-- The body of a request of a type. -/
def RequestBody.decode : RequestType → Decoder Unit RequestBody
  | .startup => do return .startup (← Decode.onLocal [] ProtocolStringMap.decode)
  | .options => return .options
  | .query => do
    let query ← ProtocolLongString.decode
    return .query query (← decodeParameters)
  | .prepare => do return .prepare (← ProtocolLongString.decode)
  | .execute => do
    let preparedQueryId ← ProtocolShortBytes.decode
    return .execute preparedQueryId (← decodeParameters)
  | .register => do return .register (← Decode.onLocal [] ProtocolStringList.decode)
  | .batch => do return .batch (← BatchBody.decode)
  | .authResponse => do return .authResponse (← ProtocolBytes.decode)

/-! ## What was asked for -/

/-- What query parameters were set to. -/
structure QueryOptions where
  command : Option Command
  skipMetadata : Bool

namespace QueryOptions

def apply (options : QueryOptions) : ParametersCall → QueryOptions
  | .setSkipMetadata value => { options with skipMetadata := value }
  | .setCommand query calls => { options with command := some (Command.build query calls) }

/-- The last command, and the last value of the switch. -/
def of (calls : List ParametersCall) : QueryOptions := calls.foldl apply ⟨none, false⟩

/-- The parameters that were read are those that were set. -/
def ReadAs (options : QueryOptions) (command : Command) (parameters : ProtocolQueryParameters) :
    Prop :=
  options.command = some command ∧ enumTrue parameters.flags 2 = options.skipMetadata ∧
    ∃ restored, parameters.command = some restored ∧ command.Restores restored

end QueryOptions

/-- The compressor stays when another one is given. -/
def StartupMessage.compression (algorithms : List (Option Bytes)) : Option Bytes :=
  algorithms.foldl (fun current algorithm => algorithm.bind fun name => current.or (some name)) none

/-- The options of a STARTUP request. -/
def StartupMessage.optionsFor (compression : Option Bytes) : List (Bytes × Bytes) :=
  (versionKey, versionValue) :: (compression.map fun name => (compressionKey, name)).toList

/-- The token that calls have left. -/
def BytesCall.value (token : Option Bytes) : BytesCall → Option Bytes
  | setNull => none
  | set value => some value
  | append str => some (token.getD [] ++ str)

namespace RequestCalls

/-- What is read is what was asked for. -/
def Says : RequestCalls → RequestBody → Prop
  | .startup algorithms, .startup read =>
    read.Perm (StartupMessage.optionsFor (StartupMessage.compression algorithms))
  | .options, .options => True
  | .query calls, .query queryStr parameters =>
    ∃ command, queryStr = command.queryStr ∧ (QueryOptions.of calls).ReadAs command parameters
  | .prepare queryStr, .prepare read => read = queryStr
  | .execute preparedQueryId calls, .execute read parameters =>
    read = preparedQueryId ∧ ∃ command, (QueryOptions.of calls).ReadAs command parameters
  | .register events, .register read => read = events
  | .batch calls preparedQueryIds, .batch body =>
    ∃ level, (Batch.build calls).consistencyLevel = some level ∧
      body = (Batch.build calls).body (fun i => preparedQueryIds.getD i []) level
  | .authResponse calls, .authResponse token => token = calls.foldl BytesCall.value none
  | _, _ => False

/-- Sizes that are written without a check can be read back. -/
def Fits : RequestCalls → Prop
  | .query calls => ∀ command ∈ (QueryOptions.of calls).command,
    command.queryStr.length < 2 ^ 31 ∧ command.Fits
  | .execute _ calls => ∀ command ∈ (QueryOptions.of calls).command, command.Fits
  | .batch calls preparedQueryIds => (Batch.build calls).Fits fun i => preparedQueryIds.getD i []
  | _ => True

/-- Encoding throws, or the body is read as what was asked for. -/
def Sends (order : IterationOrder) (used : RequestMessages) (request : RequestCalls) : Prop :=
  match request.encodeBody order used with
  | .ok encoded => ∃ body, RequestBody.decode request.type ⟨(), encoded⟩ = .ok body ⟨(), []⟩ ∧
    request.Says body
  | .error (.exception _) => True
  | .error _ => False

end RequestCalls

/-! ## Message objects that are filled -/

namespace StartupMessage

variable {order : IterationOrder} {message : StartupMessage} {current : Option Bytes}

/-- The options are these entries, in some order. -/
def StandsFor (message : StartupMessage) (current : Option Bytes) : Prop :=
  message.options.entries.Perm (optionsFor current)

theorem versionKey_ne : versionKey ≠ compressionKey := by decide

theorem standsFor_reset (order : IterationOrder) (used : StartupMessage) :
    (used.reset order).StandsFor none :=
  UnorderedMap.emplace_perm order List.not_mem_nil

/-- The compressor is among the options if there is one. -/
theorem StandsFor.mem_keys (h : message.StandsFor current) :
    compressionKey ∈ message.options.entries.map Prod.fst ↔ current.isSome := by
  rw [(h.map Prod.fst).mem_iff]
  cases current with
  | none => simp [optionsFor, versionKey_ne.symm]
  | some name => simp [optionsFor]

theorem StandsFor.setCompression (h : message.StandsFor current) (algorithm : Option Bytes) :
    (message.setCompression order algorithm).StandsFor
      (algorithm.bind fun name => current.or (some name)) := by
  cases algorithm with
  | none =>
    have hkept : (optionsFor current).filter (fun entry => entry.1 ≠ compressionKey) =
        optionsFor none := by
      cases current with
      | none => simp [optionsFor, versionKey_ne]
      | some name => simp [optionsFor, versionKey_ne]
    have herased := h.filter fun entry => entry.1 ≠ compressionKey
    rw [hkept] at herased
    exact herased
  | some name =>
    cases current with
    | none =>
      have hnew : compressionKey ∉ message.options.entries.map Prod.fst := by
        rw [h.mem_keys]
        exact Bool.false_ne_true
      -- the new entry is put anywhere
      have hentries : (message.options.emplace order (compressionKey, name)).entries.Perm
          ((compressionKey, name) :: message.options.entries) := UnorderedMap.emplace_perm order hnew
      exact hentries.trans ((h.cons _).trans (List.Perm.swap _ _ _))
    | some other =>
      have hold : compressionKey ∈ message.options.entries.map Prod.fst := h.mem_keys.mpr rfl
      rw [StartupMessage.setCompression, UnorderedMap.emplace, dif_pos hold]
      exact h

theorem StandsFor.foldl (order : IterationOrder) (h : message.StandsFor current)
    (algorithms : List (Option Bytes)) :
    (algorithms.foldl (StartupMessage.setCompression order) message).StandsFor
      (algorithms.foldl (fun current algorithm =>
        algorithm.bind fun name => current.or (some name)) current) := by
  induction algorithms generalizing message current with
  | nil => exact h
  | cons algorithm algorithms ih => exact ih (h.setCompression algorithm)

end StartupMessage

namespace BytesCall

theorem apply_object (token : Option Bytes) (call : BytesCall) :
    apply (ProtocolBytes.object token) call = ProtocolBytes.object (value token call) := by
  cases call with
  | setNull => rfl
  | set value => rfl
  | append str =>
    cases token with
    | none => rfl
    | some value => rfl

theorem foldl_object (token : Option Bytes) (calls : List BytesCall) :
    calls.foldl apply (ProtocolBytes.object token) =
      ProtocolBytes.object (calls.foldl value token) :=
  List.foldl_hom _ apply_object

theorem encode_object (token : Option Bytes) :
    ProtocolSizedStringBase.encode (ProtocolBytes.object token) = ProtocolBytes.encode token := by
  cases token with
  | none => rfl
  | some value => rfl

end BytesCall

namespace ProtocolQueryParameters

variable {parameters filled : ProtocolQueryParameters} {options : QueryOptions}
  {command : Command} {flags : Nat}

/-- The flags and the command are what was set. -/
structure StandsFor (parameters : ProtocolQueryParameters) (options : QueryOptions) : Prop where
  command : parameters.command = options.command
  skipMetadata : enumTrue parameters.flags 2 = options.skipMetadata
  flags : ∀ command ∈ options.command, Match parameters.flags command
  tidy : ∀ command ∈ options.command, command.Tidy
  consistency : ∀ command ∈ options.command, command.consistencyLevel.isSome

theorem standsFor_reset (used : ProtocolQueryParameters) : used.reset.StandsFor ⟨none, false⟩ :=
  ⟨rfl, by simp [reset, enumTrue], by simp, by simp, by simp⟩

theorem skipMetadata_setSkipMetadata (value : Bool) :
    enumTrue (parameters.setSkipMetadata value).flags 2 = value := by
  cases value with
  | true => simp [setSkipMetadata, enumTrue_or, show enumTrue 2 2 = true by decide]
  | false =>
    simp [setSkipMetadata, enumTrue_and, show 253 &&& 2 = 0 by decide]
    simp [enumTrue]

/-- The switch is all that is kept of the flags. -/
theorem skipMetadata_flagsOf (flags : Nat) (command : Command) :
    enumTrue (flagsOf flags command) 2 = enumTrue flags 2 := by
  have hor : ∀ flags value, enumTrue value 2 = false →
      enumTrue (flags ||| value) 2 = enumTrue flags 2 := by
    intro flags value hvalue
    rw [enumTrue_or, hvalue, Bool.or_false]
  have hkept : enumTrue (flags &&& 2) 2 = enumTrue flags 2 := enumTrue_and flags 2 2
  rw [flagsOf]
  split_ifs <;> simp only [hor _ 1 rfl, hor _ 4 rfl, hor _ 8 rfl, hor _ 16 rfl, hor _ 32 rfl, hkept]

theorem StandsFor.apply (h : parameters.StandsFor options) {call : ParametersCall}
    (hcall : parameters.apply call = .ok filled) : filled.StandsFor (options.apply call) := by
  cases call with
  | setSkipMetadata value =>
    cases hcall
    refine ⟨?_, skipMetadata_setSkipMetadata value, fun command hcommand => ?_, h.tidy,
      h.consistency⟩
    · rw [setSkipMetadata_command]
      exact h.command
    · exact (h.flags command hcommand).setSkipMetadata value
  | setCommand query calls =>
    have hsome : (Command.build query calls).consistencyLevel.isSome := by
      by_contra hnone
      rw [ProtocolQueryParameters.apply, setCommand, if_pos (by simpa using hnone)] at hcall
      cases hcall
    rw [ProtocolQueryParameters.apply, setCommand_eq hsome] at hcall
    cases hcall
    refine ⟨rfl, (skipMetadata_flagsOf _ _).trans h.skipMetadata, ?_, ?_, ?_⟩
    · rintro _ ⟨⟩
      exact match_flagsOf _ _
    · rintro _ ⟨⟩
      exact Command.tidy_build query calls
    · rintro _ ⟨⟩
      exact hsome

theorem StandsFor.fill (h : parameters.StandsFor options) {calls : List ParametersCall}
    (hfill : parameters.fill calls = .ok filled) : filled.StandsFor (calls.foldl .apply options) := by
  induction calls generalizing parameters options with
  | nil =>
    cases hfill
    exact h
  | cons call calls ih =>
    rw [ProtocolQueryParameters.fill, List.foldlM_cons] at hfill
    cases hcall : parameters.apply call with
    | error ex =>
      rw [hcall] at hfill
      cases hfill
    | ok next =>
      rw [hcall] at hfill
      exact ih (h.apply hcall) hfill

end ProtocolQueryParameters

/-! ## Encoders throw -/

section Throws

variable {α β : Type} {encoding : Except Failure α}

/-- An encoder that fails throws. -/
def Throws (encoding : Except Failure α) : Prop := ∀ failure, encoding = .error failure →
  ∃ ex, failure = .exception ex

theorem throws_ok (a : α) : Throws (.ok a) := by
  intro failure h
  cases h

theorem throws_exception (ex : Exception) : Throws (.error (.exception ex) : Except Failure α) := by
  rintro _ ⟨⟩
  exact ⟨ex, rfl⟩

theorem Throws.bind {f : α → Except Failure β} (h : Throws encoding) (hnext : ∀ a, Throws (f a)) :
    Throws (encoding >>= f) := by
  intro failure hfailure
  cases encoding with
  | error other =>
    cases hfailure
    exact h failure rfl
  | ok a => exact hnext a failure hfailure

theorem Throws.ite {p : Prop} [Decidable p] {other : Except Failure α} (h : Throws encoding)
    (hother : Throws other) : Throws (if p then encoding else other) := by
  split
  · exact h
  · exact hother

theorem throws_liftException (result : Except Exception α) : Throws (liftException result) := by
  cases result with
  | ok a => exact throws_ok a
  | error ex => exact throws_exception ex

theorem throws_encodedOf (appended : Appended) : Throws (encodedOf appended) := by
  obtain ⟨data, thrown⟩ := appended
  cases thrown with
  | none => exact throws_ok data
  | some ex => exact throws_exception ex

theorem throws_encodeAll {encodeElement : α → Encoded} (h : ∀ element, Throws (encodeElement element))
    (value : List α) : Throws (encodeAll encodeElement value) := by
  induction value with
  | nil => exact throws_ok _
  | cons element rest ih => exact (h element).bind fun _ => ih.bind fun _ => throws_ok _

theorem ProtocolString.throws_encode (value : Bytes) : Throws (ProtocolString.encode value) :=
  (throws_exception _).ite (throws_ok _)

theorem ProtocolLongString.throws_encode (value : Bytes) : Throws (ProtocolLongString.encode value) :=
  (throws_exception _).ite (throws_ok _)

theorem ProtocolBytes.throws_encode (value : Option Bytes) : Throws (ProtocolBytes.encode value) := by
  cases value with
  | none => exact throws_ok _
  | some value => exact (throws_exception _).ite (throws_ok _)

theorem ProtocolStringList.throws_encode (value : List Bytes) :
    Throws (ProtocolStringList.encode value) :=
  (throws_exception _).ite
    ((throws_encodeAll ProtocolString.throws_encode value).bind fun _ => throws_ok _)

theorem ProtocolStringMap.throws_encode (value : List (Bytes × Bytes)) :
    Throws (ProtocolStringMap.encode value) := by
  refine (throws_exception _).ite (.bind (throws_encodeAll (fun entry => ?_) value) fun _ => throws_ok _)
  exact (ProtocolString.throws_encode _).bind fun _ =>
    (ProtocolString.throws_encode _).bind fun _ => throws_ok _

/-- The optional members that are read are there. -/
theorem ProtocolQueryParameters.StandsFor.throws_encode {parameters : ProtocolQueryParameters}
    {options : QueryOptions} (h : parameters.StandsFor options) : Throws parameters.encode := by
  cases hcommand : parameters.command with
  | none =>
    rw [ProtocolQueryParameters.encode, hcommand]
    exact throws_exception _
  | some command =>
    have hset : command ∈ options.command := h.command ▸ hcommand
    obtain ⟨level, hlevel⟩ := Option.isSome_iff_exists.mp (h.consistency command hset)
    rw [encode_eq (h.flags command hset) hcommand hlevel]
    exact (throws_exception _).ite (throws_ok _)

end Throws

/-! ## The bodies are read -/

/-- What is written for the options is read in the same order. -/
theorem ProtocolStringMap.decode_append {options : List (Bytes × Bytes)} {encoded : Bytes}
    (h : (options.map Prod.fst).Nodup) (hencode : ProtocolStringMap.encode options = .ok encoded)
    (old : List (Bytes × Bytes)) (rest : Bytes) :
    ProtocolStringMap.decode ⟨old, encoded ++ rest⟩ = .ok () ⟨options, rest⟩ := by
  have hall : options.foldl ProtocolMapBase.emplace [] = options := by
    rw [ProtocolMapBase.foldl_emplace (by simpa using h), List.nil_append]
  rw [← hall]
  apply ProtocolMapBase.decode_append _ _ hencode
  · intro entry _ bytes hbytes old rest
    exact ProtocolString.decode_encode hbytes old rest
  · intro entry _ bytes hbytes old rest
    exact ProtocolString.decode_encode hbytes old rest

theorem ProtocolLongString.decode_encode {value encoded : Bytes} {σ : Type}
    (h : ProtocolLongString.encode value = .ok encoded) (x : σ) (rest : Bytes) :
    ProtocolLongString.decode (⟨x, encoded ++ rest⟩ : Cursor σ) = .ok value ⟨x, rest⟩ := by
  rw [ProtocolLongString.encode] at h
  split at h
  · cases h
  next hle =>
    cases h
    exact ProtocolLongString.decode_append (by omega)

/-- Query parameters that were encoded are read as what they were set to. -/
theorem ProtocolQueryParameters.StandsFor.decode_encode {parameters : ProtocolQueryParameters}
    {options : QueryOptions} {command : Command} {encoded : Bytes} (h : parameters.StandsFor options)
    (hcommand : options.command = some command) (hfits : command.Fits)
    (hencode : parameters.encode = .ok encoded) :
    ∃ read, RequestBody.decodeParameters ⟨(), encoded⟩ = .ok read ⟨(), []⟩ ∧
      options.ReadAs command read := by
  obtain ⟨level, hlevel⟩ := Option.isSome_iff_exists.mp (h.consistency command hcommand)
  have hrestored := ((h.flags command hcommand).roundTrips_iff (h.command.trans hcommand)
    (h.tidy command hcommand) hlevel).mpr hfits
  rw [ProtocolQueryParameters.RoundTrips, hencode] at hrestored
  obtain ⟨flags, restored, hdecode, rfl, hrestores⟩ := hrestored ⟨0, none⟩ []
  rw [List.append_nil] at hdecode
  exact ⟨_, Decode.onLocal_ok (c := ⟨(), encoded⟩) hdecode, hcommand, h.skipMetadata, restored, rfl,
    hrestores⟩

namespace QueryMessage

variable (message : QueryMessage) {options : QueryOptions} {encoded : Bytes}

theorem throws_encodeBody (h : message.queryParameters.StandsFor options) :
    Throws message.encodeBody := by
  rw [encodeBody]
  cases message.queryParameters.command with
  | none => exact throws_exception _
  | some command => exact h.throws_encode.bind fun _ => throws_ok _

/-- The text of the query is in front of the parameters. -/
theorem decode_encodeBody (h : message.queryParameters.StandsFor options)
    (hfits : ∀ command ∈ options.command, command.queryStr.length < 2 ^ 31 ∧ command.Fits)
    (hencode : message.encodeBody = .ok encoded) :
    ∃ command read, RequestBody.decode .query ⟨(), encoded⟩ =
      .ok (.query command.queryStr read) ⟨(), []⟩ ∧ options.ReadAs command read := by
  cases hcommand : message.queryParameters.command with
  | none =>
    rw [encodeBody, hcommand] at hencode
    cases hencode
  | some command =>
    have hset : options.command = some command := h.command.symm.trans hcommand
    obtain ⟨hlength, hsizes⟩ := hfits command hset
    rw [encodeBody, hcommand] at hencode
    obtain ⟨_, hsame, hencode⟩ := exists_of_bind_eq_ok hencode
    cases hsame
    obtain ⟨parameterBytes, hparameters, hencode⟩ := exists_of_bind_eq_ok hencode
    cases hencode
    obtain ⟨read, hread, hreadAs⟩ := h.decode_encode hset hsizes hparameters
    refine ⟨command, read, ?_, hreadAs⟩
    rw [RequestBody.decode, ← List.append_assoc,
      Decode.bind_ok (ProtocolLongString.decode_append hlength), Decode.bind_ok hread]
    rfl

end QueryMessage

namespace ExecuteMessage

variable (message : ExecuteMessage) {options : QueryOptions} {encoded : Bytes}

theorem throws_encodeBody (h : message.queryParameters.StandsFor options) :
    Throws message.encodeBody :=
  (ProtocolString.throws_encode _).bind fun _ => h.throws_encode.bind fun _ => throws_ok _

/-- The id is in front of the parameters. -/
theorem decode_encodeBody (h : message.queryParameters.StandsFor options)
    (hfits : ∀ command ∈ options.command, command.Fits) (hencode : message.encodeBody = .ok encoded) :
    ∃ command read, RequestBody.decode .execute ⟨(), encoded⟩ =
      .ok (.execute message.preparedQueryId read) ⟨(), []⟩ ∧ options.ReadAs command read := by
  obtain ⟨idBytes, hid, hencode⟩ := exists_of_bind_eq_ok hencode
  obtain ⟨parameterBytes, hparameters, hencode⟩ := exists_of_bind_eq_ok hencode
  cases hencode
  cases hcommand : message.queryParameters.command with
  | none =>
    rw [ProtocolQueryParameters.encode, hcommand] at hparameters
    cases hparameters
  | some command =>
    have hset : options.command = some command := h.command.symm.trans hcommand
    obtain ⟨read, hread, hreadAs⟩ := h.decode_encode hset (hfits command hset) hparameters
    refine ⟨command, read, ?_, hreadAs⟩
    rw [RequestBody.decode, ProtocolShortBytes.decode,
      Decode.bind_ok (ProtocolString.decode_encode hid _ _), Decode.bind_ok hread]
    rfl

end ExecuteMessage

/-- A batch that is encoded is read as the batch it stands for. -/
theorem BatchMessage.decode_encodeBody {calls : List BatchCall} {preparedQueryIds : List Bytes}
    {parameters : ProtocolBatchParameters} {encoded : Bytes}
    (hset : ProtocolBatchParameters.setBatchCommand (BatchCommand.build calls) = .ok parameters)
    (hfits : (Batch.build calls).Fits fun i => preparedQueryIds.getD i [])
    (hencode : encodeBody ⟨parameters, preparedQueryIds⟩ [] = (encoded, none)) :
    ∃ level, (Batch.build calls).consistencyLevel = some level ∧
      BatchBody.decode (⟨(), encoded⟩ : Cursor Unit) =
        .ok ((Batch.build calls).body (fun i => preparedQueryIds.getD i []) level) ⟨(), []⟩ := by
  rw [BatchCommand.build_eq] at hset
  cases hlevel : (Batch.build calls).consistencyLevel with
  | none =>
    have hnone : ¬ (Batch.build calls).command.consistencyLevel.isSome := by
      simp [Batch.command, hlevel]
    rw [ProtocolBatchParameters.setBatchCommand, dif_neg hnone] at hset
    cases hset
  | some level =>
    obtain ⟨other, hother, hcommand, hparameters⟩ := Batch.setBatchCommand_eq hlevel
    obtain rfl : parameters = other := Except.ok.inj (hset.symm.trans hother)
    let message : BatchMessage := ⟨parameters, preparedQueryIds⟩
    let entries := (Batch.build calls).entries message.getPreparedQueryId
    have hmessage : message.batchParameters.batchCommand = (Batch.build calls).command := hcommand
    -- a batch that is too large would have thrown
    have hlength : entries.length < 2 ^ 16 := by
      by_contra hlarge
      obtain ⟨written, hwritten⟩ :=
        encodeBody_tooManyQueries hmessage (Nat.not_lt.mp hlarge) []
      rw [hwritten] at hencode
      cases hencode
    have hvalues : ∀ entry ∈ entries, entry.values.length < 2 ^ 16 := by
      by_contra hlarge
      push Not at hlarge
      obtain ⟨written, hwritten⟩ :=
        encodeBody_tooManyParameters hmessage hlength hlarge []
      rw [hwritten] at hencode
      cases hencode
    have hbody : message.encodeBody [] = _ := encodeBody_ok hcommand hlength hvalues []
    rw [hencode, hparameters] at hbody
    obtain ⟨rfl, -⟩ := Prod.mk.inj hbody
    refine ⟨level, rfl, ?_⟩
    simp only [List.nil_append, List.append_assoc]
    exact hfits.decode_body level hlength hvalues

namespace RequestCalls

variable {request : RequestCalls} {order : IterationOrder} {used : RequestMessages} {encoded : Bytes}

/-- Whatever is asked for, encoding it does not read what is not there. -/
theorem throws_encodeBody (order : IterationOrder) (used : RequestMessages) (request : RequestCalls) :
    Throws (request.encodeBody order used) := by
  cases request with
  | startup algorithms => exact ProtocolStringMap.throws_encode _
  | options => exact throws_ok _
  | query calls =>
    cases hfill : used.query.reset.queryParameters.fill calls with
    | error ex =>
      rw [encodeBody, hfill]
      exact throws_exception ex
    | ok parameters =>
      rw [encodeBody, hfill]
      have hset : parameters.StandsFor (QueryOptions.of calls) :=
        (ProtocolQueryParameters.standsFor_reset used.query.queryParameters).fill hfill
      exact QueryMessage.throws_encodeBody ⟨parameters⟩ hset
  | prepare queryStr => exact ProtocolLongString.throws_encode _
  | execute preparedQueryId calls =>
    cases hfill : used.execute.reset.queryParameters.fill calls with
    | error ex =>
      rw [encodeBody, hfill]
      exact throws_exception ex
    | ok parameters =>
      rw [encodeBody, hfill]
      have hset : parameters.StandsFor (QueryOptions.of calls) :=
        (ProtocolQueryParameters.standsFor_reset used.execute.queryParameters).fill hfill
      exact ExecuteMessage.throws_encodeBody ⟨preparedQueryId, parameters⟩ hset
  | register events => exact ProtocolStringList.throws_encode _
  | batch calls preparedQueryIds =>
    exact (throws_liftException _).bind fun _ => throws_encodedOf _
  | authResponse calls =>
    have htoken := BytesCall.foldl_object none calls
    rw [encodeBody]
    show Throws (ProtocolSizedStringBase.encode (calls.foldl BytesCall.apply ⟨[], NullState⟩))
    rw [show (⟨[], NullState⟩ : SizedString) = ProtocolBytes.object none from rfl, htoken,
      BytesCall.encode_object]
    exact ProtocolBytes.throws_encode _

theorem exists_of_liftException {α β : Type} {result : Except Exception α}
    {f : α → Except Failure β} {b : β} (h : (do f (← liftException result)) = .ok b) :
    ∃ a, result = .ok a ∧ f a = .ok b := by
  cases result with
  | error ex => cases h
  | ok a => exact ⟨a, rfl, h⟩

/-- A request that is encoded is read as what was asked for. -/
theorem says_of_encodeBody (h : request.Fits) (hencode : request.encodeBody order used = .ok encoded) :
    ∃ body, RequestBody.decode request.type ⟨(), encoded⟩ = .ok body ⟨(), []⟩ ∧
      request.Says body := by
  cases request with
  | startup algorithms =>
    have hoptions := (StartupMessage.standsFor_reset order used.startup).foldl order algorithms
    have hread := ProtocolStringMap.decode_append (UnorderedMap.nodup _) hencode [] []
    rw [List.append_nil] at hread
    exact ⟨_, Decode.bind_ok (Decode.onLocal_ok (c := ⟨(), encoded⟩) hread) _, hoptions⟩
  | options =>
    cases hencode
    exact ⟨.options, rfl, trivial⟩
  | query calls =>
    obtain ⟨parameters, hfill, hencode⟩ := exists_of_liftException hencode
    have hset : parameters.StandsFor (QueryOptions.of calls) :=
      (ProtocolQueryParameters.standsFor_reset used.query.queryParameters).fill hfill
    obtain ⟨command, read, hread, hreadAs⟩ :=
      QueryMessage.decode_encodeBody ⟨parameters⟩ hset h hencode
    exact ⟨_, hread, command, rfl, hreadAs⟩
  | prepare queryStr =>
    have hread := ProtocolLongString.decode_encode hencode () []
    rw [List.append_nil] at hread
    exact ⟨_, Decode.bind_ok hread _, rfl⟩
  | execute preparedQueryId calls =>
    obtain ⟨parameters, hfill, hencode⟩ := exists_of_liftException hencode
    have hset : parameters.StandsFor (QueryOptions.of calls) :=
      (ProtocolQueryParameters.standsFor_reset used.execute.queryParameters).fill hfill
    obtain ⟨command, read, hread, hreadAs⟩ :=
      ExecuteMessage.decode_encodeBody ⟨preparedQueryId, parameters⟩ hset h hencode
    exact ⟨_, hread, rfl, command, hreadAs⟩
  | register events =>
    have hread := ProtocolStringList.decode_append hencode [] []
    rw [List.append_nil] at hread
    exact ⟨_, Decode.bind_ok (Decode.onLocal_ok (c := ⟨(), encoded⟩) hread) _, rfl⟩
  | batch calls preparedQueryIds =>
    obtain ⟨parameters, hset, hencode⟩ := exists_of_liftException hencode
    have hbody : BatchMessage.encodeBody ⟨parameters, preparedQueryIds⟩ [] = (encoded, none) := by
      generalize BatchMessage.encodeBody ⟨parameters, preparedQueryIds⟩ [] = appended at hencode
      obtain ⟨data, thrown⟩ := appended
      cases thrown with
      | none =>
        cases hencode
        rfl
      | some ex => cases hencode
    obtain ⟨level, hlevel, hread⟩ := BatchMessage.decode_encodeBody hset h hbody
    exact ⟨_, Decode.bind_ok hread _, level, hlevel, rfl⟩
  | authResponse calls =>
    have htoken : calls.foldl BytesCall.apply ⟨[], NullState⟩ =
        ProtocolBytes.object (calls.foldl BytesCall.value none) := BytesCall.foldl_object none calls
    have hbytes : ProtocolBytes.encode (calls.foldl BytesCall.value none) = .ok encoded := by
      rw [← BytesCall.encode_object, ← htoken]
      exact hencode
    have hread : ProtocolBytes.decode (⟨(), encoded ++ []⟩ : Cursor Unit) = _ :=
      ProtocolBytes.decode_append hbytes
    rw [List.append_nil] at hread
    exact ⟨_, Decode.bind_ok hread _, rfl⟩

/-- Whatever the message objects were used for, encoding a request throws, or the body is read as
what was asked for. -/
theorem sends_of_fits (order : IterationOrder) (used : RequestMessages) (h : request.Fits) :
    request.Sends order used := by
  rw [Sends]
  cases hencode : request.encodeBody order used with
  | ok encoded => exact says_of_encodeBody h hencode
  | error failure =>
    obtain ⟨ex, rfl⟩ := throws_encodeBody order used request failure hencode
    trivial

/-- Objects that a long query has left behind. -/
def usedForPage : RequestMessages where
  startup := ⟨.empty⟩
  query := ⟨⟨0x3f, some (Command.build [0x71] [.setPageSize 7, .setPagingState [0x01]])⟩⟩
  prepare := ⟨[0x71]⟩
  execute := ⟨[0x01], ⟨0x3f, none⟩⟩
  register := ⟨[[0x65]]⟩
  authResponse := ⟨⟨[0x70], NormalState⟩⟩

/-- A page of a hundred rows, of which nothing but the rows is asked for. -/
def hundredRows : RequestCalls :=
  .query [.setSkipMetadata true, .setCommand [0x71] [.setConsistency .one, .setPageSize 100]]

theorem fits_hundredRows : hundredRows.Fits := by
  intro command hcommand
  obtain rfl := Option.some.inj hcommand
  refine ⟨by decide, .inr ⟨fun pageSize hpageSize => ?_, fun _ => by decide, ?_⟩⟩
  · obtain rfl := Option.some.inj hpageSize
    exact .inl (by decide)
  · refine Command.isValues_build [0x71] fun call hcall parameter hparameter => ?_
    simp only [List.mem_cons, List.not_mem_nil, or_false] at hcall
    rcases hcall with rfl | rfl <;> cases hparameter

/-- The page is asked for, and nothing of the last one. -/
theorem sends_hundredRows : ∃ body, RequestBody.decode .query
    ⟨(), [0, 0, 0, 1, 0x71, 0, 1, 6, 0, 0, 0, 100]⟩ = .ok body ⟨(), []⟩ ∧ hundredRows.Says body := by
  have hsends := sends_of_fits .append usedForPage fits_hundredRows
  have hencode : hundredRows.encodeBody .append usedForPage =
      .ok [0, 0, 0, 1, 0x71, 0, 1, 6, 0, 0, 0, 100] := by rfl
  rwa [Sends, hencode] at hsends

end RequestCalls

end CqlDriver
