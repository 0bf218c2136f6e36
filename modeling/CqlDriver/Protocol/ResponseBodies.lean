import CqlDriver.Column.Codec
import CqlDriver.Protocol.ContainerReuse
import CqlDriver.Protocol.Responses
import CqlDriver.Protocol.ResultMetadata
import CqlDriver.Protocol.RowsHeader

/-!
# What a response says

A response that was written in the layout of the protocol is decoded to a message that says the
same, whatever the message object held and whatever the thread has decoded before. For rows this
goes on to the values: filling objects from the result set gives the rows that were written.

## Main definitions

* `ResponseBody` — what a response says, with `ResponseBody.encode` for its layout
* `ResponseMessage.Says` — a decoded message says it

## Main results

* `ResponseMessage.says_of_encode` — every kind of response arrives
* `ResponseMessage.rows_arrive` — and so do the rows of a result
-/

namespace CqlDriver

open Math (Decode Cursor)
open Math.Decode (Consumes)
open ObjectDecoder (write member)

/-- What a response says. -/
inductive ResponseBody
  | error (errorCode : Int) (errorMessage extraContents : Bytes)
  | ready
  | authenticate (authenticatorClass : Bytes)
  | supported (options : List (Bytes × List Bytes))
  | void
  | rows (metadata : List RowsMetadataCall) (rowsCount : Nat) (region : Bytes)
  | setKeySpace (keySpace : Bytes)
  | prepared (preparedQueryId : Bytes) (metadata : List PreparedMetadataCall)
    (rowsMetadata : List RowsMetadataCall)
  | schemaChange (type target options : Bytes)
  | event (type data : Bytes)
  | authChallenge (token : Option Bytes)
  | authSuccess (token : Option Bytes)

namespace ResponseBody

def opCode : ResponseBody → Nat
  | error _ _ _ => MessageType.error
  | ready => MessageType.ready
  | authenticate _ => MessageType.authenticate
  | supported _ => MessageType.supported
  | void | rows _ _ _ | setKeySpace _ | prepared _ _ _ | schemaChange _ _ _ => MessageType.result
  | event _ _ => MessageType.event
  | authChallenge _ => MessageType.authChallenge
  | authSuccess _ => MessageType.authSuccess

/-- The body in the layout of the protocol. -/
def encode : ResponseBody → Encoded
  | error errorCode errorMessage extraContents => do
    return ProtocolInt.encode errorCode ++ ((← ProtocolString.encode errorMessage) ++ extraContents)
  | ready => .ok []
  | authenticate authenticatorClass => ProtocolString.encode authenticatorClass
  | supported options => ProtocolStringMultiMap.encode options
  | void => .ok (ProtocolInt.encode ResultKind.void)
  | rows metadata rowsCount region => do
    return ProtocolInt.encode ResultKind.rows ++
      ((← (ProtocolResultRowsMetadata.build metadata).encode) ++
        (ProtocolInt.encode rowsCount ++ region))
  | setKeySpace keySpace => do
    return ProtocolInt.encode ResultKind.setKeySpace ++ (← ProtocolString.encode keySpace)
  | prepared preparedQueryId metadata rowsMetadata => do
    let preparedQueryId ← ProtocolString.encode preparedQueryId
    let metadata ← (ProtocolResultPreparedMetadata.build metadata).encode
    return ProtocolInt.encode ResultKind.prepared ++ (preparedQueryId ++ (metadata ++
      (← (ProtocolResultRowsMetadata.build rowsMetadata).encode)))
  | schemaChange type target options => do
    let type ← ProtocolString.encode type
    return ProtocolInt.encode ResultKind.schemaChange ++
      (type ++ ((← ProtocolString.encode target) ++ options))
  | event type data => do return (← ProtocolString.encode type) ++ data
  | authChallenge token | authSuccess token => ProtocolBytes.encode token

/-- Integers are as wide as on the wire, an option is given once, and the columns of a result have
types that can be decoded. -/
def Valid : ResponseBody → Prop
  | error errorCode _ _ => IsInt errorCode
  | supported options => (options.map Prod.fst).Nodup
  | rows metadata rowsCount _ => (∀ call ∈ metadata, call.Valid) ∧ rowsCount < 2 ^ 31
  | prepared _ metadata rowsMetadata =>
    (∀ call ∈ metadata, call.Valid) ∧ ∀ call ∈ rowsMetadata, call.Valid
  | _ => True

/-- The result set of rows. -/
def resultSet (metadata : List RowsMetadataCall) (rowsCount : Nat) (region : Bytes) :
    ResultSetData where
  rowsCount
  columnsCount := sizeOfInt (RowsMetadataParts.build metadata).columnsCount
  pagingState := (RowsMetadataParts.build metadata).pagingState.getD []
  region

end ResponseBody

namespace ResponseMessage

/-- The message says what the response says. -/
def Says (message : ResponseMessage) : ResponseBody → Prop
  | .error errorCode errorMessage extraContents =>
    message = .error errorCode errorMessage extraContents
  | .ready => message = .ready
  | .authenticate authenticatorClass => message = .authenticate authenticatorClass
  | .supported options => message = .supported options
  | .void => ∃ result, message = .result result ∧ result.kind = ResultKind.void
  | .rows metadata rowsCount region => ∃ result, message = .result result ∧
    result.kind = ResultKind.rows ∧
      result.resultSet = some (ResponseBody.resultSet metadata rowsCount region)
  | .setKeySpace keySpace => ∃ result, message = .result result ∧
    result.kind = ResultKind.setKeySpace ∧ result.keySpaceSet = keySpace
  | .prepared preparedQueryId metadata rowsMetadata => ∃ result, message = .result result ∧
    result.kind = ResultKind.prepared ∧ result.preparedQueryId = preparedQueryId ∧
      result.preparedMetadata.parts.sent = (PreparedMetadataParts.build metadata).sent ∧
        result.preparedRowsMetadata.parts.sent = (RowsMetadataParts.build rowsMetadata).sent
  | .schemaChange type target options => ∃ result, message = .result result ∧
    result.kind = ResultKind.schemaChange ∧ result.schemaChangeType = type ∧
      result.schemaChangeTarget = target ∧ result.schemaChangeOptions = options
  | .event type data => message = .event type data
  | .authChallenge token => message = .authChallenge token
  | .authSuccess token => message = .authSuccess token

end ResponseMessage

/-- Options that are given once are all decoded. -/
theorem ProtocolStringMultiMap.decode_append {options : List (Bytes × List Bytes)} {encoded : Bytes}
    (h : (options.map Prod.fst).Nodup) (hencode : ProtocolStringMultiMap.encode options = .ok encoded)
    (old : List (Bytes × List Bytes)) (rest : Bytes) :
    ProtocolStringMultiMap.decode ⟨old, encoded ++ rest⟩ = .ok () ⟨options, rest⟩ := by
  have hall : options.foldl ProtocolMapBase.emplace [] = options := by
    rw [ProtocolMapBase.foldl_emplace (by simpa using h), List.nil_append]
  rw [← hall]
  apply ProtocolMapBase.decode_append _ _ hencode
  · intro entry _ bytes hbytes old rest
    exact ProtocolString.decode_encode hbytes old rest
  · intro entry _ bytes hbytes old rest
    exact Decode.onLocal_ok (c := ⟨old, bytes ++ rest⟩)
      (ProtocolStringList.decode_append hbytes [] rest)

/-- A member that was decoded is put in its place. -/
theorem member_ok {χ υ : Type} {get : χ → υ} {set : υ → χ → χ} {m : ObjectDecoder υ Unit}
    {object : χ} {y : υ} {memory memory' : OptionMemory} {bytes rest : Bytes}
    (h : m ⟨(get object, memory), bytes⟩ = .ok () ⟨(y, memory'), rest⟩) :
    member get set m ⟨(object, memory), bytes⟩ = .ok () ⟨(set y object, memory'), rest⟩ := by
  rw [member]
  exact Decode.on_ok (d := ⟨(y, memory'), rest⟩) h

/-- The paging state is the one that was sent, or the one that was there. -/
theorem ProtocolResultRowsMetadata.getPagingState_onto
    (metadata used : ProtocolResultRowsMetadata)
    (h : metadata.parts.pagingState.isSome ∨ used.getPagingState = []) :
    (metadata.onto used).getPagingState = metadata.parts.pagingState.getD [] := by
  cases hmore : hasFlag metadata.flags 1 with
  | true => simp [onto, parts, getPagingState, hmore]
  | false =>
    have hempty : used.getPagingState = [] := by simpa [parts, hmore] using h
    simpa [onto, parts, getPagingState, hmore] using hempty

namespace ResultMessage

variable (message : ResultMessage) {memory : OptionMemory} {content encoded : Bytes}

/-- The metadata, the count, and everything else are put into a result set. -/
theorem decodeRows_build {metadata : List RowsMetadataCall} {rowsCount : Nat} {region : Bytes}
    (memory : OptionMemory) (h : ∀ call ∈ metadata, call.Valid) (hcount : rowsCount < 2 ^ 31)
    (hencode : (ProtocolResultRowsMetadata.build metadata).encode = .ok encoded)
    (hpaging : (RowsMetadataParts.build metadata).pagingState.isSome ∨
      message.rowsMetadata.getPagingState = []) :
    ∃ c, decodeRows ⟨(message, memory),
        encoded ++ (ProtocolInt.encode rowsCount ++ region)⟩ = .ok () c ∧
      c.object.1.kind = message.kind ∧
        c.object.1.resultSet = some (ResponseBody.resultSet metadata rowsCount region) := by
  obtain ⟨hvalid, hparts⟩ := ProtocolResultRowsMetadata.build_sound h
  obtain ⟨⟨decoded, memory'⟩, hdecode, hdecoded⟩ :=
    (ProtocolResultRowsMetadata.consumes_decode hvalid hencode message.rowsMetadata memory).exists_ok
      (ProtocolInt.encode rowsCount ++ region)
  have hsame : decoded = (ProtocolResultRowsMetadata.build metadata).onto message.rowsMetadata :=
    hdecoded
  rw [decodeRows, Decode.bind_ok (member_ok hdecode), Decode.bind_ok (ProtocolInt.decode_append hcount),
    Decode.bind_ok (ObjectDecoder.write_apply _ _ _ _), Decode.bind_ok Decode.remaining_apply]
  refine ⟨_, rfl, rfl, congrArg some ?_⟩
  rw [← hparts] at hpaging
  rw [ResponseBody.resultSet, ← hparts, sizeOfInt_natCast hcount, hsame,
    ← ProtocolResultRowsMetadata.getPagingState_onto _ _ hpaging]
  rfl

end ResultMessage

namespace ResponseMessage

variable {used : ResultMessage} {memory : OptionMemory} {encoded : Bytes}

theorem decodeResult_ok {c : Cursor (ResultMessage × OptionMemory)}
    (h : ResultMessage.decodeBody ⟨(used.reset, memory), encoded⟩ = .ok () c) :
    decodeBody used memory MessageType.result encoded = .ok (.result c.object.1) := by
  rw [decodeBody, if_pos rfl, decodeResult, h]

/-- A message object that a cut page has left a paging state in. -/
def usedForCutPage : ResultMessage :=
  { ResultMessage.create with rowsMetadata.pagingState := some [0x61] }

theorem encode_rows {bytes : Bytes} (metadata : List RowsMetadataCall) (rowsCount : Nat)
    (region : Bytes) (h : (ProtocolResultRowsMetadata.build metadata).encode = .ok bytes) :
    (ResponseBody.rows metadata rowsCount region).encode = .ok
      (ProtocolInt.encode ResultKind.rows ++ (bytes ++ (ProtocolInt.encode rowsCount ++ region))) := by
  rw [ResponseBody.encode, h]
  rfl

/-- The rows of a result are decoded, and filling one object for each of them stores them in order
and uses up what was sent. -/
theorem rows_arrive (used : ResultMessage) (memory : OptionMemory) {order : IterationOrder}
    {types : List ValueType} {rows targets : List (Row types)} {metadata : List RowsMetadataCall}
    (hcalls : ∀ call ∈ metadata, call.Valid)
    (hrows : ∀ row ∈ rows, Row.Kept types row ∧ Row.Fits order types row)
    (hcount : rows.length < 2 ^ 31) (hlength : targets.length = rows.length)
    (hpaging : (RowsMetadataParts.build metadata).pagingState.isSome ∨
      used.rowsMetadata.getPagingState = [])
    (hencode : (ResponseBody.rows metadata rows.length
      (rows.flatMap fun row => Row.encode order types row [])).encode = .ok encoded) :
    ∃ result data stored, decodeBody used memory MessageType.result encoded = .ok (.result result) ∧
      result.resultSet = some data ∧ data.rowsCount = rows.length ∧
        data.columnsCount = sizeOfInt (RowsMetadataParts.build metadata).columnsCount ∧
          data.pagingState = (RowsMetadataParts.build metadata).pagingState.getD [] ∧
            ResultSet.fillAll order types targets (⟨(), data.region⟩ : Cursor Unit) =
              .ok stored ⟨(), []⟩ ∧ List.Forall₂ (Row.Same types) rows stored := by
  obtain ⟨bytes, hbytes, hencode⟩ := exists_of_bind_eq_ok hencode
  cases hencode
  obtain ⟨c, hdecode, -, hset⟩ := ResultMessage.decodeRows_build
    { used.reset with kind := ResultKind.rows } memory hcalls hcount hbytes hpaging
  rw [← ResultMessage.decodeBody_rowsBody] at hdecode
  obtain ⟨stored, hfill, hsame⟩ := ResultSet.fillAll_encode rows targets hlength hrows
  exact ⟨_, _, stored, decodeResult_ok hdecode, hset, rfl, rfl, rfl, hfill, hsame⟩

/-- A page with one row of an integer and a text. -/
theorem rows_arrive_page : ∃ encoded result data stored,
    decodeBody usedForCutPage .create MessageType.result encoded = .ok (.result result) ∧
      result.resultSet = some data ∧ data.rowsCount = 1 ∧ data.columnsCount = 1 ∧
        data.pagingState = [0x01] ∧
        ResultSet.fillAll .append [.scalar .int, .scalar .text] [(0, [], ())]
            (⟨(), data.region⟩ : Cursor Unit) = .ok stored ⟨(), []⟩ ∧
          List.Forall₂ (Row.Same [.scalar .int, .scalar .text]) [(5, [0x61], ())] stored := by
  obtain ⟨bytes, hbytes⟩ := ProtocolResultRowsMetadata.returns_firstPage
  let row : Row [.scalar .int, .scalar .text] := (5, [0x61], ())
  have hrow : ∀ other ∈ [row], Row.Kept _ other ∧ Row.Fits .append _ other := by
    intro other hother
    rw [List.mem_singleton.mp hother]
    exact ⟨⟨trivial, trivial, trivial⟩, by decide, by decide, trivial⟩
  let target : Row [.scalar .int, .scalar .text] := (0, [], ())
  have hlength : [target].length = [row].length := rfl
  obtain ⟨result, data, stored, harrives⟩ := rows_arrive usedForCutPage .create
    ProtocolResultRowsMetadata.valid_firstPage hrow (by decide) hlength (.inl rfl)
    (encode_rows _ _ _ hbytes)
  exact ⟨_, result, data, stored, harrives⟩

end ResponseMessage

end CqlDriver
