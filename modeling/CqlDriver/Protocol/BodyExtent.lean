import CqlDriver.Math.DecodeTracks
import CqlDriver.Protocol.Responses

/-!
# The members of a message body

The body of a message begins with members of a fixed size, or with their size or their
number in front. What follows them is kept as it is, or not looked at. The functions below
only skip the members, without an object to decode into: a body is complete up to there when
they find enough bytes.

## Main definitions

* `BodyExtent.option`, `BodyExtent.rowsMetadata`, `BodyExtent.preparedMetadata`,
  `BodyExtent.result` — the members of a RESULT message
* `BodyExtent.body`, `BodyExtent.check` — the members of a message with an opcode

## Main results

* `BodyExtent.body_of_decodeBody`, `BodyExtent.check_of_decodeBody` — a body that is decoded has all
  its members
-/

namespace CqlDriver

open Math (Decode Cursor)
open Math.Decode (Quiet Tracks)

namespace BodyExtent

/-! ## Skipping -/

/-- A [string] or [short bytes]. -/
def string : Decoder Unit Unit := do
  let _ ← ProtocolString.decode

/-- A [bytes]. -/
def bytes : Decoder Unit Unit := do
  let _ ← ProtocolBytes.decode

/-- A [short] n, followed by n [string]. -/
def stringList : Decoder Unit Unit := do
  let size ← ProtocolShort.decode
  Decode.times string size

/-- A [short] n, followed by n pairs of a [string] and a [string list]. -/
def stringMultiMap : Decoder Unit Unit := do
  let size ← ProtocolShort.decode
  Decode.times (do string; stringList) size

/-- A column type; the first argument bounds the nesting. -/
def option : Nat → Decoder Unit Unit
  | 0 => throw .tooDeep
  | depth + 1 => do
    let type ← ProtocolShort.decode
    if type = ColumnType.custom then string
    else if type = ColumnType.list then option depth
    else if type = ColumnType.map then do option depth; option depth
    else if type = ColumnType.set then option depth
    else if type = ColumnType.udt then do
      string
      string
      let fields ← ProtocolShort.decode
      Decode.times (do string; option depth) fields
    else if type = ColumnType.tuple then do
      let types ← ProtocolShort.decode
      Decode.times (option depth) types

/-- A column, with its keyspace and table unless they are global. -/
def column (containsTableSpec : Bool) : Decoder Unit Unit := do
  if containsTableSpec then
    string
    string
  string
  fun c => option (c.rest.length + 1) c

/-- The columns behind the flags of the metadata. -/
def columns (flags columnsCount : Int) : Decoder Unit Unit := do
  if hasFlag flags 0 then
    string
    string
  Decode.times (column (!hasFlag flags 0)) columnsCount.toNat

def rowsMetadata : Decoder Unit Unit := do
  let flags ← ProtocolInt.decode
  let columnsCount ← ProtocolInt.decode
  if hasFlag flags 1 then
    bytes
  if !hasFlag flags 2 then
    columns flags columnsCount

def preparedMetadata : Decoder Unit Unit := do
  let flags ← ProtocolInt.decode
  let columnsCount ← ProtocolInt.decode
  let partitionKeyIndexesCount ← ProtocolInt.decode
  Decode.times (do let _ ← ProtocolShort.decode) partitionKeyIndexesCount.toNat
  columns flags columnsCount

/-- The members of a RESULT message. The content of rows and the options of a schema change
follow. -/
def result : Decoder Unit Unit := do
  let kind ← ProtocolInt.decode
  if kind = ResultKind.void then
    pure ()
  else if kind = ResultKind.rows then do
    rowsMetadata
    let _ ← ProtocolInt.decode
  else if kind = ResultKind.setKeySpace then
    string
  else if kind = ResultKind.prepared then do
    string
    preparedMetadata
    rowsMetadata
  else if kind = ResultKind.schemaChange then do
    string
    string
  else
    throw (.exception (ResultMessage.unsupportedKind kind))

/-- The members of a message. -/
def body (opCode : Nat) : Decoder Unit Unit :=
  if opCode = MessageType.result then result
  else if opCode = MessageType.error then do
    let _ ← ProtocolInt.decode
    string
  else if opCode = MessageType.event then string
  else if opCode = MessageType.ready then pure ()
  else if opCode = MessageType.supported then stringMultiMap
  else if opCode = MessageType.authenticate then string
  else if opCode = MessageType.authSuccess then bytes
  else if opCode = MessageType.authChallenge then bytes
  else throw ResponseMessage.unsupportedMessageType

/-- Whether a content has all the members. -/
def check (opCode : Nat) (content : Bytes) : Except Failure Unit :=
  match body opCode ⟨(), content⟩ with
  | .ok _ _ => .ok ()
  | .error failure _ => .error failure

/-! ## The decode functions skip the same -/

section Tracking

variable {σ : Type}

/-- The results are not compared. -/
abbrev Skips {α : Type} (m : Decoder σ α) (n : Decoder Unit Unit) : Prop :=
  Tracks (fun _ _ => True) m n

theorem tracks_short {τ : Type} :
    Tracks Eq (ProtocolShort.decode : Decoder σ Nat) (ProtocolShort.decode : Decoder τ Nat) :=
  Decode.tracks_number

theorem tracks_int {τ : Type} :
    Tracks Eq (ProtocolInt.decode : Decoder σ Int) (ProtocolInt.decode : Decoder τ Int) :=
  Decode.tracks_number.map_eq

theorem tracks_string {τ : Type} :
    Tracks Eq (ProtocolString.decode : Decoder σ Bytes) (ProtocolString.decode : Decoder τ Bytes) :=
  tracks_short.read fun _ => Decode.tracks_take

theorem tracks_bytes {τ : Type} : Tracks Eq (ProtocolBytes.decode : Decoder σ (Option Bytes))
    (ProtocolBytes.decode : Decoder τ (Option Bytes)) := by
  refine tracks_int.read fun size => .ite (fun _ => Decode.tracks_take.map_eq) fun _ => .pure rfl

theorem skips_string : Skips (ProtocolString.decode : Decoder σ Bytes) string :=
  (@tracks_string σ Unit).discard

theorem skips_bytes : Skips (ProtocolBytes.decode : Decoder σ (Option Bytes)) bytes :=
  (@tracks_bytes σ Unit).discard

/-- The elements of a list are decoded in place, or appended first. -/
theorem skips_decodeFrom {α : Type} {start : α} {decodeElement : Decoder α Unit}
    {element : Decoder Unit Unit} (h : Skips decodeElement element) (count i : Nat) :
    Skips (ProtocolListBase.decodeFrom start decodeElement count i)
      (Decode.times element count) := by
  induction count generalizing i with
  | zero => exact .pure trivial
  | succ count ih =>
    refine .quiet .object fun value => ?_
    split
    · exact .quiet (.update _) fun _ => h.on.bind fun _ _ _ => ih (i + 1)
    · exact h.on.bind fun _ _ _ => ih (i + 1)

theorem skips_stringList : Skips ProtocolStringList.decode stringList := by
  have hstring : Skips ProtocolString.decodeInto string :=
    skips_string.then_quiet fun _ => .update _
  refine tracks_short.read fun size => ?_
  split
  · exact .quiet (.update _) fun _ => skips_decodeFrom hstring size 0
  · exact .quiet (.update _) fun _ => skips_decodeFrom hstring size 0

theorem skips_stringMultiMap : Skips ProtocolStringMultiMap.decode stringMultiMap := by
  refine tracks_short.read fun size => .quiet (.update _) fun _ => Tracks.times ?_ size
  exact skips_string.bind fun _ _ _ => skips_stringList.onLocal.then_quiet fun _ => .update _

end Tracking

/-! ## Column types -/

section Options

open ProtocolColumnOption

theorem quiet_atPlace (place : Place) : Quiet (atPlace place) := by
  refine .bind .object fun memory => ?_
  split
  · exact .pure _
  · exact .throw _

theorem quiet_start (place : Place) (type : Nat) : Quiet (start place type) :=
  .bind (quiet_atPlace place) fun _ => .update _

theorem quiet_append (place : Place) (bytes : Bytes) : Quiet (append place bytes) :=
  .bind (quiet_atPlace place) fun _ => .update _

theorem quiet_encodeInto (source target : Place) : Quiet (encodeInto source target) := by
  refine .bind (quiet_atPlace source) fun option => .ite (.throw _) ?_
  exact .bind (quiet_append _ _) fun _ => .bind (quiet_atPlace source) fun _ => quiet_append _ _

theorem quiet_ofEncoded (encoded : Encoded) : Quiet (ofEncoded encoded : Decoder OptionMemory Bytes) := by
  cases encoded with
  | ok bytes => exact .pure _
  | error failure => exact .throw _

theorem skips_decodeUDTPayload {decodeOption : Place → Decoder OptionMemory Unit} {depth : Nat}
    (h : ∀ place, Skips (decodeOption place) (option depth)) :
    Skips (decodeUDTPayload decodeOption) (do
      string
      string
      let fields ← ProtocolShort.decode
      Decode.times (do string; option depth) fields) := by
  refine skips_string.bind fun _ _ _ => .quiet (.update _) fun _ => ?_
  refine skips_string.bind fun _ _ _ => .quiet (.update _) fun _ => ?_
  refine tracks_short.read fun fields => .quiet (.update _) fun _ => Tracks.times ?_ fields
  -- a field is appended, and then decoded in its place
  refine .quiet .object fun memory => .quiet (.update _) fun _ => ?_
  exact skips_string.bind fun _ _ _ => .quiet (.update _) fun _ => h _

theorem skips_decodeTuplePayload {decodeOption : Place → Decoder OptionMemory Unit} {depth : Nat}
    (h : ∀ place, Skips (decodeOption place) (option depth)) :
    Skips (decodeTuplePayload decodeOption) (do
      let types ← ProtocolShort.decode
      Decode.times (option depth) types) := by
  refine tracks_short.read fun types => .quiet (.update _) fun _ => Tracks.times ?_ types
  exact .quiet .object fun memory => .quiet (.update _) fun _ => h _

/-- Whatever decoding an option does to the payload objects, it reads the members of the
column type. -/
theorem skips_option (depth : Nat) (place : Place) : Skips (decode depth place) (option depth) := by
  induction depth generalizing place with
  | zero => exact .throw _
  | succ depth ih =>
    refine tracks_short.read fun type => .quiet (quiet_start place type) fun _ => ?_
    refine .ite (fun _ => ?custom) fun _ => .ite (fun _ => ?list) fun _ =>
      .ite (fun _ => ?map) fun _ => .ite (fun _ => ?set) fun _ => .ite (fun _ => ?udt) fun _ =>
      .ite (fun _ => ?tuple) fun _ => .pure trivial
    case custom =>
      refine skips_string.then_quiet fun payload => ?_
      exact .bind (quiet_ofEncoded _) fun _ => quiet_append _ _
    case list => exact (ih _).then_quiet fun _ => quiet_encodeInto _ _
    case map =>
      refine (ih _).bind fun _ _ _ => (ih _).then_quiet fun _ => ?_
      exact .bind (quiet_encodeInto _ _) fun _ => quiet_encodeInto _ _
    case set => exact (ih _).then_quiet fun _ => quiet_encodeInto _ _
    case udt =>
      refine (skips_decodeUDTPayload ih).then_quiet fun _ => ?_
      exact .bind .object fun _ => .bind (quiet_ofEncoded _) fun _ => quiet_append _ _
    case tuple =>
      refine (skips_decodeTuplePayload ih).then_quiet fun _ => ?_
      exact .bind .object fun _ => .bind (quiet_ofEncoded _) fun _ => quiet_append _ _

/-- The bound of the nesting comes from the bytes that are left. -/
theorem skips_decodeObject :
    Skips decodeObject (fun c => option (c.rest.length + 1) c : Decoder Unit Unit) :=
  fun c => skips_option (c.rest.length + 1) .object c

end Options

/-! ## Metadata -/

theorem quiet_write {χ : Type} (f : χ → χ) : Quiet (ObjectDecoder.write f) := .update _

theorem skips_column (containsTableSpec : Bool) :
    Skips (ProtocolResultColumn.decode containsTableSpec) (column containsTableSpec) := by
  have hrest : Skips (ProtocolResultColumn.decode false) (column false) := by
    refine skips_string.bind fun _ _ _ => .quiet (quiet_write _) fun _ => ?_
    exact skips_decodeObject.on
  cases containsTableSpec with
  | false => exact hrest
  | true =>
    refine skips_string.bind fun _ _ _ => .quiet (quiet_write _) fun _ => ?_
    exact skips_string.bind fun _ _ _ => .quiet (quiet_write _) fun _ => hrest

theorem skips_decodeColumns (containsTableSpec : Bool) (count i : Nat) :
    Skips (ProtocolResultColumn.decodeColumns containsTableSpec count i)
      (Decode.times (column containsTableSpec) count) := by
  induction count generalizing i with
  | zero => exact .pure trivial
  | succ count ih =>
    have hcolumn : Skips (ProtocolResultColumn.decodeAt containsTableSpec i)
        (column containsTableSpec) := by
      rw [ProtocolResultColumn.decodeAt]
      exact (skips_column containsTableSpec).on
    refine .quiet .object fun s => ?_
    split
    · exact .quiet (quiet_write _) fun _ => hcolumn.bind fun _ _ _ => ih (i + 1)
    · exact hcolumn.bind fun _ _ _ => ih (i + 1)

theorem skips_rowsColumns (flags columnsCount : Int) :
    Skips (ProtocolResultRowsMetadata.decodeColumns flags columnsCount)
      (Decode.times (column (!hasFlag flags 0)) columnsCount.toNat) := by
  rw [ProtocolResultRowsMetadata.decodeColumns]
  split
  · exact .throw _
  · exact .quiet (quiet_write _) fun _ => (skips_decodeColumns _ _ _).on

theorem skips_decodeSpecs (flags columnsCount : Int) :
    Skips (ProtocolResultRowsMetadata.decodeSpecs flags columnsCount)
      (columns flags columnsCount) := by
  rw [ProtocolResultRowsMetadata.decodeSpecs, columns]
  by_cases hglobal : hasFlag flags 0 = true
  · rw [if_pos hglobal, if_pos hglobal]
    refine skips_string.bind fun _ _ _ => .quiet (quiet_write _) fun _ => ?_
    refine skips_string.bind fun _ _ _ => .quiet (quiet_write _) fun _ => ?_
    exact skips_rowsColumns flags columnsCount
  · rw [if_neg hglobal, if_neg hglobal]
    exact skips_rowsColumns flags columnsCount

theorem skips_rowsMetadata : Skips ProtocolResultRowsMetadata.decode rowsMetadata := by
  refine tracks_int.read fun flags => .quiet (quiet_write _) fun _ => ?_
  refine tracks_int.read fun columnsCount => .quiet (quiet_write _) fun _ => ?_
  have hspecs := skips_decodeSpecs flags columnsCount
  have hrest : Skips
      (if !hasFlag flags 2 then ProtocolResultRowsMetadata.decodeSpecs flags columnsCount else pure ())
      (if !hasFlag flags 2 then columns flags columnsCount else pure ()) :=
    .ite (fun _ => hspecs) fun _ => .pure trivial
  by_cases hpaging : hasFlag flags 1 = true
  · rw [if_pos hpaging, if_pos hpaging]
    exact skips_bytes.bind fun _ _ _ => .quiet (quiet_write _) fun _ => hrest
  · rw [if_neg hpaging, if_neg hpaging]
    exact hrest

theorem skips_preparedMetadata : Skips ProtocolResultPreparedMetadata.decode preparedMetadata := by
  refine tracks_int.read fun flags => .quiet (quiet_write _) fun _ => ?_
  refine tracks_int.read fun columnsCount => tracks_int.read fun partitionKeyIndexesCount => ?_
  split
  · exact .throw _
  split
  · exact .throw _
  refine .quiet (quiet_write _) fun _ => ?_
  have hindex : Skips (do
      let index ← ProtocolShort.decode
      ObjectDecoder.write fun metadata => { metadata with
        partitionKeyIndexes := metadata.partitionKeyIndexes ++ [index] } :
        ObjectDecoder ProtocolResultPreparedMetadata Unit)
      (do let _ ← ProtocolShort.decode) :=
    (@tracks_short _ Unit).discard.then_quiet fun _ => quiet_write _
  refine (hindex.times _).bind fun _ _ _ => ?_
  rw [columns]
  by_cases hglobal : hasFlag flags 0 = true
  · rw [if_pos hglobal, if_pos hglobal]
    refine skips_string.bind fun _ _ _ => .quiet (quiet_write _) fun _ => ?_
    refine skips_string.bind fun _ _ _ => .quiet (quiet_write _) fun _ => ?_
    exact .quiet (quiet_write _) fun _ => (skips_decodeColumns _ _ _).on
  · rw [if_neg hglobal, if_neg hglobal]
    exact .quiet (quiet_write _) fun _ => (skips_decodeColumns _ _ _).on

/-! ## Messages -/

theorem skips_result : Skips ResultMessage.decodeBody result := by
  refine tracks_int.read fun kind => .quiet (quiet_write _) fun _ => ?_
  refine .ite (fun _ => .pure trivial) fun _ => .ite (fun _ => ?rows) fun _ =>
    .ite (fun _ => ?setKeySpace) fun _ => .ite (fun _ => ?prepared) fun _ =>
    .ite (fun _ => ?schemaChange) fun _ => .throw _
  case rows =>
    refine skips_rowsMetadata.on.bind fun _ _ _ => ?_
    refine (@tracks_int _ Unit).discard.then_quiet fun _ => ?_
    -- the content of the rows is taken as it is
    exact .bind (quiet_write _) fun _ => .bind .remaining fun _ => quiet_write _
  case setKeySpace => exact skips_string.then_quiet fun _ => quiet_write _
  case prepared =>
    refine skips_string.bind fun _ _ _ => .quiet (quiet_write _) fun _ => ?_
    exact skips_preparedMetadata.on.bind fun _ _ _ => skips_rowsMetadata.on
  case schemaChange =>
    refine skips_string.bind fun _ _ _ => .quiet (quiet_write _) fun _ => ?_
    refine skips_string.then_quiet fun _ => ?_
    exact .bind (quiet_write _) fun _ => .bind .remaining fun _ => quiet_write _

/-- When a message comes of the content, the content has all the members. -/
def Covers (content : Bytes) (decoded : Except Failure ResponseMessage) (n : Decoder Unit Unit) :
    Prop :=
  ∀ message, decoded = .ok message → ∃ rest, n ⟨(), content⟩ = .ok () ⟨(), rest⟩

variable {content : Bytes} {decoded decoded' : Except Failure ResponseMessage}
  {n n' : Decoder Unit Unit}

theorem Covers.ite {p : Prop} [Decidable p] (h : Covers content decoded n)
    (h' : Covers content decoded' n') :
    Covers content (if p then decoded else decoded') (if p then n else n') := by
  split
  · exact h
  · exact h'

theorem Covers.run {m : Decoder Unit ResponseMessage} (h : Skips m n) :
    Covers content (ResponseMessage.run m content) n := by
  intro message hrun
  rw [ResponseMessage.run] at hrun
  split at hrun
  next hm =>
    obtain ⟨_, _, hn, -⟩ := h _ _ _ () hm
    exact ⟨_, hn⟩
  · cases hrun

theorem Covers.decodeResult (used : ResultMessage) (memory : OptionMemory) :
    Covers content (ResponseMessage.decodeResult used memory content) result := by
  intro message hdecode
  rw [ResponseMessage.decodeResult] at hdecode
  split at hdecode
  next hm =>
    obtain ⟨_, _, hn, -⟩ := skips_result _ _ _ () hm
    exact ⟨_, hn⟩
  · cases hdecode

/-- A body that is decoded has all its members. -/
theorem body_of_decodeBody (used : ResultMessage) (memory : OptionMemory) (opCode : Nat)
    (content : Bytes) :
    Covers content (ResponseMessage.decodeBody used memory opCode content) (body opCode) := by
  refine .ite (.decodeResult used memory) <| .ite (.run ?error) <| .ite (.run ?event) <|
    .ite (.run (.pure trivial)) <| .ite (.run ?supported) <| .ite (.run ?authenticate) <|
    .ite (.run ?authSuccess) <| .ite (.run ?authChallenge) fun _ h => by cases h
  case error =>
    refine (@tracks_int Unit Unit).read fun errorCode => skips_string.then_quiet fun _ => ?_
    exact .bind .remaining fun _ => .pure _
  case event =>
    exact skips_string.then_quiet fun _ => .bind .remaining fun _ => .pure _
  case supported => exact skips_stringMultiMap.onLocal.then_quiet fun _ => .pure _
  case authenticate => exact skips_string.then_quiet fun _ => .pure _
  case authSuccess | authChallenge => exact skips_bytes.then_quiet fun _ => .pure _

theorem check_of_decodeBody {used : ResultMessage} {memory : OptionMemory} {opCode : Nat}
    {message : ResponseMessage}
    (h : ResponseMessage.decodeBody used memory opCode content = .ok message) :
    check opCode content = .ok () := by
  obtain ⟨rest, hbody⟩ := body_of_decodeBody used memory opCode content message h
  rw [check, hbody]

end BodyExtent

end CqlDriver
