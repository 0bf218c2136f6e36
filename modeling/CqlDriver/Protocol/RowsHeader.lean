import CqlDriver.Protocol.BodyExtent
import CqlDriver.Protocol.PrimitiveReading

/-!
# The header of a rows result

The body of a RESULT message with rows begins with metadata and the count of the rows, and the
content of the rows follows up to the end. `RowsHeader.decode` reads these members without an
object to decode into. `decodeBody` passes the counts on as sizes, and the paging state that is in
the metadata object, whether it came with this body or not.

## Main definitions

* `RowsHeader.decode` — the members on the wire
* `ResultSetData.Shows` — a result set shows what is on the wire
* `ResultMessage.YieldsHeader` — `decodeBody` throws or yields such a result set
* `ResultMessage.InRange` — which bodies and objects allow this

## Main results

* `RowsHeader.metadata_of_decode` — what metadata that were decoded hold
* `ResultMessage.yieldsHeader_iff`
-/

namespace CqlDriver

open Math (Decode Cursor toSigned ofSigned)
open Math.Decode (Quiet)
open ObjectDecoder (write member)

/-- What precedes the content of rows. -/
structure RowsHeader where
  flags : Int
  columnsCount : Int
  /-- Empty unless there are more pages. -/
  pagingState : Bytes
  rowsCount : Int
  /-- The bytes behind the count of the rows. -/
  region : Bytes
  deriving DecidableEq, Repr

namespace RowsHeader

/-- The paging state for these flags, empty for null. -/
def pagingState? (flags : Int) : Decoder Unit Bytes := do
  if hasFlag flags 1 then
    let pagingState ← ProtocolBytes.decode
    return pagingState.getD []
  else
    return []

/-- The columns, unless the flags leave them out. -/
def columns? (flags columnsCount : Int) : Decoder Unit Unit :=
  if !hasFlag flags 2 then BodyExtent.columns flags columnsCount else pure ()

/-- Flags, columns count and paging state, and past the columns. -/
def metadata : Decoder Unit (Int × Int × Bytes) := do
  let flags ← ProtocolInt.decode
  let columnsCount ← ProtocolInt.decode
  let pagingState ← pagingState? flags
  columns? flags columnsCount
  return (flags, columnsCount, pagingState)

/-- The members behind the kind of the result. -/
def decode : Decoder Unit RowsHeader := do
  let (flags, columnsCount, pagingState) ← metadata
  let rowsCount ← ProtocolInt.decode
  let region ← Decode.remaining
  return ⟨flags, columnsCount, pagingState, rowsCount, region⟩

/-- The content has this header. -/
def IsOf (header : RowsHeader) (content : Bytes) : Prop :=
  ∃ c, decode ⟨(), content⟩ = .ok header c

end RowsHeader

/-- Counts below 2^31 that are the integers on the wire, the paging state and the rest of the
bytes. -/
structure ResultSetData.Shows (data : ResultSetData) (header : RowsHeader) : Prop where
  rowsCount_lt : data.rowsCount < 2 ^ 31
  rowsCount : (data.rowsCount : Int) = header.rowsCount
  columnsCount_lt : data.columnsCount < 2 ^ 31
  columnsCount : (data.columnsCount : Int) = header.columnsCount
  pagingState : data.pagingState = header.pagingState
  region : data.region = header.region

namespace ResultMessage

/-- A body with rows. -/
def rowsBody (content : Bytes) : Bytes := ProtocolInt.encode ResultKind.rows ++ content

/-- An object that was used before is reset and decodes a body with rows: it throws, or its result
set shows the header. -/
def YieldsHeader (used : ResultMessage) (memory : OptionMemory) (content : Bytes) : Prop :=
  match decodeBody ⟨(used.reset, memory), rowsBody content⟩ with
  | .ok _ c => ∃ header data, RowsHeader.IsOf header content ∧ c.object.1.resultSet = some data ∧
      data.Shows header
  | .error (.exception _) _ => True
  | .error _ _ => False

/-- The column types can be decoded or throw, and when they can, the counts are not negative and
no paging state is left from an earlier body, or there is a new one. -/
def InRange (used : ResultMessage) (memory : OptionMemory) (content : Bytes) : Prop :=
  match ProtocolResultRowsMetadata.decode ⟨(used.reset.rowsMetadata, memory), content⟩ with
  | .ok _ _ => ∀ header : RowsHeader, header.IsOf content →
      0 ≤ header.columnsCount ∧ 0 ≤ header.rowsCount ∧
        (hasFlag header.flags 1 = true ∨ used.rowsMetadata.getPagingState = [])
  | .error (.exception _) _ => True
  | .error _ _ => False

end ResultMessage

/-! ## Integers -/

section Integers

variable {σ : Type} {c c' : Cursor σ} {value : Int}

/-- As a size, an integer that is not negative is itself. -/
theorem sizeOfInt_shows (hnonneg : 0 ≤ value) (hlt : value < 2 ^ 31) :
    sizeOfInt value < 2 ^ 31 ∧ (sizeOfInt value : Int) = value := by
  rw [sizeOfInt, ofSigned]
  omega

theorem decode_int_short {object : σ} {rest : Bytes} (h : rest.length < 4) :
    ProtocolInt.decode (⟨object, rest⟩ : Cursor σ) = .error lengthNotEnough ⟨object, rest⟩ :=
  Decode.bind_error (Decode.bind_error (Math.take_short h) _) _

theorem decode_int_long {object : σ} {rest : Bytes} (h : ¬ rest.length < 4) :
    ProtocolInt.decode (⟨object, rest⟩ : Cursor σ) =
      .ok (toSigned 32 (Math.ofBigEndian (rest.take 4))) ⟨object, rest.drop 4⟩ := by
  have htake : Math.take lengthNotEnough 4 (⟨object, rest⟩ : Cursor σ) =
      .ok (rest.take 4) ⟨object, rest.drop 4⟩ := if_neg h
  have hnumber : Math.number lengthNotEnough 4 (⟨object, rest⟩ : Cursor σ) =
      .ok (Math.ofBigEndian (rest.take 4)) ⟨object, rest.drop 4⟩ := by
    rw [Math.number, Decode.bind_ok htake]
    rfl
  rw [ProtocolInt.decode, Decode.bind_ok hnumber]
  rfl

/-- What is read without an object is the same. -/
theorem decode_int_unit (h : ProtocolInt.decode c = .ok value c') :
    ProtocolInt.decode (⟨(), c.rest⟩ : Cursor Unit) = .ok value ⟨(), c'.rest⟩ := by
  obtain ⟨_, _, hunit, rfl⟩ := BodyExtent.tracks_int c value c' () h
  exact hunit

theorem decode_bytes_unit {value : Option Bytes} (h : ProtocolBytes.decode c = .ok value c') :
    ProtocolBytes.decode (⟨(), c.rest⟩ : Cursor Unit) = .ok value ⟨(), c'.rest⟩ := by
  obtain ⟨_, _, hunit, rfl⟩ := BodyExtent.tracks_bytes c value c' () h
  exact hunit

end Integers

/-! ## Metadata -/

section Metadata

variable {metadata metadata' : ProtocolResultRowsMetadata} {memory memory' : OptionMemory}
  {content rest : Bytes} {flags columnsCount : Int}

/-- A step that leaves the columns count and the paging state alone. -/
def KeepsHeader (m : ObjectDecoder ProtocolResultRowsMetadata Unit) : Prop :=
  ∀ c c', m c = .ok () c' → c'.object.1.columnsCount = c.object.1.columnsCount ∧
    c'.object.1.pagingState = c.object.1.pagingState

theorem KeepsHeader.bind {α : Type} {m : ObjectDecoder ProtocolResultRowsMetadata α}
    {f : α → ObjectDecoder ProtocolResultRowsMetadata Unit}
    (h : m.Keeps id) (hnext : ∀ a, KeepsHeader (f a)) :
    KeepsHeader (m >>= f) := by
  intro c c' hok
  obtain ⟨a, d, hm, hf⟩ := Decode.exists_of_bind_ok hok
  rw [← h.object_eq hm]
  exact hnext a d c' hf

theorem KeepsHeader.write {f : ProtocolResultRowsMetadata → ProtocolResultRowsMetadata}
    {m : ObjectDecoder ProtocolResultRowsMetadata Unit}
    (hf : ∀ metadata, (f metadata).columnsCount = metadata.columnsCount ∧
      (f metadata).pagingState = metadata.pagingState) (h : KeepsHeader m) :
    KeepsHeader (do ObjectDecoder.write f; m) := by
  intro c c' hok
  obtain ⟨_, d, hwrite, hm⟩ := Decode.exists_of_bind_ok hok
  cases hwrite
  obtain ⟨hcount, hpaging⟩ := h _ c' hm
  exact ⟨hcount.trans (hf _).1, hpaging.trans (hf _).2⟩

theorem keepsHeader_decodeColumns :
    KeepsHeader (ProtocolResultRowsMetadata.decodeColumns flags columnsCount) := by
  rw [ProtocolResultRowsMetadata.decodeColumns]
  split
  · exact fun _ _ h => by cases h
  · refine .write (fun _ => ⟨rfl, rfl⟩) fun c c' hok => ?_
    -- the columns are a member of their own
    rw [member, Decode.on] at hok
    split at hok
    · cases hok
      exact ⟨rfl, rfl⟩
    · cases hok

theorem keepsHeader_decodeSpecs :
    KeepsHeader (ProtocolResultRowsMetadata.decodeSpecs flags columnsCount) := by
  rw [ProtocolResultRowsMetadata.decodeSpecs]
  split
  · refine .bind (ProtocolString.keeps_decode) fun _ => .write (fun _ => ⟨rfl, rfl⟩) ?_
    refine .bind (ProtocolString.keeps_decode) fun _ => .write (fun _ => ⟨rfl, rfl⟩) ?_
    exact keepsHeader_decodeColumns
  · exact keepsHeader_decodeColumns

/-- The columns are read without an object too. -/
theorem columns_of_decodeSpecs {c c' : Cursor (ProtocolResultRowsMetadata × OptionMemory)}
    (h : (if !hasFlag flags 2 then ProtocolResultRowsMetadata.decodeSpecs flags columnsCount
      else pure ()) c = .ok () c') :
    RowsHeader.columns? flags columnsCount ⟨(), c.rest⟩ = .ok () ⟨(), c'.rest⟩ ∧
      c'.object.1.columnsCount = c.object.1.columnsCount ∧
      c'.object.1.pagingState = c.object.1.pagingState := by
  rw [RowsHeader.columns?]
  split at h
  next hcolumns =>
    obtain ⟨_, _, hunit, -⟩ := BodyExtent.skips_decodeSpecs flags columnsCount c () c' () h
    rw [if_pos hcolumns]
    exact ⟨hunit, keepsHeader_decodeSpecs c c' h⟩
  next hnone =>
    cases h
    rw [if_neg hnone]
    exact ⟨rfl, rfl, rfl⟩

/-- Metadata that were decoded hold the columns count on the wire, and the paging state if there is
one. -/
theorem RowsHeader.metadata_of_decode
    {c : Cursor (ProtocolResultRowsMetadata × OptionMemory)}
    (h : ProtocolResultRowsMetadata.decode ⟨(metadata, memory), content⟩ = .ok () c) :
    ∃ flags pagingState, RowsHeader.metadata ⟨(), content⟩ =
        .ok (flags, c.object.1.columnsCount, pagingState) ⟨(), c.rest⟩ ∧
      c.object.1.columnsCount < 2 ^ 31 ∧
      (hasFlag flags 1 = true → c.object.1.getPagingState = pagingState) ∧
      (hasFlag flags 1 = false → pagingState = [] ∧
        c.object.1.getPagingState = metadata.getPagingState) := by
  obtain ⟨flags, c₁, hflags, h₁⟩ := Decode.exists_of_bind_ok h
  obtain ⟨_, c₂, hwrite, h₂⟩ := Decode.exists_of_bind_ok h₁
  cases hwrite
  obtain ⟨columnsCount, c₃, hcount, h₃⟩ := Decode.exists_of_bind_ok h₂
  obtain ⟨_, c₄, hwrite, h₄⟩ := Decode.exists_of_bind_ok h₃
  cases hwrite
  have hkept : c₃.object.1.pagingState = metadata.pagingState := by
    rw [ProtocolInt.keeps_decode.object_eq hcount]
    show c₁.object.1.pagingState = _
    rw [ProtocolInt.keeps_decode.object_eq hflags]
  have hcounts := decode_int_unit hcount
  refine ⟨flags, ?_⟩
  by_cases hmore : hasFlag flags 1 = true
  · rw [if_pos hmore] at h₄
    obtain ⟨pagingState, c₅, hpaging, h₅⟩ := Decode.exists_of_bind_ok h₄
    obtain ⟨_, c₆, hwrite, h₆⟩ := Decode.exists_of_bind_ok h₅
    cases hwrite
    obtain ⟨hcolumns, hcount₆, hpaging₆⟩ := columns_of_decodeSpecs h₆
    have hcount₅ : c.object.1.columnsCount = columnsCount := by
      rw [hcount₆, ProtocolBytes.keeps_decode.object_eq hpaging]
    have hread : RowsHeader.pagingState? flags ⟨(), c₃.rest⟩ =
        .ok (pagingState.getD []) ⟨(), c₅.rest⟩ := by
      rw [RowsHeader.pagingState?, if_pos hmore, Decode.bind_ok (decode_bytes_unit hpaging)]
      rfl
    refine ⟨pagingState.getD [], ?_, ?_, fun _ => ?_, fun hnot => ?_⟩
    · rw [RowsHeader.metadata, Decode.bind_ok (decode_int_unit hflags), Decode.bind_ok hcounts,
        Decode.bind_ok hread, hcount₅]
      exact Decode.bind_ok hcolumns _
    · rw [hcount₅]
      exact ProtocolInt.lt_of_decode hcount
    · rw [ProtocolResultRowsMetadata.getPagingState, hpaging₆]
    · rw [hmore] at hnot
      cases hnot
  · rw [if_neg hmore] at h₄
    obtain ⟨hcolumns, hcount₄, hpaging₄⟩ := columns_of_decodeSpecs h₄
    have hread : RowsHeader.pagingState? flags ⟨(), c₃.rest⟩ = .ok [] ⟨(), c₃.rest⟩ := by
      rw [RowsHeader.pagingState?, if_neg hmore]
      rfl
    refine ⟨[], ?_, ?_, fun hyes => absurd hyes hmore, fun _ => ⟨rfl, ?_⟩⟩
    · rw [RowsHeader.metadata, Decode.bind_ok (decode_int_unit hflags), Decode.bind_ok hcounts,
        Decode.bind_ok hread, hcount₄]
      exact Decode.bind_ok hcolumns _
    · rw [hcount₄]
      exact ProtocolInt.lt_of_decode hcount
    · rw [ProtocolResultRowsMetadata.getPagingState, hpaging₄]
      exact congrArg (·.getD []) hkept

end Metadata

/-! ## Bodies with rows -/

namespace ResultMessage

variable {used : ResultMessage} {memory : OptionMemory} {content : Bytes}

/-- A body with rows is decoded by the branch for rows. -/
theorem decodeBody_rowsBody (message : ResultMessage) (memory : OptionMemory) (content : Bytes) :
    decodeBody ⟨(message, memory), rowsBody content⟩ =
      decodeRows ⟨({ message with kind := ResultKind.rows }, memory), content⟩ := by
  have hkind : ProtocolInt.decode (⟨(message, memory), rowsBody content⟩ :
      Cursor (ResultMessage × OptionMemory)) = .ok ResultKind.rows ⟨(message, memory), content⟩ :=
    ProtocolInt.decode_encode (by decide) (by rw [ResultKind.rows]; omega)
  rw [decodeBody, Decode.bind_ok hkind,
    Decode.bind_ok (ObjectDecoder.write_apply _ message memory content)]
  rfl

/-- Metadata that are not decoded end the decoding. -/
theorem decodeRows_error {message : ResultMessage} {failure : Failure}
    {c : Cursor (ProtocolResultRowsMetadata × OptionMemory)}
    (h : ProtocolResultRowsMetadata.decode ⟨(message.rowsMetadata, memory), content⟩ =
      .error failure c) :
    ∃ c', decodeRows ⟨(message, memory), content⟩ = .error failure c' := by
  refine ⟨⟨({ message with rowsMetadata := c.object.1 }, c.object.2), c.rest⟩, ?_⟩
  have hmember : member (fun message : ResultMessage => message.rowsMetadata)
      (fun rowsMetadata message => { message with rowsMetadata })
      ProtocolResultRowsMetadata.decode ⟨(message, memory), content⟩ =
        .error failure ⟨({ message with rowsMetadata := c.object.1 }, c.object.2), c.rest⟩ := by
    rw [member, Decode.on]
    dsimp only
    rw [h]
  rw [decodeRows, Decode.bind_error hmember]

/-- Behind the metadata, the rows count is read and everything else is the region. -/
theorem decodeRows_of_metadata {message : ResultMessage}
    {c : Cursor (ProtocolResultRowsMetadata × OptionMemory)}
    (h : ProtocolResultRowsMetadata.decode ⟨(message.rowsMetadata, memory), content⟩ = .ok () c) :
    (c.rest.length < 4 → ∃ c', decodeRows ⟨(message, memory), content⟩ =
      .error lengthNotEnough c') ∧
    (¬ c.rest.length < 4 → ∃ c', decodeRows ⟨(message, memory), content⟩ = .ok () c' ∧
      c'.object.1.kind = message.kind ∧ c'.object.1.resultSet = some {
        rowsCount := sizeOfInt (toSigned 32 (Math.ofBigEndian (c.rest.take 4)))
        columnsCount := sizeOfInt c.object.1.columnsCount
        pagingState := c.object.1.getPagingState
        region := c.rest.drop 4 }) := by
  have hmember : member (fun message : ResultMessage => message.rowsMetadata)
      (fun rowsMetadata message => { message with rowsMetadata })
      ProtocolResultRowsMetadata.decode ⟨(message, memory), content⟩ =
        .ok () ⟨({ message with rowsMetadata := c.object.1 }, c.object.2), c.rest⟩ :=
    Decode.on_ok h
  rw [decodeRows, Decode.bind_ok hmember]
  constructor
  · intro hshort
    exact ⟨_, Decode.bind_error (decode_int_short hshort) _⟩
  · intro hlong
    rw [Decode.bind_ok (decode_int_long hlong)]
    exact ⟨_, rfl, rfl, rfl⟩

/-- The result set of decoded metadata shows the header exactly for counts that are not negative
and a paging state that came with the body or is empty. -/
theorem exists_shows_iff {c : Cursor (ProtocolResultRowsMetadata × OptionMemory)}
    {metadata : ProtocolResultRowsMetadata}
    (h : ProtocolResultRowsMetadata.decode ⟨(metadata, memory), content⟩ = .ok () c)
    (hlong : ¬ c.rest.length < 4) :
    (∃ header : RowsHeader, header.IsOf content ∧ ResultSetData.Shows {
        rowsCount := sizeOfInt (toSigned 32 (Math.ofBigEndian (c.rest.take 4)))
        columnsCount := sizeOfInt c.object.1.columnsCount
        pagingState := c.object.1.getPagingState
        region := c.rest.drop 4 } header) ↔
      ∀ header : RowsHeader, header.IsOf content →
        0 ≤ header.columnsCount ∧ 0 ≤ header.rowsCount ∧
          (hasFlag header.flags 1 = true ∨ metadata.getPagingState = []) := by
  obtain ⟨flags, pagingState, hread, hcolumns, hmore, hnone⟩ := RowsHeader.metadata_of_decode h
  -- there is one header
  have hcount := @decode_int_long Unit () c.rest hlong
  have hdecode : RowsHeader.decode ⟨(), content⟩ = .ok ⟨flags, c.object.1.columnsCount, pagingState,
      toSigned 32 (Math.ofBigEndian (c.rest.take 4)), c.rest.drop 4⟩ ⟨(), c.rest.drop 4⟩ := by
    rw [RowsHeader.decode, Decode.bind_ok hread]
    dsimp only
    rw [Decode.bind_ok hcount]
    rfl
  have honly : ∀ header : RowsHeader, header.IsOf content ↔ header = ⟨flags, c.object.1.columnsCount,
      pagingState, toSigned 32 (Math.ofBigEndian (c.rest.take 4)), c.rest.drop 4⟩ := by
    intro header
    rw [RowsHeader.IsOf, hdecode]
    constructor
    · rintro ⟨_, heq⟩
      cases heq
      rfl
    · rintro rfl
      exact ⟨_, rfl⟩
  have hrows := ProtocolInt.lt_of_decode hcount
  simp only [honly, exists_eq_left, forall_eq]
  constructor
  · intro hshows
    have hfirst := hshows.columnsCount
    have hsecond := hshows.rowsCount
    dsimp only at hfirst hsecond
    refine ⟨by omega, by omega, ?_⟩
    cases hflag : hasFlag flags 1 with
    | true => exact .inl rfl
    | false =>
      obtain ⟨hempty, hkept⟩ := hnone hflag
      have hpaging := hshows.pagingState
      dsimp only at hpaging
      exact .inr (hkept.symm.trans (hpaging.trans hempty))
  · rintro ⟨hfirst, hsecond, hpaging⟩
    obtain ⟨hcolumnsLt, hcolumnsEq⟩ := sizeOfInt_shows hfirst hcolumns
    obtain ⟨hrowsLt, hrowsEq⟩ := sizeOfInt_shows hsecond hrows
    refine ⟨hrowsLt, hrowsEq, hcolumnsLt, hcolumnsEq, ?_, rfl⟩
    cases hflag : hasFlag flags 1 with
    | true => exact hmore hflag
    | false =>
      obtain ⟨hempty, hkept⟩ := hnone hflag
      rw [hflag] at hpaging
      exact hkept.trans ((hpaging.resolve_left Bool.false_ne_true).trans hempty.symm)

/-- With metadata that are complete, the result set shows the header, or the rows count is
missing and the body is thrown away. -/
theorem yieldsHeader_of_metadata {c : Cursor (ProtocolResultRowsMetadata × OptionMemory)}
    (hmetadata : ProtocolResultRowsMetadata.decode
      ⟨(used.reset.rowsMetadata, memory), content⟩ = .ok () c) :
    used.YieldsHeader memory content ↔ ∀ header : RowsHeader, header.IsOf content →
      0 ≤ header.columnsCount ∧ 0 ≤ header.rowsCount ∧
        (hasFlag header.flags 1 = true ∨ used.rowsMetadata.getPagingState = []) := by
  have hbody := decodeBody_rowsBody used.reset memory content
  obtain ⟨hshort, hlong⟩ := @decodeRows_of_metadata memory content
    { used.reset with kind := ResultKind.rows } c hmetadata
  by_cases hlength : c.rest.length < 4
  · obtain ⟨c', hrows⟩ := hshort hlength
    unfold YieldsHeader
    simp only [hbody, hrows, lengthNotEnough, true_iff]
    -- the rows count is missing on the wire too
    rintro header ⟨d, hheader⟩
    obtain ⟨flags, pagingState, hread, -⟩ := RowsHeader.metadata_of_decode hmetadata
    rw [RowsHeader.decode, Decode.bind_ok hread] at hheader
    dsimp only at hheader
    rw [Decode.bind_error (decode_int_short hlength)] at hheader
    cases hheader
  · obtain ⟨c', hrows, hresult⟩ := hlong hlength
    unfold YieldsHeader
    simp only [hbody, hrows, hresult, Option.some.injEq]
    refine Iff.trans ?_ (@exists_shows_iff memory content c used.reset.rowsMetadata hmetadata hlength)
    constructor
    · rintro ⟨header, data, hof, rfl, hshows⟩
      exact ⟨header, hof, hshows⟩
    · rintro ⟨header, hof, hshows⟩
      exact ⟨header, _, hof, rfl, hshows⟩

/-- A body with rows is thrown away or shown as it is on the wire exactly when it is in range. -/
theorem yieldsHeader_iff (used : ResultMessage) (memory : OptionMemory) (content : Bytes) :
    used.YieldsHeader memory content ↔ used.InRange memory content := by
  cases hmetadata : ProtocolResultRowsMetadata.decode
      ⟨(used.reset.rowsMetadata, memory), content⟩ with
  | error failure c =>
    obtain ⟨c', hrows⟩ := @decodeRows_error memory content
      { used.reset with kind := ResultKind.rows } failure c hmetadata
    unfold YieldsHeader InRange
    simp only [decodeBody_rowsBody, hrows, hmetadata]
    cases failure with
    | exception ex => exact Iff.rfl
    | undefined => exact Iff.rfl
    | tooDeep => exact Iff.rfl
  | ok _ c =>
    rw [yieldsHeader_of_metadata hmetadata]
    unfold InRange
    simp only [hmetadata]

/-- No metadata but a columns count of one, and a rows count of minus one. -/
def negativeRows : Bytes :=
  ProtocolInt.encode ProtocolResultRowsMetadata.noMetadata ++
    (ProtocolInt.encode 1 ++ (ProtocolInt.encode (-1) ++ []))

theorem isOf_negativeRows :
    RowsHeader.IsOf ⟨ProtocolResultRowsMetadata.noMetadata, 1, [], -1, []⟩ negativeRows := by
  have hmetadata : RowsHeader.metadata ⟨(), negativeRows⟩ =
      .ok (ProtocolResultRowsMetadata.noMetadata, 1, []) ⟨(), ProtocolInt.encode (-1) ++ []⟩ := by
    rw [RowsHeader.metadata, negativeRows,
      Decode.bind_ok (ProtocolInt.decode_encode (by decide) (by decide)),
      Decode.bind_ok (ProtocolInt.decode_encode (by decide) (by decide))]
    rfl
  refine ⟨⟨(), []⟩, ?_⟩
  rw [RowsHeader.decode, Decode.bind_ok hmetadata]
  dsimp only
  rw [Decode.bind_ok ProtocolInt.decode_minus_one]
  rfl

theorem decode_negativeRows (metadata : ProtocolResultRowsMetadata) (memory : OptionMemory) :
    ∃ c, ProtocolResultRowsMetadata.decode ⟨(metadata, memory), negativeRows⟩ = .ok () c := by
  rw [ProtocolResultRowsMetadata.decode, negativeRows,
    Decode.bind_ok (ProtocolInt.decode_encode (by decide) (by decide)),
    Decode.bind_ok (ObjectDecoder.write_apply _ _ _ _),
    Decode.bind_ok (ProtocolInt.decode_encode (by decide) (by decide)),
    Decode.bind_ok (ObjectDecoder.write_apply _ _ _ _)]
  exact ⟨_, rfl⟩

/-- A rows count of minus one becomes a size. -/
theorem not_yieldsHeader_negative : ¬ ∀ (used : ResultMessage) (memory : OptionMemory)
    (content : Bytes), used.YieldsHeader memory content := by
  intro hall
  obtain ⟨c, hmetadata⟩ := decode_negativeRows create.reset.rowsMetadata .create
  have hrange := (yieldsHeader_of_metadata hmetadata).mp (hall create .create negativeRows)
  exact absurd (hrange _ isOf_negativeRows).2.1 (by decide)

end ResultMessage

end CqlDriver
