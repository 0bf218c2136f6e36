import CqlDriver.Protocol.OptionMemory
import CqlDriver.Protocol.RowsHeader

/-!
# RESULT messages that are used again

`Reusable` hands out a `ResultMessage` that was used before. What `reset` leaves in
the metadata of rows is overwritten before it is read, with one exception: the paging
state is decoded only when the flags announce one, and moved into the result set in
any case.

## Main definitions

* `ResultMessage.contents` — what the kind of a message defines
* `ResultMessage.outcome` — the outcome of decoding a body into a message
* `ResultMessage.afterUses` — a message after a history of uses
* `ResultMessage.isRowsWithoutPaging` — the body is one of rows that announces no
  paging state

## Main results

* `ResultMessage.related_decodeKind` — decoding a body of another kind does not depend
  on the metadata of rows
* `ResultMessage.decodesLikeNew_iff` — when a used message decodes like a new one
-/

namespace CqlDriver

open Math (Decode Cursor)
open Math.Decode (Related ResultRelated)
open ObjectDecoder (write member)

/-- The payload objects of the thread are the same. -/
def SameMemory {χ : Type} (x y : χ × OptionMemory) : Prop := x.2 = y.2

theorem related_write {χ : Type} {f g : χ → χ} :
    Related SameMemory (fun _ _ => SameMemory) (write f) (write g) :=
  .update fun _ _ h => h

/-- Members that are related by the memory only. -/
theorem related_member {χ υ : Type} {m : ObjectDecoder υ Unit} {get : χ → υ} {set : υ → χ → χ}
    (h : Related SameMemory (fun _ _ => SameMemory) m m) :
    Related SameMemory (fun _ _ => SameMemory) (member get set m) (member get set m) :=
  h.on (fun _ _ hsame => hsame) fun _ _ _ _ _ _ _ hsame => hsame

/-- An option is overwritten before it is read. -/
theorem ProtocolColumnOption.related_decodeObject :
    Related (fun x y : OptionMemory => { x with object := .create } = { y with object := .create })
      (fun _ _ x y => x = y) decodeObject decodeObject := by
  intro x y rest hxy
  have hdecode : Related
      (fun x y : OptionMemory => { x with object := .create } = { y with object := .create })
      (fun _ _ x y => x = y) (decode (rest.length + 1) .object)
      (decode (rest.length + 1) .object) := by
    apply related_short.read
    intro type
    apply Related.seq (S := fun x y => x = y)
    · -- both objects are the started option now
      intro x y rest hxy
      have hput : x.put ⟨type, []⟩ .object = y.put ⟨type, []⟩ .object :=
        congrArg (fun memory : OptionMemory => { memory with object := ⟨type, []⟩ }) hxy
      rw [start_ok rfl, start_ok rfl]
      exact .ok hput
    · exact (Related.refl _).mono (fun _ _ h => h) fun _ _ _ _ h => h.2
  exact hdecode x y rest hxy

namespace ProtocolResultColumn

/-- Columns are overwritten too, up to the table specification. -/
theorem related_decode (containsTableSpec : Bool) :
    Related SameMemory (fun _ _ => SameMemory) (decode containsTableSpec)
      (decode containsTableSpec) := by
  have hrest : Related SameMemory (fun _ _ => SameMemory) (decode false) (decode false) := by
    apply related_string.read
    intro name
    apply related_write.seq
    apply ProtocolColumnOption.related_decodeObject.on
    · intro x y h
      rw [SameMemory] at h
      simp only [h]
    · intro x y _ _ _ u v huv
      exact huv
  cases containsTableSpec with
  | false => exact hrest
  | true =>
    apply related_string.read
    intro keySpace
    apply related_write.seq
    apply related_string.read
    intro table
    exact related_write.seq hrest

/-- One round of the loop: the column is there, or is appended first. -/
theorem decodeColumns_succ (containsTableSpec : Bool) (count i : Nat)
    (columns : List ProtocolResultColumn) (memory : OptionMemory) (rest : Bytes) :
    decodeColumns containsTableSpec (count + 1) i ⟨(columns, memory), rest⟩ =
      (do
        decodeAt containsTableSpec i
        decodeColumns containsTableSpec count (i + 1) : ObjectDecoder _ _)
        ⟨(if columns.length ≤ i then columns ++ [create] else columns, memory), rest⟩ := by
  rw [decodeColumns, Decode.bind_ok Decode.object_apply]
  split
  · rfl
  · rfl

theorem related_decodeColumns (containsTableSpec : Bool) (count i : Nat) :
    Related SameMemory (fun _ _ => SameMemory) (decodeColumns containsTableSpec count i)
      (decodeColumns containsTableSpec count i) := by
  induction count generalizing i with
  | zero => exact .pure fun x y h => h
  | succ count ih =>
    have hcolumn : Related SameMemory (fun _ _ => SameMemory) (decodeAt containsTableSpec i)
        (decodeAt containsTableSpec i) := related_member (related_decode containsTableSpec)
    rintro ⟨columns, memory⟩ ⟨columns', memory'⟩ rest h
    rw [decodeColumns_succ, decodeColumns_succ]
    exact hcolumn.seq (ih (i + 1)) _ _ rest h

end ProtocolResultColumn

namespace ProtocolResultRowsMetadata

/-- The same flags are set and the same columns announced, and the paging states are
related. -/
structure Alike (flags : Int) (paging : Bytes → Bytes → Prop)
    (x y : ProtocolResultRowsMetadata × OptionMemory) : Prop where
  left : x.1.flags = flags
  right : y.1.flags = flags
  columnsCount : x.1.columnsCount = y.1.columnsCount
  pagingState : paging x.1.getPagingState y.1.getPagingState
  memory : x.2 = y.2

/-- The paging states are related, and the payload objects of the thread the same. -/
def SamePaging (paging : Bytes → Bytes → Prop)
    (x y : ProtocolResultRowsMetadata × OptionMemory) : Prop :=
  paging x.1.getPagingState y.1.getPagingState ∧ x.2 = y.2

/-- The paging state that was announced is read into both, another one stays. -/
def Announced (flags : Int) (paging : Bytes → Bytes → Prop) (u v : Bytes) : Prop :=
  if hasFlag flags 1 = true then u = v else paging u v

variable {flags : Int} {paging : Bytes → Bytes → Prop}

theorem related_decodeColumns (read columnsCount : Int) :
    Related (Alike flags paging) (fun _ _ => Alike flags paging) (decodeColumns read columnsCount)
      (decodeColumns read columnsCount) := by
  apply Related.ite
  · intro _
    exact .throw
  · intro _
    apply Related.seq (S := Alike flags paging)
    · exact .update fun x y h => ⟨h.left, h.right, h.columnsCount, h.pagingState, h.memory⟩
    apply (ProtocolResultColumn.related_decodeColumns _ _ _).on
    · exact fun x y h => h.memory
    · exact fun x y h _ _ u v hsame => ⟨h.left, h.right, h.columnsCount, h.pagingState, hsame⟩

theorem related_decodeSpecs (read columnsCount : Int) :
    Related (Alike flags paging) (fun _ _ => Alike flags paging) (decodeSpecs read columnsCount)
      (decodeSpecs read columnsCount) := by
  have hcolumns := @related_decodeColumns flags paging read columnsCount
  apply Related.ite
  · intro _
    apply related_string.read
    intro globalKeySpace
    apply Related.seq (S := Alike flags paging)
    · exact .update fun x y h => ⟨h.left, h.right, h.columnsCount, h.pagingState, h.memory⟩
    apply related_string.read
    intro globalTable
    apply Related.seq (S := Alike flags paging)
    · exact .update fun x y h => ⟨h.left, h.right, h.columnsCount, h.pagingState, h.memory⟩
    exact hcolumns
  · intro _
    exact hcolumns

/-- The flags and the columns count are always written, a paging state only when the
flags announce one. -/
theorem related_decode :
    Related (SamePaging paging)
      (fun _ _ x y => ∃ flags, Alike flags (Announced flags paging) x y) decode decode := by
  apply related_int.read
  intro flags
  apply Related.seq (S := fun x y => (x.1.flags = flags ∧ y.1.flags = flags) ∧ SamePaging paging x y)
  · exact .update fun x y h => ⟨⟨rfl, rfl⟩, h⟩
  apply related_int.read
  intro columnsCount
  apply Related.seq (S := Alike flags paging)
  · exact .update fun x y h => ⟨h.1.1, h.1.2, rfl, h.2.1, h.2.2⟩
  have hspecs : Related (Alike flags (Announced flags paging))
      (fun _ _ x y => ∃ flags, Alike flags (Announced flags paging) x y)
      (if !hasFlag flags 2 then decodeSpecs flags columnsCount else pure ())
      (if !hasFlag flags 2 then decodeSpecs flags columnsCount else pure ()) :=
    .ite (fun _ => (related_decodeSpecs flags columnsCount).mono (fun _ _ h => h)
      fun _ _ _ _ h => ⟨flags, h⟩) fun _ => .pure fun x y h => ⟨flags, h⟩
  apply Related.ite
  · intro hannounced
    apply related_bytes.read
    intro pagingState
    apply Related.seq (S := Alike flags (Announced flags paging))
    · exact .update fun x y h =>
        ⟨h.left, h.right, h.columnsCount, (if_pos hannounced).mpr rfl, h.memory⟩
    exact hspecs
  · intro hannounced
    exact hspecs.mono (fun x y h => ⟨h.left, h.right, h.columnsCount,
      (if_neg hannounced).mpr h.pagingState, h.memory⟩) fun _ _ _ _ h => h

end ProtocolResultRowsMetadata

namespace ResultMessage

/-! ## What a body is decoded to -/

/-- What the kind of a message defines. -/
inductive Contents
  | void
  | rows (resultSet : Option ResultSetData)
  | setKeySpace (keySpaceSet : Bytes)
  | prepared (preparedQueryId : Bytes) (preparedMetadata : ProtocolResultPreparedMetadata)
  | schemaChange (schemaChangeType schemaChangeTarget schemaChangeOptions : Bytes)
  deriving DecidableEq, Repr

/-- The contents of a decoded message; a body of another kind is not decoded. -/
def contents (message : ResultMessage) : Contents :=
  if message.kind = ResultKind.rows then .rows message.resultSet
  else if message.kind = ResultKind.setKeySpace then .setKeySpace message.keySpaceSet
  else if message.kind = ResultKind.prepared then
    .prepared message.preparedQueryId message.preparedMetadata
  else if message.kind = ResultKind.schemaChange then
    .schemaChange message.schemaChangeType message.schemaChangeTarget message.schemaChangeOptions
  else .void

/-- The outcome of a result of decoding. -/
def outcomeOf : EStateM.Result Failure (Cursor (ResultMessage × OptionMemory)) Unit →
    Except Failure Contents
  | .ok _ c => .ok c.object.1.contents
  | .error failure _ => .error failure

/-- Reset a message and decode a body into it. -/
def outcome (message : ResultMessage) (memory : OptionMemory) (body : Bytes) :
    Except Failure Contents :=
  outcomeOf (decodeBody ⟨(message.reset, memory), body⟩)

/-- A use of a message. -/
inductive Use
  | reset
  | decodeBody (memory : OptionMemory) (body : Bytes)
  deriving DecidableEq, Repr

/-- The message after a use, also when an exception was thrown. -/
def use (message : ResultMessage) : Use → Option ResultMessage
  | .reset => some message.reset
  | .decodeBody memory body =>
    match decodeBody ⟨(message, memory), body⟩ with
    | .ok _ c => some c.object.1
    | .error (.exception _) c => some c.object.1
    | .error _ _ => none

/-- A message after a history of uses. -/
def afterUses (history : List Use) : Option ResultMessage := history.foldlM use create

/-! ## Bodies of another kind -/

/-- The messages differ in the metadata of rows. -/
inductive Alike : ResultMessage × OptionMemory → ResultMessage × OptionMemory → Prop
  | mk {message : ResultMessage} {memory : OptionMemory}
      {rowsMetadata preparedRowsMetadata : ProtocolResultRowsMetadata} :
      Alike (message, memory) ({ message with rowsMetadata, preparedRowsMetadata }, memory)

theorem Alike.contents_eq {x y : ResultMessage × OptionMemory} (h : Alike x y) :
    x.1.contents = y.1.contents := by
  cases h with
  | mk => rfl

/-- A write to the other members. -/
theorem related_write {f : ResultMessage → ResultMessage}
    (h : ∀ (message : ResultMessage) rowsMetadata preparedRowsMetadata,
      f { message with rowsMetadata, preparedRowsMetadata } =
        { f message with rowsMetadata, preparedRowsMetadata }) :
    Related Alike (fun _ _ => Alike) (write f) (write f) := by
  apply Related.update
  intro x y hxy
  cases hxy with
  | @mk message memory rowsMetadata preparedRowsMetadata =>
    have hchanged : Alike (f message, memory)
        ({ f message with rowsMetadata, preparedRowsMetadata }, memory) := .mk
    rw [← h] at hchanged
    exact hchanged

theorem related_decodePrepared :
    Related Alike (fun _ _ => Alike) decodePrepared decodePrepared := by
  apply related_string.read
  intro preparedQueryId
  apply Related.seq (S := Alike)
  · exact related_write fun _ _ _ => rfl
  apply Related.seq (S := Alike)
  · -- the metadata of the prepared query is the same, so it is decoded to the same
    apply (Related.refl ProtocolResultPreparedMetadata.decode).on
    · intro x y hxy
      cases hxy with
      | mk => rfl
    · intro x y hxy _ _ u v huv
      obtain ⟨-, rfl⟩ := huv
      cases hxy with
      | mk => exact .mk
  apply (@ProtocolResultRowsMetadata.related_decode fun _ _ => True).on
  · intro x y hxy
    cases hxy with
    | mk => exact ⟨trivial, rfl⟩
  · intro x y hxy _ _ u v huv
    obtain ⟨umeta, umemory⟩ := u
    obtain ⟨vmeta, vmemory⟩ := v
    obtain ⟨flags, hdecoded⟩ := huv
    obtain rfl : umemory = vmemory := hdecoded.memory
    cases hxy with
    | mk => exact .mk

theorem related_decodeSchemaChange :
    Related Alike (fun _ _ => Alike) decodeSchemaChange decodeSchemaChange := by
  apply related_string.read
  intro schemaChangeType
  apply Related.seq (S := Alike)
  · exact related_write fun _ _ _ => rfl
  apply related_string.read
  intro schemaChangeTarget
  apply Related.seq (S := Alike)
  · exact related_write fun _ _ _ => rfl
  apply Related.remaining.read
  intro schemaChangeOptions
  exact related_write fun _ _ _ => rfl

/-- Bodies that are not rows are decoded into both in the same way. -/
theorem related_decodeKind {kind : Int} (hkind : kind ≠ ResultKind.rows) :
    Related Alike (fun _ _ => Alike) (decodeKind kind) (decodeKind kind) := by
  refine .ite (fun _ => .pure fun x y h => h) fun _ => ?_
  rw [if_neg hkind]
  refine .ite (fun _ => ?_) fun _ => ?_
  · apply related_string.read
    intro keySpaceSet
    exact related_write fun _ _ _ => rfl
  refine .ite (fun _ => related_decodePrepared) fun _ => ?_
  refine .ite (fun _ => related_decodeSchemaChange) fun _ => ?_
  exact .throw

theorem outcomeOf_eq {r s : EStateM.Result Failure (Cursor (ResultMessage × OptionMemory)) Unit}
    (h : ResultRelated (fun _ _ => Alike) r s) : outcomeOf r = outcomeOf s := by
  cases h with
  | ok returned => exact congrArg Except.ok returned.contents_eq
  | error => rfl

/-! ## Rows -/

/-- Reading behind the kind of a body with rows: whether no paging state is announced. -/
def readRows : ObjectDecoder ProtocolResultRowsMetadata Bool := do
  ProtocolResultRowsMetadata.decode
  let _ ← ProtocolInt.decode
  let s ← Decode.object
  pure (!hasFlag s.1.flags 1)

/-- Reading a body: whether it has rows and no paging state is announced. -/
def readBody : ObjectDecoder ProtocolResultRowsMetadata Bool := do
  let kind ← ProtocolInt.decode
  if kind = ResultKind.rows then
    readRows
  else
    pure false

/-- What a reading has found; nothing is found in bytes that cannot be read. -/
def found : EStateM.Result Failure (Cursor (ProtocolResultRowsMetadata × OptionMemory)) Bool → Bool
  | .ok result _ => result
  | .error _ _ => false

/-- The body is one of rows that announces no paging state and can be decoded. -/
def isRowsWithoutPaging (memory : OptionMemory) (body : Bytes) : Bool :=
  found (readBody ⟨(.create, memory), body⟩)

/-- A paging state left over makes a difference to rows that are decoded without one. -/
theorem decodeRows_outcome_eq_iff {message other : ResultMessage} {memory : OptionMemory}
    {rest : Bytes} (hkind : message.kind = ResultKind.rows) (hother : other.kind = ResultKind.rows)
    (hempty : other.rowsMetadata.getPagingState = []) :
    outcomeOf (decodeRows ⟨(message, memory), rest⟩) =
        outcomeOf (decodeRows ⟨(other, memory), rest⟩) ↔
      message.rowsMetadata.getPagingState = [] ∨
        found (readRows ⟨(other.rowsMetadata, memory), rest⟩) = false := by
  have hrelated := @ProtocolResultRowsMetadata.related_decode
    (fun u v => u = message.rowsMetadata.getPagingState ∧ v = []) (message.rowsMetadata, memory)
    (other.rowsMetadata, memory) rest ⟨⟨rfl, hempty⟩, rfl⟩
  generalize hr : ProtocolResultRowsMetadata.decode ⟨(message.rowsMetadata, memory), rest⟩ = r
    at hrelated
  generalize hs : ProtocolResultRowsMetadata.decode ⟨(other.rowsMetadata, memory), rest⟩ = s
    at hrelated
  cases hrelated with
  | error =>
    obtain ⟨c, hc⟩ := decodeRows_error hr
    obtain ⟨d, hd⟩ := decodeRows_error hs
    refine iff_of_true ?_ (.inr ?_)
    · rw [hc, hd]
      rfl
    · rw [readRows, Decode.bind_error hs]
      rfl
  | @ok _ _ x y rest' returned =>
    obtain ⟨flags, hdecoded⟩ := returned
    by_cases hshort : rest'.length < 4
    · obtain ⟨c, hc⟩ := (decodeRows_of_metadata hr).1 hshort
      obtain ⟨d, hd⟩ := (decodeRows_of_metadata hs).1 hshort
      refine iff_of_true ?_ (.inr ?_)
      · rw [hc, hd]
        rfl
      · rw [readRows, Decode.bind_ok hs, Decode.bind_error (decode_int_short hshort)]
        rfl
    · obtain ⟨c, hc, hckind, hcset⟩ := (decodeRows_of_metadata hr).2 hshort
      obtain ⟨d, hd, hdkind, hdset⟩ := (decodeRows_of_metadata hs).2 hshort
      have hfound : found (readRows ⟨(other.rowsMetadata, memory), rest⟩) = !hasFlag flags 1 := by
        rw [readRows, Decode.bind_ok hs, Decode.bind_ok (decode_int_long hshort), ← hdecoded.right]
        rfl
      have hcontents : outcomeOf (decodeRows ⟨(message, memory), rest⟩) =
          outcomeOf (decodeRows ⟨(other, memory), rest⟩) ↔
            x.1.getPagingState = y.1.getPagingState := by
        rw [hc, hd, outcomeOf, outcomeOf, Except.ok.injEq, contents, contents, hckind, hdkind, hkind,
          hother, if_pos rfl, if_pos rfl, hcset, hdset, hdecoded.columnsCount]
        simp
      have hpaging := hdecoded.pagingState
      rw [hcontents, hfound]
      cases hflag : hasFlag flags 1 with
      | true =>
        rw [ProtocolResultRowsMetadata.Announced, if_pos hflag] at hpaging
        exact iff_of_true hpaging (.inr rfl)
      | false =>
        rw [ProtocolResultRowsMetadata.Announced, if_neg (by simp [hflag])] at hpaging
        rw [hpaging.1, hpaging.2]
        simp

/-! ## When a used message decodes like a new one -/

/-- For one body: the outcome is that of a new message exactly when no paging state is
left over or the body is not one of rows that announces none. -/
theorem outcome_eq_create_iff (message : ResultMessage) (memory : OptionMemory) (body : Bytes) :
    message.outcome memory body = create.outcome memory body ↔
      message.rowsMetadata.getPagingState = [] ∨ isRowsWithoutPaging memory body = false := by
  rw [outcome, outcome, isRowsWithoutPaging, readBody, decodeBody]
  by_cases hshort : body.length < 4
  · refine iff_of_true ?_ (.inr ?_)
    · rw [Decode.bind_error (decode_int_short hshort), Decode.bind_error (decode_int_short hshort)]
      rfl
    · rw [Decode.bind_error (decode_int_short hshort)]
      rfl
  · rw [Decode.bind_ok (decode_int_long hshort), Decode.bind_ok (decode_int_long hshort),
      Decode.bind_ok (decode_int_long hshort), Decode.bind_ok (ObjectDecoder.write_apply _ _ _ _),
      Decode.bind_ok (ObjectDecoder.write_apply _ _ _ _)]
    generalize Math.toSigned 32 (Math.ofBigEndian (body.take 4)) = kind
    by_cases hrows : kind = ResultKind.rows
    · rw [if_pos hrows]
      subst hrows
      exact decodeRows_outcome_eq_iff rfl rfl rfl
    · refine iff_of_true ?_ (.inr ?_)
      · have hother : Alike ({ message.reset with kind }, memory)
            ({ create.reset with kind }, memory) := .mk
        exact outcomeOf_eq (related_decodeKind hrows _ _ _ hother)
      · rw [if_neg hrows]
        rfl

/-- After these uses, the outcome of decoding this body next is that of a new message. -/
def DecodesLikeNew (history : List Use) (memory : OptionMemory) (body : Bytes) : Prop :=
  ∀ message, afterUses history = some message →
    message.outcome memory body = create.outcome memory body

/-- These uses leave a paging state behind. -/
def LeavesPaging (history : List Use) : Prop :=
  ∃ message, afterUses history = some message ∧ message.rowsMetadata.getPagingState ≠ []

/-- A body is decoded like by a new message exactly when the uses before have left no
paging state behind, or the body is not one of rows that announces none. -/
theorem decodesLikeNew_iff (history : List Use) (memory : OptionMemory) (body : Bytes) :
    DecodesLikeNew history memory body ↔
      ¬ LeavesPaging history ∨ isRowsWithoutPaging memory body = false := by
  constructor
  · intro hnew
    by_contra hboth
    rw [not_or, not_not] at hboth
    obtain ⟨⟨message, hmessage, hleft⟩, hrows⟩ := hboth
    exact ((outcome_eq_create_iff message memory body).mp (hnew message hmessage)).elim hleft hrows
  · rintro (hleaves | hrows) message hmessage
    · refine (outcome_eq_create_iff message memory body).mpr (.inl ?_)
      by_contra hleft
      exact hleaves ⟨message, hmessage, hleft⟩
    · exact (outcome_eq_create_iff message memory body).mpr (.inr hrows)

/-- Rows whose body ends behind the paging state `a`. -/
def cutRows : Bytes := [0, 0, 0, 2, 0, 0, 0, 6, 0, 0, 0, 0, 0, 0, 0, 1, 0x61]

/-- No rows and no paging state. -/
def plainRows : Bytes := [0, 0, 0, 2, 0, 0, 0, 4, 0, 0, 0, 0, 0, 0, 0, 0]

/-- The paging state of a body that was cut comes back with the next rows. -/
theorem not_decodesLikeNew_cutRows :
    ¬ ∀ history memory body, DecodesLikeNew history memory body := by
  intro hall
  have hafter : (afterUses [.reset, .decodeBody .create cutRows]).map
      (fun message => decide (message.outcome .create plainRows = create.outcome .create plainRows)) =
        some false := by
    decide
  obtain ⟨message, hmessage, hdiffers⟩ := Option.map_eq_some_iff.mp hafter
  exact of_decide_eq_false hdiffers (hall _ .create plainRows message hmessage)

end ResultMessage

end CqlDriver
