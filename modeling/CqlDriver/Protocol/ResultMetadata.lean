import CqlDriver.Math.DecodeConsumes
import CqlDriver.Protocol.ColumnReading
import CqlDriver.Protocol.ResultReuse

/-!
# Metadata that are written and read back

The metadata of rows and of prepared queries are built with setters, which keep the flags that say
which parts are there. Encoding writes the parts that the flags announce, and throws when a part
does not fit or the columns are not as many as the count says. Decoding overwrites exactly these
parts of an object that may have been used before.

## Main definitions

* `ProtocolResultColumn.encode`, `ProtocolResultRowsMetadata.encode`,
  `ProtocolResultPreparedMetadata.encode`
* `RowsMetadataCall`, `PreparedMetadataCall` — the setters
* `ProtocolResultRowsMetadata.onto`, `ProtocolResultPreparedMetadata.onto` — an object after metadata
  were decoded into it
* `ProtocolResultColumn.Typed` — the type of a column is built from a tree that can be decoded

## Main results

* `ProtocolResultRowsMetadata.returns_encode`, `ProtocolResultPreparedMetadata.returns_encode` —
  what can be encoded
* `ProtocolResultRowsMetadata.rows_decodes_build`,
  `ProtocolResultPreparedMetadata.prepared_decodes_build` — what
  was encoded is decoded
-/

namespace CqlDriver

open Math (Decode Cursor toSigned ofSigned)
open Math.Decode (Consumes)
open ObjectDecoder (write member)

/-! ## What can be encoded -/

/-- The function returns. -/
def Returns {α : Type} (m : Except Failure α) : Prop := ∃ a, m = .ok a

section Returns

variable {α β : Type} {m : Except Failure α} {f : α → Except Failure β} {p : Prop}

@[simp] theorem returns_ok (a : α) : Returns (.ok a : Except Failure α) := ⟨a, rfl⟩

@[simp] theorem returns_pure (a : α) : Returns (pure a : Except Failure α) := ⟨a, rfl⟩

@[simp] theorem not_returns_error (failure : Failure) :
    ¬ Returns (.error failure : Except Failure α) := by
  rintro ⟨_, h⟩
  cases h

/-- A sequence returns when its steps do, if the second does not depend on the first. -/
theorem returns_bind_iff (h : ∀ a, Returns (f a) ↔ p) : Returns (m >>= f) ↔ Returns m ∧ p := by
  constructor
  · rintro ⟨b, hb⟩
    obtain ⟨a, ha, hb⟩ := exists_of_bind_eq_ok hb
    exact ⟨⟨a, ha⟩, (h a).mp ⟨b, hb⟩⟩
  · rintro ⟨⟨a, rfl⟩, hp⟩
    exact (h a).mpr hp

theorem returns_bind_pure {g : α → β} : Returns (do return g (← m)) ↔ Returns m := by
  rw [returns_bind_iff (p := True) fun a => iff_true_intro (returns_pure (g a)), and_true]

theorem returns_ite {n : Except Failure α} [Decidable p] :
    Returns (if p then m else n) ↔ (p → Returns m) ∧ (¬ p → Returns n) := by
  split <;> simp [*]

theorem returns_encode_string {value : Bytes} :
    Returns (ProtocolString.encode value) ↔ value.length < 2 ^ 16 := by
  rw [ProtocolString.encode, returns_ite]
  simp
  omega

theorem returns_encode_bytes {value : Option Bytes} :
    Returns (ProtocolBytes.encode value) ↔ (value.getD []).length < 2 ^ 31 := by
  cases value with
  | none => simp [ProtocolBytes.encode]
  | some value =>
    rw [ProtocolBytes.encode, returns_ite]
    simp
    omega

theorem returns_encodeAll {encodeElement : α → Encoded} {l : List α} :
    Returns (encodeAll encodeElement l) ↔ ∀ element ∈ l, Returns (encodeElement element) := by
  induction l with
  | nil => simp [encodeAll]
  | cons element l ih =>
    rw [encodeAll, returns_bind_iff fun _ => returns_bind_pure, ih, List.forall_mem_cons]

end Returns

/-! ## Steps of decoding -/

section Steps

variable {χ υ : Type} {object : χ} {memory : OptionMemory} {value encoded : Bytes}

/-- A member is written before the next one is decoded. -/
theorem consumes_write {Q : Unit → χ × OptionMemory → Prop} {f : χ → χ} {next : ObjectDecoder χ Unit}
    (h : Consumes next encoded (f object, memory) Q) :
    Consumes (do write f; next) encoded (object, memory) Q :=
  .write h

/-- A member is decoded next to the payload objects. -/
theorem consumes_member {Q : Unit → χ × OptionMemory → Prop} {get : χ → υ} {set : υ → χ → χ}
    {m : ObjectDecoder υ Unit}
    (h : Consumes m encoded (get object, memory) fun _ t => Q () (set t.1 object, t.2)) :
    Consumes (member get set m) encoded (object, memory) Q :=
  Consumes.on h

theorem consumes_string {σ β : Type} {x : σ} {f : Bytes → Decoder σ β} {R : β → σ → Prop}
    {more : Bytes} (h : ProtocolString.encode value = .ok encoded)
    (hnext : Consumes (f value) more x R) :
    Consumes (ProtocolString.decode >>= f) (encoded ++ more) x R :=
  .read (ProtocolString.decode_encode h x) hnext

end Steps

/-! ## Table specifications -/

/-- The keyspace and the table, of a column or of all columns, where they are present. -/
def encodeTableSpec (present : Bool) (keySpace table : Bytes) : Encoded :=
  if present then do
    let keySpace ← ProtocolString.encode keySpace
    return keySpace ++ (← ProtocolString.encode table)
  else .ok []

section TableSpec

variable {χ : Type} {object : χ} {memory : OptionMemory} {present : Bool}
  {keySpace table encoded more : Bytes}

theorem returns_encodeTableSpec : Returns (encodeTableSpec present keySpace table) ↔
    (present = true → keySpace.length < 2 ^ 16 ∧ table.length < 2 ^ 16) := by
  rw [encodeTableSpec, returns_ite, returns_bind_iff fun _ => returns_bind_pure,
    returns_encode_string, returns_encode_string]
  simp

/-- The two strings are decoded into their members, and the rest follows in any case. -/
theorem consumes_tableSpec {Q : Unit → χ × OptionMemory → Prop} {f g : Bytes → χ → χ}
    {next : ObjectDecoder χ Unit} (h : encodeTableSpec present keySpace table = .ok encoded)
    (hnext : Consumes next more
      (if present then g table (f keySpace object) else object, memory) Q) :
    Consumes (if present = true then do
        let keySpace ← ProtocolString.decode
        write (f keySpace)
        let table ← ProtocolString.decode
        write (g table)
        next
      else next) (encoded ++ more) (object, memory) Q := by
  cases present with
  | false =>
    cases h
    exact hnext
  | true =>
    obtain ⟨first, hfirst, h⟩ := exists_of_bind_eq_ok h
    obtain ⟨second, hsecond, h⟩ := exists_of_bind_eq_ok h
    cases h
    rw [if_pos rfl, List.append_assoc]
    apply consumes_string hfirst
    apply consumes_write
    apply consumes_string hsecond
    exact consumes_write hnext

end TableSpec

/-! ## Columns -/

namespace ProtocolResultColumn

/-- Encode to binary data. -/
def encode (containsTableSpec : Bool) (column : ProtocolResultColumn) : Encoded := do
  let tableSpec ← encodeTableSpec containsTableSpec column.keySpace column.table
  let name ← ProtocolString.encode column.name
  return tableSpec ++ (name ++ (← column.type.encode))

/-- A column after another one was decoded into it. -/
def onto (containsTableSpec : Bool) (column used : ProtocolResultColumn) : ProtocolResultColumn :=
  if containsTableSpec then column
  else { column with keySpace := used.keySpace, table := used.table }

/-- Columns after others were decoded into them; new ones are default constructed. -/
def ontoAll (containsTableSpec : Bool) :
    List ProtocolResultColumn → List ProtocolResultColumn → List ProtocolResultColumn
  | [], _ => []
  | column :: columns, used =>
    column.onto containsTableSpec (used.headD create) ::
      ontoAll containsTableSpec columns used.tail

/-- The type is the one of a tree without self-nesting, built with the setters. -/
def Typed (column : ProtocolResultColumn) : Prop :=
  ∃ t : ColumnTree, t.Fits ∧ t.NoSelfNesting ∧ t.toOption = .ok column.type

/-- The strings fit. -/
structure Fits (containsTableSpec : Bool) (column : ProtocolResultColumn) : Prop where
  keySpace : containsTableSpec = true → column.keySpace.length < 2 ^ 16
  table : containsTableSpec = true → column.table.length < 2 ^ 16
  name : column.name.length < 2 ^ 16

variable {containsTableSpec : Bool} {column used : ProtocolResultColumn}
  {columns : List ProtocolResultColumn} {memory : OptionMemory} {encoded : Bytes}

theorem Typed.exists_tree (h : column.Typed) :
    ∃ t : ColumnTree, t.Fits ∧ t.NoSelfNesting ∧ column.type = t.option := by
  obtain ⟨t, hfits, hnested, htype⟩ := h
  exact ⟨t, hfits, hnested, Except.ok.inj (htype.symm.trans (t.toOption_eq hfits))⟩

theorem Typed.encode_type (h : column.Typed) : ∃ encoded, column.type.encode = .ok encoded := by
  obtain ⟨t, -, -, htype⟩ := h.exists_tree
  exact ⟨t.bytes, htype ▸ t.encode_option⟩

theorem returns_encode (h : column.Typed) :
    Returns (column.encode containsTableSpec) ↔ column.Fits containsTableSpec := by
  have htype : Returns column.type.encode := h.encode_type
  rw [encode, returns_bind_iff fun _ => returns_bind_iff fun _ => returns_bind_pure,
    returns_encodeTableSpec, returns_encode_string]
  constructor
  · rintro ⟨hspec, hname, -⟩
    exact ⟨fun hyes => (hspec hyes).1, fun hyes => (hspec hyes).2, hname⟩
  · intro hfits
    exact ⟨fun hyes => ⟨hfits.keySpace hyes, hfits.table hyes⟩, hfits.name, htype⟩

theorem returns_encodeAll (h : ∀ column ∈ columns, column.Typed) :
    Returns (encodeAll (encode containsTableSpec) columns) ↔
      ∀ column ∈ columns, column.Fits containsTableSpec := by
  rw [CqlDriver.returns_encodeAll]
  exact forall₂_congr fun column hcolumn => returns_encode (h column hcolumn)

/-- The type of a column is decoded in place of the old one. -/
theorem consumes_type (h : column.Typed) (hencode : column.type.encode = .ok encoded) :
    Consumes (Decode.on (fun s => { s.2 with object := s.1.type })
        (fun memory s => ({ s.1 with type := memory.object }, memory))
        ProtocolColumnOption.decodeObject) encoded (used, memory)
      fun _ s => s.1 = { used with type := column.type } := by
  obtain ⟨t, hfits, hnested, htype⟩ := h.exists_tree
  rw [htype, t.encode_option] at hencode
  cases hencode
  apply Consumes.on
  intro rest
  have hdepth : t.payload.length < (t.bytes ++ rest).length + 1 := by
    rw [List.length_append, ColumnTree.length_bytes]
    omega
  obtain ⟨memory', hdecode, hagree⟩ := ProtocolColumnOption.decodesAt t hfits hnested _ hdepth
    { memory with object := used.type } .object rest rfl fun _ hk => by cases hk
  have hobject : memory'.object = t.option := hagree.object
  exact ⟨(), memory', hdecode, congrArg (fun type => { used with type }) (hobject.trans htype.symm)⟩

/-- The name and the type are decoded, with the table specification or without. -/
theorem consumes_decode (h : column.Typed) (hencode : column.encode containsTableSpec = .ok encoded) :
    Consumes (decode containsTableSpec) encoded (used, memory)
      fun _ s => s.1 = column.onto containsTableSpec used := by
  obtain ⟨tableSpec, htableSpec, hencode⟩ := exists_of_bind_eq_ok hencode
  obtain ⟨name, hname, hencode⟩ := exists_of_bind_eq_ok hencode
  obtain ⟨type, htype, hencode⟩ := exists_of_bind_eq_ok hencode
  cases hencode
  apply consumes_tableSpec htableSpec
  apply consumes_string hname
  apply consumes_write
  cases containsTableSpec with
  | false => exact (consumes_type h htype).mono fun _ s hs => hs
  | true => exact (consumes_type h htype).mono fun _ s hs => hs

/-- The columns before an index are done, and those from there on are decoded in place of the
ones that are there, as long as there are any. -/
theorem consumes_decodeColumns (h : ∀ column ∈ columns, column.Typed)
    (hencode : encodeAll (encode containsTableSpec) columns = .ok encoded)
    (done extra : List ProtocolResultColumn) (memory : OptionMemory) :
    Consumes (decodeColumns containsTableSpec columns.length done.length) encoded
      (done ++ extra, memory) fun _ s =>
        s.1 = done ++ ontoAll containsTableSpec columns extra ++ extra.drop columns.length := by
  induction columns generalizing done extra memory encoded with
  | nil =>
    cases hencode
    exact .pure (by simp [ontoAll])
  | cons column columns ih =>
    obtain ⟨bytes, more, hfirst, hmore, rfl⟩ := encodeAll_cons hencode
    have hthere : (if (done ++ extra).length ≤ done.length then done ++ extra ++ [create]
        else done ++ extra) = done ++ extra.headD create :: extra.tail := by
      cases extra with
      | nil => simp
      | cons _ _ => simp
    intro rest
    rw [List.length_cons, decodeColumns_succ, hthere]
    apply Consumes.bind (Q := fun _ s =>
      s.1 = done ++ [column.onto containsTableSpec (extra.headD create)] ++ extra.tail)
    · apply consumes_member
      have hget : (done ++ extra.headD create :: extra.tail).getD done.length create =
          extra.headD create := by simp
      simp only [hget]
      refine (consumes_decode (h column List.mem_cons_self) hfirst).mono fun _ s hs => ?_
      simp [hs]
    · rintro _ ⟨_, memory'⟩ rfl
      have hrest := ih (fun other hother => h other (List.mem_cons_of_mem _ hother)) hmore
        (done ++ [column.onto containsTableSpec (extra.headD create)]) extra.tail memory'
      rw [List.length_append, List.length_singleton] at hrest
      refine hrest.mono fun _ s hs => ?_
      simp [hs, ontoAll, List.drop_tail]

/-- As many columns as there are room for are used up. -/
theorem ontoAll_take (columns used : List ProtocolResultColumn) :
    ontoAll containsTableSpec columns (used.take columns.length) =
      ontoAll containsTableSpec columns used := by
  induction columns generalizing used with
  | nil => rfl
  | cons column columns ih =>
    cases used with
    | nil => simp
    | cons first used => simp [ontoAll, ih]

theorem onto_onto (column used : ProtocolResultColumn) :
    (column.onto containsTableSpec used).onto containsTableSpec create =
      column.onto containsTableSpec create := by
  cases containsTableSpec with
  | false => rfl
  | true => rfl

/-- What other columns leave behind is in the table specifications only. -/
theorem map_ontoAll (columns used : List ProtocolResultColumn) :
    (ontoAll containsTableSpec columns used).map (·.onto containsTableSpec create) =
      columns.map (·.onto containsTableSpec create) := by
  induction columns generalizing used with
  | nil => rfl
  | cons column columns ih => simp [ontoAll, ih, onto_onto]

/-- Without other columns the new ones are default constructed. -/
theorem ontoAll_nil (columns : List ProtocolResultColumn) :
    ontoAll containsTableSpec columns [] = columns.map (·.onto containsTableSpec create) := by
  induction columns with
  | nil => rfl
  | cons column columns ih => simp [ontoAll, ih]

end ProtocolResultColumn

/-! ## Flags and counts -/

/-- `enumValue(getFlags() | flag)` for the flag with the given bit. -/
def addFlag (flags : Int) (bit : Nat) : Int := toSigned 32 (ofSigned 32 flags ||| 2 ^ bit)

/-- `enumValue(getFlags() & ~flag)` for the flag with the given bit. -/
def removeFlag (flags : Int) (bit : Nat) : Int :=
  toSigned 32 (ofSigned 32 flags &&& (2 ^ 32 - 1 - 2 ^ bit))

/-- The value of a 32-bit integer. -/
def IsInt (value : Int) : Prop := toSigned 32 (ofSigned 32 value) = value

instance (value : Int) : Decidable (IsInt value) := inferInstanceAs (Decidable (_ = _))

theorem ofSigned_toSigned {n : Nat} (h : n < 2 ^ 32) : ofSigned 32 (toSigned 32 n) = n := by
  rw [ofSigned, toSigned]
  split <;> omega

theorem isInt_toSigned {n : Nat} (h : n < 2 ^ 32) : IsInt (toSigned 32 n) := by
  rw [IsInt, ofSigned_toSigned h]

theorem isInt_intOfSize (n : Nat) : IsInt (intOfSize n) :=
  isInt_toSigned (Nat.mod_lt _ (by decide))

theorem ofSigned_lt (value : Int) : ofSigned 32 value < 2 ^ 32 := by
  rw [ofSigned]
  omega

section Flags

variable (flags : Int) {bit other : Nat}

theorem addFlag_lt (h : bit < 32) : ofSigned 32 flags ||| 2 ^ bit < 2 ^ 32 :=
  Nat.or_lt_two_pow (ofSigned_lt flags) (Nat.pow_lt_pow_right (by decide) h)

theorem removeFlag_lt (bit : Nat) : ofSigned 32 flags &&& (2 ^ 32 - 1 - 2 ^ bit) < 2 ^ 32 :=
  Nat.and_le_left.trans_lt (ofSigned_lt flags)

theorem isInt_addFlag (h : bit < 32) : IsInt (addFlag flags bit) :=
  isInt_toSigned (addFlag_lt flags h)

theorem isInt_removeFlag (bit : Nat) : IsInt (removeFlag flags bit) :=
  isInt_toSigned (removeFlag_lt flags bit)

theorem hasFlag_addFlag (h : bit < 32) :
    hasFlag (addFlag flags bit) other = (hasFlag flags other || decide (bit = other)) := by
  rw [hasFlag, addFlag, ofSigned_toSigned (addFlag_lt flags h), Nat.testBit_or,
    Nat.testBit_two_pow, hasFlag]

theorem hasFlag_removeFlag (h : bit < 32) (h' : other < 32) :
    hasFlag (removeFlag flags bit) other = (hasFlag flags other && !decide (bit = other)) := by
  have hlt : 2 ^ bit < 2 ^ 32 := Nat.pow_lt_pow_right (by decide) h
  have hmask : 2 ^ 32 - 1 - 2 ^ bit = 2 ^ 32 - (2 ^ bit + 1) := by omega
  rw [hasFlag, removeFlag, ofSigned_toSigned (removeFlag_lt flags bit), Nat.testBit_and, hmask,
    Nat.testBit_two_pow_sub_succ hlt, Nat.testBit_two_pow, hasFlag]
  simp [h']

end Flags

theorem consumes_int {σ β : Type} {x : σ} {value : Int} {f : Int → Decoder σ β}
    {R : β → σ → Prop} {more : Bytes} (h : IsInt value) (hnext : Consumes (f value) more x R) :
    Consumes (ProtocolInt.decode >>= f) (ProtocolInt.encode value ++ more) x R := by
  refine .read (fun rest => ?_) hnext
  rw [ProtocolInt.decode_encode_mod, h]

theorem sizeOfInt_natCast {n : Nat} (h : n < 2 ^ 31) : sizeOfInt n = n := by
  rw [sizeOfInt, ofSigned]
  omega

/-- An integer that is a count is one of 31 bits. -/
theorem sizeOfInt_eq_iff {value : Int} {n : Nat} (h : IsInt value) (hlt : n < 2 ^ 63) :
    sizeOfInt value = n ↔ value = n := by
  rw [IsInt, toSigned, ofSigned] at h
  rw [sizeOfInt, ofSigned]
  split at h <;> omega

/-! ## The metadata of rows -/

/-- The setters of the metadata of rows. -/
inductive RowsMetadataCall
  | reset
  | setColumnsCount (columnsCount : Nat)
  | setPagingState (pagingState : Bytes)
  | setGlobalKeySpaceAndTable (keySpace table : Bytes)
  | setColumns (columns : List ProtocolResultColumn)

/-- A vector of columns that can be encoded and decoded one by one. -/
def RowsMetadataCall.Valid : RowsMetadataCall → Prop
  | setColumns columns => columns.length < 2 ^ 63 ∧ ∀ column ∈ columns, column.Typed
  | _ => True

/-- What metadata of rows are about. -/
structure RowsMetadataParts where
  columnsCount : Int
  pagingState : Option Bytes
  table : Option (Bytes × Bytes)
  columns : Option (List ProtocolResultColumn)

namespace RowsMetadataParts

def empty : RowsMetadataParts := ⟨0, none, none, none⟩

/-- What a setter changes. -/
def apply (parts : RowsMetadataParts) : RowsMetadataCall → RowsMetadataParts
  | .reset => empty
  | .setColumnsCount columnsCount => { parts with columnsCount := intOfSize columnsCount }
  | .setPagingState pagingState => { parts with pagingState := some pagingState }
  | .setGlobalKeySpaceAndTable keySpace table => { parts with table := some (keySpace, table) }
  | .setColumns columns =>
    { parts with columnsCount := intOfSize columns.length, columns := some columns }

def build (calls : List RowsMetadataCall) : RowsMetadataParts := calls.foldl apply empty

/-- What is on the wire: the table is sent along with columns only, and when it is, the columns
have none of their own. -/
def sent (parts : RowsMetadataParts) : RowsMetadataParts :=
  match parts.columns with
  | none => { parts with table := none }
  | some columns =>
    { parts with columns := some (columns.map fun column =>
      column.onto parts.table.isNone .create) }

/-- The lengths can be written, and the columns are as many as the count says. -/
@[mk_iff]
structure Fits (parts : RowsMetadataParts) : Prop where
  pagingState : ∀ pagingState ∈ parts.pagingState, pagingState.length < 2 ^ 31
  columnsCount : ∀ columns ∈ parts.columns, parts.columnsCount = columns.length
  table : parts.columns ≠ none →
    ∀ table ∈ parts.table, table.1.length < 2 ^ 16 ∧ table.2.length < 2 ^ 16
  columns : ∀ columns ∈ parts.columns, ∀ column ∈ columns, column.Fits parts.table.isNone

end RowsMetadataParts

namespace ProtocolResultRowsMetadata

def setColumnsCount (columnsCount : Nat) (metadata : ProtocolResultRowsMetadata) :
    ProtocolResultRowsMetadata :=
  { metadata with columnsCount := intOfSize columnsCount }

/-- Also indicates there are more pages. -/
def setPagingState (pagingState : Bytes) (metadata : ProtocolResultRowsMetadata) :
    ProtocolResultRowsMetadata :=
  { metadata with pagingState := some pagingState, flags := addFlag metadata.flags 1 }

def setGlobalKeySpaceAndTable (keySpace table : Bytes) (metadata : ProtocolResultRowsMetadata) :
    ProtocolResultRowsMetadata :=
  { metadata with
    globalKeySpace := keySpace
    globalTable := table
    flags := addFlag metadata.flags 0 }

def setColumns (columns : List ProtocolResultColumn) (metadata : ProtocolResultRowsMetadata) :
    ProtocolResultRowsMetadata :=
  { metadata with
    columnsCount := intOfSize columns.length
    columns
    flags := removeFlag metadata.flags 2 }

/-- Call a setter. -/
def apply (metadata : ProtocolResultRowsMetadata) : RowsMetadataCall → ProtocolResultRowsMetadata
  | .reset => metadata.reset
  | .setColumnsCount columnsCount => metadata.setColumnsCount columnsCount
  | .setPagingState pagingState => metadata.setPagingState pagingState
  | .setGlobalKeySpaceAndTable keySpace table => metadata.setGlobalKeySpaceAndTable keySpace table
  | .setColumns columns => metadata.setColumns columns

/-- Metadata that were constructed and filled. -/
def build (calls : List RowsMetadataCall) : ProtocolResultRowsMetadata := calls.foldl apply create

/-- `throw LogicException(CQL_CODEINFO, "columns count != columns.size()")`. -/
def countMismatch : Failure := .exception (logicException "columns count != columns.size()")

/-- The columns, if they are as many as the count says. -/
def encodeColumns (metadata : ProtocolResultRowsMetadata) : Encoded :=
  if sizeOfInt metadata.columnsCount ≠ metadata.columns.length then .error countMismatch
  else encodeAll (ProtocolResultColumn.encode (!hasFlag metadata.flags 0)) metadata.columns

/-- The table specification and the columns. -/
def encodeSpecs (metadata : ProtocolResultRowsMetadata) : Encoded :=
  if !hasFlag metadata.flags 2 then do
    let tableSpec ←
      encodeTableSpec (hasFlag metadata.flags 0) metadata.globalKeySpace metadata.globalTable
    return tableSpec ++ (← metadata.encodeColumns)
  else .ok []

/-- The paging state, when there are more pages. -/
def encodePagingState (metadata : ProtocolResultRowsMetadata) : Encoded :=
  if hasFlag metadata.flags 1 then ProtocolBytes.encode metadata.pagingState else .ok []

/-- Encode to binary data. -/
def encode (metadata : ProtocolResultRowsMetadata) : Encoded := do
  let pagingState ← metadata.encodePagingState
  return ProtocolInt.encode metadata.flags ++
    (ProtocolInt.encode metadata.columnsCount ++ (pagingState ++ (← metadata.encodeSpecs)))

/-- The parts that the flags announce. -/
def parts (metadata : ProtocolResultRowsMetadata) : RowsMetadataParts where
  columnsCount := metadata.columnsCount
  pagingState := if hasFlag metadata.flags 1 then some metadata.getPagingState else none
  table := if hasFlag metadata.flags 0 then some (metadata.globalKeySpace, metadata.globalTable)
    else none
  columns := if hasFlag metadata.flags 2 then none else some metadata.columns

/-- Metadata after others were decoded into them. -/
def onto (metadata used : ProtocolResultRowsMetadata) : ProtocolResultRowsMetadata where
  flags := metadata.flags
  columnsCount := metadata.columnsCount
  pagingState := if hasFlag metadata.flags 1 then metadata.pagingState else used.pagingState
  globalKeySpace := if !hasFlag metadata.flags 2 && hasFlag metadata.flags 0 then
    metadata.globalKeySpace else used.globalKeySpace
  globalTable := if !hasFlag metadata.flags 2 && hasFlag metadata.flags 0 then
    metadata.globalTable else used.globalTable
  columns := if hasFlag metadata.flags 2 then used.columns
    else ProtocolResultColumn.ontoAll (!hasFlag metadata.flags 0) metadata.columns used.columns

/-- The integers are 32 bits wide, and the columns can be encoded and decoded one by one. -/
structure Valid (metadata : ProtocolResultRowsMetadata) : Prop where
  flags : IsInt metadata.flags
  columnsCount : IsInt metadata.columnsCount
  length : metadata.columns.length < 2 ^ 63
  typed : ∀ column ∈ metadata.columns, column.Typed

variable {metadata used : ProtocolResultRowsMetadata} {calls : List RowsMetadataCall}
  {memory : OptionMemory} {encoded : Bytes}

theorem isInt_zero : IsInt 0 := by decide

theorem isInt_noMetadata : IsInt noMetadata := by decide

@[simp] theorem hasFlag_noMetadata :
    hasFlag noMetadata 0 = false ∧ hasFlag noMetadata 1 = false ∧ hasFlag noMetadata 2 = true := by
  decide

theorem Valid.apply (h : metadata.Valid) {call : RowsMetadataCall} (hcall : call.Valid) :
    (metadata.apply call).Valid := by
  cases call with
  | reset => exact ⟨isInt_noMetadata, isInt_zero, h.length, h.typed⟩
  | setColumnsCount columnsCount => exact ⟨h.flags, isInt_intOfSize _, h.length, h.typed⟩
  | setPagingState pagingState =>
    exact ⟨isInt_addFlag _ (by decide), h.columnsCount, h.length, h.typed⟩
  | setGlobalKeySpaceAndTable keySpace table =>
    exact ⟨isInt_addFlag _ (by decide), h.columnsCount, h.length, h.typed⟩
  | setColumns columns => exact ⟨isInt_removeFlag _ _, isInt_intOfSize _, hcall.1, hcall.2⟩

/-- A setter changes the parts and keeps the flags in step with them. -/
theorem parts_apply (metadata : ProtocolResultRowsMetadata) (call : RowsMetadataCall) :
    (metadata.apply call).parts = metadata.parts.apply call := by
  cases call with
  | reset => simp [apply, reset, parts, RowsMetadataParts.apply, RowsMetadataParts.empty]
  | setColumnsCount columnsCount => rfl
  | setPagingState pagingState =>
    simp [apply, setPagingState, parts, RowsMetadataParts.apply, hasFlag_addFlag, getPagingState]
  | setGlobalKeySpaceAndTable keySpace table =>
    simp [apply, setGlobalKeySpaceAndTable, parts, RowsMetadataParts.apply, hasFlag_addFlag,
      getPagingState]
  | setColumns columns =>
    simp [apply, setColumns, parts, RowsMetadataParts.apply, hasFlag_removeFlag, getPagingState]

/-- Metadata that were built are valid and about what the setters were called with. -/
theorem build_sound (h : ∀ call ∈ calls, call.Valid) :
    (build calls).Valid ∧ (build calls).parts = RowsMetadataParts.build calls := by
  have hcreate : create.parts = .empty := by
    simp [create, parts, RowsMetadataParts.empty]
  have hvalid : create.Valid := ⟨isInt_noMetadata, isInt_zero, by decide, fun _ h => by cases h⟩
  have hsound := Math.foldl_sound (fun _ _ h hcall => h.apply hcall) parts_apply hvalid h
  rwa [hcreate] at hsound

theorem returns_encodeColumns (h : metadata.Valid) : Returns metadata.encodeColumns ↔
    metadata.columnsCount = metadata.columns.length ∧
      ∀ column ∈ metadata.columns, column.Fits (!hasFlag metadata.flags 0) := by
  rw [encodeColumns, returns_ite, ProtocolResultColumn.returns_encodeAll h.typed, ne_eq,
    sizeOfInt_eq_iff h.columnsCount h.length]
  constructor
  · rintro ⟨hcount, hfits⟩
    have hsame := not_imp_comm.mp hcount (not_returns_error countMismatch)
    exact ⟨hsame, hfits (not_not_intro hsame)⟩
  · rintro ⟨hsame, hfits⟩
    exact ⟨fun hcount => absurd hsame hcount, fun _ => hfits⟩

/-- What can be encoded is what fits. -/
theorem returns_encode (h : metadata.Valid) : Returns metadata.encode ↔ metadata.parts.Fits := by
  rw [encode, returns_bind_iff fun _ => returns_bind_pure, encodePagingState, encodeSpecs,
    returns_ite, returns_ite, returns_bind_iff fun _ => returns_bind_pure,
    returns_encodeTableSpec, returns_encodeColumns h, returns_encode_bytes]
  rw [RowsMetadataParts.fits_iff, parts]
  cases hglobal : hasFlag metadata.flags 0 with
  | false => cases hpaging : hasFlag metadata.flags 1 <;> cases hnone : hasFlag metadata.flags 2 <;>
      simp [getPagingState]
  | true => cases hpaging : hasFlag metadata.flags 1 <;> cases hnone : hasFlag metadata.flags 2 <;>
      simp [getPagingState, and_left_comm, and_assoc]

/-- Metadata with the columns of others. -/
def ontoColumns (metadata used : ProtocolResultRowsMetadata) : ProtocolResultRowsMetadata :=
  { used with columns :=
    ProtocolResultColumn.ontoAll (!hasFlag metadata.flags 0) metadata.columns used.columns }

theorem consumes_decodeColumns (h : metadata.Valid) (hencode : metadata.encodeColumns = .ok encoded) :
    Consumes (decodeColumns metadata.flags metadata.columnsCount) encoded (used, memory)
      fun _ s => s.1 = metadata.ontoColumns used := by
  rw [encodeColumns] at hencode
  split at hencode
  · cases hencode
  next hsame =>
    have hcount := (sizeOfInt_eq_iff h.columnsCount h.length).mp (not_not.mp hsame)
    rw [decodeColumns, hcount, if_neg (by omega), Int.toNat_natCast]
    apply consumes_write
    apply consumes_member
    have hcolumns := ProtocolResultColumn.consumes_decodeColumns h.typed hencode []
      (used.columns.take metadata.columns.length) memory
    refine hcolumns.mono fun _ s hs => ?_
    simp [hs, ontoColumns, ProtocolResultColumn.ontoAll_take]

/-- What is decoded before the table specification. -/
def ontoHeader (metadata used : ProtocolResultRowsMetadata) : ProtocolResultRowsMetadata :=
  { used with
    flags := metadata.flags
    columnsCount := metadata.columnsCount
    pagingState := if hasFlag metadata.flags 1 then metadata.pagingState else used.pagingState }

theorem consumes_decodeSpecs (used : ProtocolResultRowsMetadata) (memory : OptionMemory)
    (h : metadata.Valid) (hencode : metadata.encodeSpecs = .ok encoded) :
    Consumes (if !hasFlag metadata.flags 2 then
        decodeSpecs metadata.flags metadata.columnsCount else pure ()) encoded
      (metadata.ontoHeader used, memory) fun _ s => s.1 = metadata.onto used := by
  rw [encodeSpecs] at hencode
  split at hencode
  next hsent =>
    obtain ⟨tableSpec, htableSpec, hencode⟩ := exists_of_bind_eq_ok hencode
    obtain ⟨columns, hcolumns, hencode⟩ := exists_of_bind_eq_ok hencode
    cases hencode
    rw [if_pos hsent]
    apply consumes_tableSpec htableSpec
    refine (consumes_decodeColumns h hcolumns).mono fun _ s hs => ?_
    have hcolumns : hasFlag metadata.flags 2 = false := by simpa using hsent
    cases hglobal : hasFlag metadata.flags 0 with
    | false => simp [hs, ontoColumns, onto, ontoHeader, hcolumns, hglobal]
    | true => simp [hs, ontoColumns, onto, ontoHeader, hcolumns, hglobal]
  next hsent =>
    cases hencode
    rw [if_neg hsent]
    have hnone : hasFlag metadata.flags 2 = true := by simpa using hsent
    exact .pure (by simp [onto, ontoHeader, hnone])

/-- What was encoded is decoded over the parts that it announces. -/
theorem consumes_decode (h : metadata.Valid) (hencode : metadata.encode = .ok encoded)
    (used : ProtocolResultRowsMetadata) (memory : OptionMemory) :
    Consumes decode encoded (used, memory) fun _ s => s.1 = metadata.onto used := by
  obtain ⟨pagingState, hpaging, hencode⟩ := exists_of_bind_eq_ok hencode
  obtain ⟨specs, hspecs, hencode⟩ := exists_of_bind_eq_ok hencode
  cases hencode
  have hrest := consumes_decodeSpecs used memory h hspecs
  rw [ontoHeader] at hrest
  apply consumes_int h.flags
  apply consumes_write
  apply consumes_int h.columnsCount
  apply consumes_write
  rw [encodePagingState] at hpaging
  split at hpaging
  next hmore =>
    rw [if_pos hmore] at hrest ⊢
    exact .read (fun rest => ProtocolBytes.decode_append hpaging) (consumes_write hrest)
  next hmore =>
    cases hpaging
    rw [if_neg hmore] at hrest ⊢
    exact hrest

/-- What was left in the object is not among what was sent. -/
theorem sent_onto (metadata used : ProtocolResultRowsMetadata) :
    (metadata.onto used).parts.sent = metadata.parts.sent := by
  cases hnone : hasFlag metadata.flags 2 with
  | true => cases hpaging : hasFlag metadata.flags 1 <;>
      simp [onto, parts, RowsMetadataParts.sent, getPagingState, hnone, hpaging]
  | false => cases hglobal : hasFlag metadata.flags 0 <;>
      cases hpaging : hasFlag metadata.flags 1 <;>
      simp [onto, parts, RowsMetadataParts.sent, getPagingState, hnone, hglobal, hpaging,
        ProtocolResultColumn.map_ontoAll]

/-- Metadata that were filled by any setters can be encoded exactly when what was set fits, and
are then decoded, over anything, to the same flags and what was set. -/
theorem rows_decodes_build (h : ∀ call ∈ calls, call.Valid) :
    (Returns (build calls).encode ↔ (RowsMetadataParts.build calls).Fits) ∧
      ∀ encoded, (build calls).encode = .ok encoded → ∀ used memory rest, ∃ decoded memory',
        decode ⟨(used, memory), encoded ++ rest⟩ = .ok () ⟨(decoded, memory'), rest⟩ ∧
          decoded.flags = (build calls).flags ∧
            decoded.parts.sent = (RowsMetadataParts.build calls).sent := by
  obtain ⟨hvalid, hparts⟩ := build_sound h
  rw [returns_encode hvalid, hparts]
  refine ⟨.rfl, fun encoded hencode used memory rest => ?_⟩
  obtain ⟨⟨decoded, memory'⟩, hdecode, hdecoded⟩ :=
    (consumes_decode hvalid hencode used memory).exists_ok rest
  have hsame : decoded = (build calls).onto used := hdecoded
  refine ⟨decoded, memory', hdecode, ?_, ?_⟩
  · rw [hsame]
    rfl
  · rw [hsame, sent_onto, hparts]

/-- The first page of a table with one column. -/
def firstPage : List RowsMetadataCall :=
  [.setPagingState [0x01], .setGlobalKeySpaceAndTable [0x6b] [0x74],
    .setColumns [⟨[], [], [0x61], ⟨NativeType.int.code, []⟩⟩]]

theorem valid_firstPage : ∀ call ∈ firstPage, call.Valid := by
  intro call hcall
  simp only [firstPage, List.mem_cons, List.not_mem_nil, or_false] at hcall
  rcases hcall with rfl | rfl | rfl
  · trivial
  · trivial
  · refine ⟨by decide, fun column hcolumn => ?_⟩
    rw [List.mem_singleton.mp hcolumn]
    exact ⟨.native .int, trivial, trivial, rfl⟩

theorem fits_firstPage : (RowsMetadataParts.build firstPage).Fits := by
  refine ⟨by decide, by decide, by decide, fun columns hcolumns column hcolumn => ?_⟩
  cases hcolumns
  rw [List.mem_singleton.mp hcolumn]
  exact ⟨by decide, by decide, by decide⟩

theorem returns_firstPage : Returns (build firstPage).encode := by
  obtain ⟨hvalid, hparts⟩ := build_sound valid_firstPage
  rw [returns_encode hvalid, hparts]
  exact fits_firstPage

/-- It is decoded over what another page has left. -/
theorem rows_decodes_build_firstPage :
    Returns (build firstPage).encode ∧
      ∀ encoded, (build firstPage).encode = .ok encoded → ∀ used memory rest, ∃ decoded memory',
        decode ⟨(used, memory), encoded ++ rest⟩ = .ok () ⟨(decoded, memory'), rest⟩ ∧
          decoded.flags = (build firstPage).flags ∧
            decoded.parts.sent = (RowsMetadataParts.build firstPage).sent := by
  exact ⟨returns_firstPage, (rows_decodes_build valid_firstPage).2⟩

end ProtocolResultRowsMetadata

/-! ## The metadata of a prepared query -/

/-- The setters of the metadata of a prepared query. -/
inductive PreparedMetadataCall
  | reset
  | setPartitionKeyIndexes (partitionKeyIndexes : List Nat)
  | setGlobalKeySpaceAndTable (keySpace table : Bytes)
  | setColumns (columns : List ProtocolResultColumn)

/-- Indexes of 16 bits, and columns that can be encoded and decoded one by one. -/
def PreparedMetadataCall.Valid : PreparedMetadataCall → Prop
  | setPartitionKeyIndexes partitionKeyIndexes => ∀ index ∈ partitionKeyIndexes, index < 2 ^ 16
  | setColumns columns => ∀ column ∈ columns, column.Typed
  | _ => True

/-- What metadata of a prepared query are about. -/
structure PreparedMetadataParts where
  partitionKeyIndexes : List Nat
  table : Option (Bytes × Bytes)
  columns : List ProtocolResultColumn

namespace PreparedMetadataParts

def empty : PreparedMetadataParts := ⟨[], none, []⟩

/-- What a setter changes. -/
def apply (parts : PreparedMetadataParts) : PreparedMetadataCall → PreparedMetadataParts
  | .reset => empty
  | .setPartitionKeyIndexes partitionKeyIndexes => { parts with partitionKeyIndexes }
  | .setGlobalKeySpaceAndTable keySpace table => { parts with table := some (keySpace, table) }
  | .setColumns columns => { parts with columns }

def build (calls : List PreparedMetadataCall) : PreparedMetadataParts := calls.foldl apply empty

/-- What is on the wire: with a table for all columns they have none of their own. -/
def sent (parts : PreparedMetadataParts) : PreparedMetadataParts :=
  { parts with columns := parts.columns.map (·.onto parts.table.isNone .create) }

/-- The lengths can be written. -/
@[mk_iff]
structure Fits (parts : PreparedMetadataParts) : Prop where
  columnsCount : parts.columns.length < 2 ^ 31
  partitionKeyIndexesCount : parts.partitionKeyIndexes.length < 2 ^ 31
  table : ∀ table ∈ parts.table, table.1.length < 2 ^ 16 ∧ table.2.length < 2 ^ 16
  columns : ∀ column ∈ parts.columns, column.Fits parts.table.isNone

end PreparedMetadataParts

namespace ProtocolResultPreparedMetadata

def setPartitionKeyIndexes (partitionKeyIndexes : List Nat)
    (metadata : ProtocolResultPreparedMetadata) : ProtocolResultPreparedMetadata :=
  { metadata with partitionKeyIndexes }

def setGlobalKeySpaceAndTable (keySpace table : Bytes)
    (metadata : ProtocolResultPreparedMetadata) : ProtocolResultPreparedMetadata :=
  { metadata with
    globalKeySpace := keySpace
    globalTable := table
    flags := addFlag metadata.flags 0 }

def setColumns (columns : List ProtocolResultColumn)
    (metadata : ProtocolResultPreparedMetadata) : ProtocolResultPreparedMetadata :=
  { metadata with columns }

/-- Call a setter. -/
def apply (metadata : ProtocolResultPreparedMetadata) :
    PreparedMetadataCall → ProtocolResultPreparedMetadata
  | .reset => metadata.reset
  | .setPartitionKeyIndexes partitionKeyIndexes =>
    metadata.setPartitionKeyIndexes partitionKeyIndexes
  | .setGlobalKeySpaceAndTable keySpace table => metadata.setGlobalKeySpaceAndTable keySpace table
  | .setColumns columns => metadata.setColumns columns

/-- Metadata that were constructed and filled. -/
def build (calls : List PreparedMetadataCall) : ProtocolResultPreparedMetadata :=
  calls.foldl apply create

/-- `throw LogicException(...)` for a count that is not the size. -/
def tooMany (what : String) : Failure :=
  .exception (logicException ("too many " ++ what ++ " cause overflow"))

/-- The count of a vector, if it is one of 31 bits. -/
def encodeCount (what : String) (size : Nat) : Encoded :=
  if intOfSize size < 0 ∨ sizeOfInt (intOfSize size) ≠ size then .error (tooMany what)
  else .ok (ProtocolInt.encode (intOfSize size))

/-- Encode to binary data. -/
def encode (metadata : ProtocolResultPreparedMetadata) : Encoded := do
  let columnsCount ← encodeCount "columns" metadata.columns.length
  let partitionKeyIndexesCount ←
    encodeCount "partition key indexes" metadata.partitionKeyIndexes.length
  let tableSpec ←
    encodeTableSpec (hasFlag metadata.flags 0) metadata.globalKeySpace metadata.globalTable
  let columns ←
    encodeAll (ProtocolResultColumn.encode (!hasFlag metadata.flags 0)) metadata.columns
  return ProtocolInt.encode metadata.flags ++ (columnsCount ++ (partitionKeyIndexesCount ++
    (metadata.partitionKeyIndexes.flatMap ProtocolShort.encode ++ (tableSpec ++ columns))))

/-- The parts that the flags announce. -/
def parts (metadata : ProtocolResultPreparedMetadata) : PreparedMetadataParts where
  partitionKeyIndexes := metadata.partitionKeyIndexes
  table := if hasFlag metadata.flags 0 then some (metadata.globalKeySpace, metadata.globalTable)
    else none
  columns := metadata.columns

/-- Metadata after others were decoded into them. -/
def onto (metadata used : ProtocolResultPreparedMetadata) : ProtocolResultPreparedMetadata where
  flags := metadata.flags
  partitionKeyIndexes := metadata.partitionKeyIndexes
  globalKeySpace := if hasFlag metadata.flags 0 then metadata.globalKeySpace
    else used.globalKeySpace
  globalTable := if hasFlag metadata.flags 0 then metadata.globalTable else used.globalTable
  columns := metadata.columns.map (·.onto (!hasFlag metadata.flags 0) .create)

/-- The integers have as many bits as on the wire, and the columns can be encoded and decoded one
by one. -/
structure Valid (metadata : ProtocolResultPreparedMetadata) : Prop where
  flags : IsInt metadata.flags
  index_lt : ∀ index ∈ metadata.partitionKeyIndexes, index < 2 ^ 16
  typed : ∀ column ∈ metadata.columns, column.Typed

variable {metadata : ProtocolResultPreparedMetadata} {calls : List PreparedMetadataCall}
  {memory : OptionMemory} {encoded : Bytes}

@[simp] theorem not_hasFlag_zero : hasFlag 0 0 = false := by decide

theorem Valid.apply (h : metadata.Valid) {call : PreparedMetadataCall} (hcall : call.Valid) :
    (metadata.apply call).Valid := by
  cases call with
  | reset =>
    exact ⟨ProtocolResultRowsMetadata.isInt_zero, fun _ hindex => (by cases hindex),
      fun _ hcolumn => (by cases hcolumn)⟩
  | setPartitionKeyIndexes partitionKeyIndexes => exact ⟨h.flags, hcall, h.typed⟩
  | setGlobalKeySpaceAndTable keySpace table =>
    exact ⟨isInt_addFlag _ (by decide), h.index_lt, h.typed⟩
  | setColumns columns => exact ⟨h.flags, h.index_lt, hcall⟩

/-- A setter changes the parts and keeps the flags in step with them. -/
theorem parts_apply (metadata : ProtocolResultPreparedMetadata) (call : PreparedMetadataCall) :
    (metadata.apply call).parts = metadata.parts.apply call := by
  cases call with
  | reset =>
    simp [apply, reset, create, parts, PreparedMetadataParts.apply, PreparedMetadataParts.empty]
  | setPartitionKeyIndexes partitionKeyIndexes => rfl
  | setGlobalKeySpaceAndTable keySpace table =>
    simp [apply, setGlobalKeySpaceAndTable, parts, PreparedMetadataParts.apply, hasFlag_addFlag]
  | setColumns columns => rfl

/-- Metadata that were built are valid and about what the setters were called with. -/
theorem build_sound (h : ∀ call ∈ calls, call.Valid) :
    (build calls).Valid ∧ (build calls).parts = PreparedMetadataParts.build calls := by
  have hcreate : create.parts = .empty := by
    simp [create, parts, PreparedMetadataParts.empty]
  have hvalid : create.Valid := ⟨ProtocolResultRowsMetadata.isInt_zero, fun _ h => (by cases h),
    fun _ h => (by cases h)⟩
  have hsound := Math.foldl_sound (fun _ _ h hcall => h.apply hcall) parts_apply hvalid h
  rwa [hcreate] at hsound

theorem encodeCount_eq (what : String) {size : Nat} (h : size < 2 ^ 31) :
    encodeCount what size = .ok (ProtocolInt.encode size) := by
  rw [encodeCount, intOfSize_eq h, sizeOfInt_natCast h, if_neg (by omega)]

theorem returns_encodeCount (what : String) (size : Nat) :
    Returns (encodeCount what size) ↔ size < 2 ^ 31 := by
  constructor
  · rintro ⟨bytes, h⟩
    rw [encodeCount] at h
    split at h
    · cases h
    next hsame =>
      rw [not_or, not_not, sizeOfInt, ofSigned, intOfSize, toSigned] at hsame
      split at hsame <;> omega
  · intro h
    exact ⟨_, encodeCount_eq what h⟩

/-- What can be encoded is what fits. -/
theorem returns_encode (h : metadata.Valid) : Returns metadata.encode ↔ metadata.parts.Fits := by
  rw [encode, returns_bind_iff fun _ => returns_bind_iff fun _ => returns_bind_iff fun _ =>
    returns_bind_pure, returns_encodeCount, returns_encodeCount, returns_encodeTableSpec,
    ProtocolResultColumn.returns_encodeAll h.typed, PreparedMetadataParts.fits_iff, parts]
  cases hglobal : hasFlag metadata.flags 0 with
  | false => simp
  | true => simp

/-- The indexes are appended one by one. -/
theorem foldl_indexes (indexes done : List Nat) :
    indexes.foldl (fun (s : ProtocolResultPreparedMetadata × OptionMemory) index =>
        ({ s.1 with partitionKeyIndexes := s.1.partitionKeyIndexes ++ [index] }, s.2))
        ({ metadata with partitionKeyIndexes := done }, memory) =
      ({ metadata with partitionKeyIndexes := done ++ indexes }, memory) := by
  induction indexes generalizing done with
  | nil => simp
  | cons index indexes ih => simp [ih]

/-- What was encoded is decoded, and only a table specification that was not sent is left over. -/
theorem consumes_decode (h : metadata.Valid) (hencode : metadata.encode = .ok encoded)
    (used : ProtocolResultPreparedMetadata) (memory : OptionMemory) :
    Consumes decode encoded (used, memory) fun _ s => s.1 = metadata.onto used := by
  have hfits := (returns_encode h).mp ⟨encoded, hencode⟩
  have hcolumnsCount : metadata.columns.length < 2 ^ 31 := hfits.columnsCount
  have hindexesCount : metadata.partitionKeyIndexes.length < 2 ^ 31 :=
    hfits.partitionKeyIndexesCount
  rw [encode, encodeCount_eq _ hcolumnsCount, encodeCount_eq _ hindexesCount, ok_bind, ok_bind]
    at hencode
  obtain ⟨tableSpec, htableSpec, hencode⟩ := exists_of_bind_eq_ok hencode
  obtain ⟨columns, hcolumns, hencode⟩ := exists_of_bind_eq_ok hencode
  cases hencode
  apply consumes_int h.flags
  apply consumes_write
  refine .read (fun rest => ProtocolInt.decode_append hcolumnsCount) ?_
  refine .read (fun rest => ProtocolInt.decode_append hindexesCount) ?_
  rw [if_neg (by omega), if_neg (by omega), Int.toNat_natCast, Int.toNat_natCast]
  apply consumes_write
  apply Consumes.bind (Q := fun _ s => s = ({ used with
    flags := metadata.flags, partitionKeyIndexes := metadata.partitionKeyIndexes }, memory))
  · refine (Consumes.times (fun s index => ({ s.1 with
      partitionKeyIndexes := s.1.partitionKeyIndexes ++ [index] }, s.2)) _ ?_ _).mono ?_
    · intro index hindex x rest
      rw [Decode.bind_ok (ProtocolShort.decode_append (h.index_lt index hindex))]
      rfl
    · rintro _ _ rfl
      exact foldl_indexes _ []
  rintro _ _ rfl
  apply consumes_tableSpec htableSpec
  apply consumes_write
  apply consumes_member
  refine (ProtocolResultColumn.consumes_decodeColumns h.typed hcolumns [] [] memory).mono ?_
  intro _ s hs
  cases hglobal : hasFlag metadata.flags 0 with
  | false => simp [hs, onto, hglobal, ProtocolResultColumn.ontoAll_nil]
  | true => simp [hs, onto, hglobal, ProtocolResultColumn.ontoAll_nil]

/-- What was left in the object is not among what was sent. -/
theorem sent_onto (metadata used : ProtocolResultPreparedMetadata) :
    (metadata.onto used).parts.sent = metadata.parts.sent := by
  cases hglobal : hasFlag metadata.flags 0 with
  | false => simp [onto, parts, PreparedMetadataParts.sent, hglobal, ProtocolResultColumn.onto]
  | true => simp [onto, parts, PreparedMetadataParts.sent, hglobal, ProtocolResultColumn.onto]

/-- Metadata that were filled by any setters can be encoded exactly when what was set fits, and
are then decoded, over anything, to the same flags and what was set. -/
theorem prepared_decodes_build (h : ∀ call ∈ calls, call.Valid) :
    (Returns (build calls).encode ↔ (PreparedMetadataParts.build calls).Fits) ∧
      ∀ encoded, (build calls).encode = .ok encoded → ∀ used memory rest, ∃ decoded memory',
        decode ⟨(used, memory), encoded ++ rest⟩ = .ok () ⟨(decoded, memory'), rest⟩ ∧
          decoded.flags = (build calls).flags ∧
            decoded.parts.sent = (PreparedMetadataParts.build calls).sent := by
  obtain ⟨hvalid, hparts⟩ := build_sound h
  rw [returns_encode hvalid, hparts]
  refine ⟨.rfl, fun encoded hencode used memory rest => ?_⟩
  obtain ⟨⟨decoded, memory'⟩, hdecode, hdecoded⟩ :=
    (consumes_decode hvalid hencode used memory).exists_ok rest
  have hsame : decoded = (build calls).onto used := hdecoded
  refine ⟨decoded, memory', hdecode, ?_, ?_⟩
  · rw [hsame]
    rfl
  · rw [hsame, sent_onto, hparts]

/-- Two bind markers of a table, of which the second one is the partition key. -/
def twoMarkers : List PreparedMetadataCall :=
  [.setColumns [⟨[], [], [0x61], ⟨NativeType.int.code, []⟩⟩,
      ⟨[], [], [0x62], ⟨ColumnType.list, [0x00, 0x09]⟩⟩],
    .setPartitionKeyIndexes [1], .setGlobalKeySpaceAndTable [0x6b] [0x74]]

/-- They are decoded over the metadata of another query. -/
theorem prepared_decodes_build_twoMarkers :
    Returns (build twoMarkers).encode ∧
      ∀ encoded, (build twoMarkers).encode = .ok encoded → ∀ used memory rest, ∃ decoded memory',
        decode ⟨(used, memory), encoded ++ rest⟩ = .ok () ⟨(decoded, memory'), rest⟩ ∧
          decoded.flags = (build twoMarkers).flags ∧
            decoded.parts.sent = (PreparedMetadataParts.build twoMarkers).sent := by
  have hvalid : ∀ call ∈ twoMarkers, call.Valid := by
    intro call hcall
    simp only [twoMarkers, List.mem_cons, List.not_mem_nil, or_false] at hcall
    rcases hcall with rfl | rfl | rfl
    · intro column hcolumn
      simp only [List.mem_cons, List.not_mem_nil, or_false] at hcolumn
      rcases hcolumn with rfl | rfl
      · exact ⟨.native .int, trivial, trivial, rfl⟩
      · exact ⟨.list (.native .int), trivial, ⟨id, trivial⟩, rfl⟩
    · simp [PreparedMetadataCall.Valid]
    · trivial
  obtain ⟨hiff, hdecodes⟩ := prepared_decodes_build hvalid
  refine ⟨hiff.mpr ⟨by decide, by decide, by decide, ?_⟩, hdecodes⟩
  intro column hcolumn
  simp only [PreparedMetadataParts.build, twoMarkers, List.foldl, PreparedMetadataParts.apply,
    List.mem_cons, List.not_mem_nil, or_false] at hcolumn
  rcases hcolumn with rfl | rfl
  · exact ⟨by decide, by decide, by decide⟩
  · exact ⟨by decide, by decide, by decide⟩

end ProtocolResultPreparedMetadata

end CqlDriver
