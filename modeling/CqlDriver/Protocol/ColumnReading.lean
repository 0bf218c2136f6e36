import CqlDriver.Protocol.ColumnDecoding

/-!
# Column types without self-nesting survive the codec

A payload getter decodes the payload string into local options. For the option of a
tree without self-nesting these are the options of the subtrees, so reading level by
level gives the tree back.

## Main results

* `ProtocolColumnOption.readTree_option` — reading the option of a tree
* `ColumnTree.roundTrips_of_noSelfNesting`
-/

namespace CqlDriver

open Math (Decode Cursor)

namespace ProtocolColumnOption

variable {memory memory' : OptionMemory} {t : ColumnTree} {rest : Bytes} {depth : Nat}
  {α β : Type}

/-- After a getter that returns, the next one runs. -/
theorem read_bind {m : StateT OptionMemory (Except Failure) α} {a : α}
    (h : m memory = .ok (a, memory')) (f : α → StateT OptionMemory (Except Failure) β) :
    (m >>= f) memory = f a memory' := by
  show StateT.bind m f memory = _
  rw [StateT.bind, h]
  rfl

/-- A getter decodes the payload of its own type. -/
theorem getPayload_ok {type : Nat} {decodePayload : Decoder OptionMemory α} {payload : Bytes}
    {a : α} {c : Cursor OptionMemory} (h : decodePayload ⟨memory, payload⟩ = .ok a c) :
    getPayload type decodePayload ⟨type, payload⟩ memory = .ok (a, c.object) := by
  rw [getPayload, if_pos rfl]
  simp only [h]

/-! ## Local options -/

/-- A local option is decoded like the option of a caller. -/
theorem decodeLocal_append (hfits : t.Fits) (hnested : t.NoSelfNesting) (memory : OptionMemory)
    (rest : Bytes) :
    ∃ memory', decodeLocal ⟨memory, t.bytes ++ rest⟩ = .ok t.option ⟨memory', rest⟩ := by
  have hdepth : t.payload.length < (t.bytes ++ rest).length + 1 := by
    rw [List.length_append, ColumnTree.length_bytes]
    omega
  have houtside : Place.object.Outside t.Uses := fun _ hk => by cases hk
  obtain ⟨memory', hdecode, hagree⟩ := decodesAt t hfits hnested _ hdepth
    { memory with object := .create } .object rest rfl houtside
  refine ⟨memory', ?_⟩
  rw [decodeLocal, Decode.bind_ok (Decode.update_apply _)]
  apply (Decode.bind_ok hdecode _).trans
  rw [Decode.bind_ok Decode.object_apply]
  exact congrArg (EStateM.Result.ok · _) hagree.object

theorem decodeLocals_types : ∀ (types : List ColumnTree), ColumnTree.TypesFit types →
    ColumnTree.TypesNoSelfNesting types → ∀ (memory : OptionMemory) (rest : Bytes), ∃ memory',
      decodeLocals decodeLocal types.length ⟨memory, ColumnTree.payloadOfTypes types ++ rest⟩ =
        .ok (types.map ColumnTree.option) ⟨memory', rest⟩
  | [], _, _, memory, _ => ⟨memory, rfl⟩
  | type :: types, hfit, hnested, memory, rest => by
    obtain ⟨memory₁, hfirst⟩ := decodeLocal_append hfit.1 hnested.1 memory
      (ColumnTree.payloadOfTypes types ++ rest)
    obtain ⟨memory₂, hrest⟩ := decodeLocals_types types hfit.2 hnested.2 memory₁ rest
    refine ⟨memory₂, ?_⟩
    rw [ColumnTree.payloadOfTypes, List.append_assoc, List.length_cons, decodeLocals]
    apply (Decode.bind_ok hfirst _).trans
    rw [Decode.bind_ok hrest]
    rfl

theorem decodeLocals_fields : ∀ (fields : List (Bytes × ColumnTree)),
    ColumnTree.FieldsFit fields → ColumnTree.FieldsNoSelfNesting fields →
    ∀ (memory : OptionMemory) (rest : Bytes), ∃ memory',
      decodeLocals (do
        let name ← ProtocolString.decode
        return (name, ← decodeLocal)) fields.length
          ⟨memory, ColumnTree.payloadOfFields fields ++ rest⟩ =
        .ok (ColumnTree.optionsOfFields fields) ⟨memory', rest⟩
  | [], _, _, memory, _ => ⟨memory, rfl⟩
  | (name, type) :: fields, hfit, hnested, memory, rest => by
    obtain ⟨memory₁, hfirst⟩ := decodeLocal_append hfit.2.1 hnested.1 memory
      (ColumnTree.payloadOfFields fields ++ rest)
    obtain ⟨memory₂, hrest⟩ := decodeLocals_fields fields hfit.2.2 hnested.2 memory₁ rest
    refine ⟨memory₂, ?_⟩
    have hfield : (do
        let name ← ProtocolString.decode
        return (name, ← decodeLocal) : Decoder OptionMemory (Bytes × ProtocolColumnOption))
          ⟨memory, ProtocolShort.encode name.length ++ name ++
            (type.bytes ++ (ColumnTree.payloadOfFields fields ++ rest))⟩ =
          .ok (name, type.option) ⟨memory₁, ColumnTree.payloadOfFields fields ++ rest⟩ := by
      rw [Decode.bind_ok (ProtocolString.decode_append hfit.1), Decode.bind_ok hfirst]
      rfl
    rw [ColumnTree.payloadOfFields, List.append_assoc, List.append_assoc, List.length_cons,
      decodeLocals]
    apply (Decode.bind_ok hfield _).trans
    rw [Decode.bind_ok hrest]
    rfl

/-! ## The getters -/

section Getters

variable {name keySpace udtName : Bytes} {key value : ColumnTree}
  {types : List ColumnTree} {fields : List (Bytes × ColumnTree)}

theorem getCustomPayload_option (hfits : (ColumnTree.custom name).Fits) (memory : OptionMemory) :
    getCustomPayload (ColumnTree.custom name).option memory = .ok (name, memory) := by
  have hdecode : ProtocolString.decode (⟨memory, (ColumnTree.custom name).payload⟩ :
      Cursor OptionMemory) = .ok name ⟨memory, []⟩ := by
    rw [ColumnTree.payload, ← List.append_nil (_ ++ name)]
    exact ProtocolString.decode_append hfits
  exact getPayload_ok hdecode

theorem getListPayload_option (element : ColumnTree) (hfits : element.Fits)
    (hnested : element.NoSelfNesting) (memory : OptionMemory) :
    ∃ memory', getListPayload (ColumnTree.list element).option memory =
      .ok (element.option, memory') := by
  obtain ⟨memory', hdecode⟩ := decodeLocal_append hfits hnested memory []
  rw [List.append_nil] at hdecode
  exact ⟨memory', getPayload_ok hdecode⟩

theorem getSetPayload_option (element : ColumnTree) (hfits : element.Fits)
    (hnested : element.NoSelfNesting) (memory : OptionMemory) :
    ∃ memory', getSetPayload (ColumnTree.set element).option memory =
      .ok (element.option, memory') := by
  obtain ⟨memory', hdecode⟩ := decodeLocal_append hfits hnested memory []
  rw [List.append_nil] at hdecode
  exact ⟨memory', getPayload_ok hdecode⟩

theorem getMapPayload_option (hfits : (ColumnTree.map key value).Fits)
    (hnested : key.NoSelfNesting ∧ value.NoSelfNesting) (memory : OptionMemory) :
    ∃ memory', getMapPayload (ColumnTree.map key value).option memory =
      .ok ((key.option, value.option), memory') := by
  obtain ⟨memory₁, hkey⟩ := decodeLocal_append hfits.1 hnested.1 memory (value.bytes ++ [])
  obtain ⟨memory₂, hvalue⟩ := decodeLocal_append hfits.2 hnested.2 memory₁ []
  refine ⟨memory₂, getPayload_ok (c := ⟨memory₂, []⟩) ?_⟩
  rw [List.append_nil] at hkey
  rw [List.append_nil] at hvalue
  apply (Decode.bind_ok hkey _).trans
  rw [Decode.bind_ok hvalue]
  rfl

theorem getUDTPayload_option (hfits : (ColumnTree.udt keySpace udtName fields).Fits)
    (hnested : ColumnTree.FieldsNoSelfNesting fields) (memory : OptionMemory) :
    ∃ memory', getUDTPayload (ColumnTree.udt keySpace udtName fields).option memory =
      .ok ((keySpace, udtName, ColumnTree.optionsOfFields fields), memory') := by
  obtain ⟨hkeySpace, hudtName, hlength, hfit⟩ := hfits
  obtain ⟨memory', hfields⟩ := decodeLocals_fields fields hfit hnested memory []
  rw [List.append_nil] at hfields
  refine ⟨memory', getPayload_ok (c := ⟨memory', []⟩) ?_⟩
  rw [ColumnTree.payload, List.append_assoc, List.append_assoc,
    Decode.bind_ok (ProtocolString.decode_append hkeySpace),
    Decode.bind_ok (ProtocolString.decode_append hudtName),
    Decode.bind_ok (ProtocolShort.decode_append hlength), Decode.bind_ok hfields]
  rfl

theorem getTuplePayload_option (hfits : (ColumnTree.tuple types).Fits)
    (hnested : ColumnTree.TypesNoSelfNesting types) (memory : OptionMemory) :
    ∃ memory', getTuplePayload (ColumnTree.tuple types).option memory =
      .ok (types.map ColumnTree.option, memory') := by
  obtain ⟨memory', htypes⟩ := decodeLocals_types types hfits.2 hnested memory []
  rw [List.append_nil] at htypes
  refine ⟨memory', getPayload_ok (c := ⟨memory', []⟩) ?_⟩
  rw [ColumnTree.payload, Decode.bind_ok (ProtocolShort.decode_append hfits.1)]
  exact htypes

end Getters

/-! ## The whole tree -/

mutual

/-- The option of a tree without self-nesting is read as the tree. -/
theorem readTree_option : ∀ (t : ColumnTree), t.Fits → t.NoSelfNesting →
    ∀ depth : Nat, t.payload.length < depth → ∀ memory, ∃ memory',
      readTree depth t.option memory = .ok (t, memory')
  | _, _, _, 0, hdepth, _ => absurd hdepth (Nat.not_lt_zero _)
  | .native type, _, _, depth + 1, _, memory => by
    refine ⟨memory, ?_⟩
    cases type with
    | _ => rfl
  | .custom name, hfits, _, depth + 1, _, memory =>
    ⟨memory, read_bind (getCustomPayload_option hfits memory) _⟩
  | .list element, hfits, hnested, depth + 1, hdepth, memory => by
    obtain ⟨memory₁, hget⟩ := getListPayload_option element hfits hnested.2 memory
    obtain ⟨memory₂, hread⟩ :=
      readTree_option element hfits hnested.2 depth (element_lt hdepth) memory₁
    exact ⟨memory₂, (read_bind hget _).trans (read_bind hread _)⟩
  | .map key value, hfits, hnested, depth + 1, hdepth, memory => by
    rw [ColumnTree.payload, List.length_append] at hdepth
    obtain ⟨memory₁, hget⟩ := getMapPayload_option hfits hnested.2 memory
    obtain ⟨memory₂, hkey⟩ := readTree_option key hfits.1 hnested.2.1 depth
      (element_lt (Nat.lt_of_le_of_lt (Nat.le_add_right _ _) hdepth)) memory₁
    obtain ⟨memory₃, hvalue⟩ := readTree_option value hfits.2 hnested.2.2 depth
      (element_lt (Nat.lt_of_le_of_lt (Nat.le_add_left _ _) hdepth)) memory₂
    exact ⟨memory₃, (read_bind hget _).trans ((read_bind hkey _).trans (read_bind hvalue _))⟩
  | .set element, hfits, hnested, depth + 1, hdepth, memory => by
    obtain ⟨memory₁, hget⟩ := getSetPayload_option element hfits hnested.2 memory
    obtain ⟨memory₂, hread⟩ :=
      readTree_option element hfits hnested.2 depth (element_lt hdepth) memory₁
    exact ⟨memory₂, (read_bind hget _).trans (read_bind hread _)⟩
  | .udt keySpace udtName fields, hfits, hnested, depth + 1, hdepth, memory => by
    rw [ColumnTree.payload, List.length_append] at hdepth
    obtain ⟨memory₁, hget⟩ := getUDTPayload_option hfits hnested.2 memory
    obtain ⟨memory₂, hread⟩ := readTrees_fields fields hfits.2.2.2 hnested.2 depth
      (Nat.lt_of_le_of_lt (Nat.le_add_left _ _) hdepth) memory₁
    exact ⟨memory₂, (read_bind hget _).trans (read_bind hread _)⟩
  | .tuple types, hfits, hnested, depth + 1, hdepth, memory => by
    rw [ColumnTree.payload, List.length_append] at hdepth
    obtain ⟨memory₁, hget⟩ := getTuplePayload_option hfits hnested.2 memory
    obtain ⟨memory₂, hread⟩ := readTrees_types types hfits.2 hnested.2 depth
      (Nat.lt_of_le_of_lt (Nat.le_add_left _ _) hdepth) memory₁
    exact ⟨memory₂, (read_bind hget _).trans (read_bind hread _)⟩

theorem readTrees_types : ∀ (types : List ColumnTree), ColumnTree.TypesFit types →
    ColumnTree.TypesNoSelfNesting types → ∀ depth : Nat,
    (ColumnTree.payloadOfTypes types).length < depth + 1 → ∀ memory, ∃ memory',
      readTrees (readTree depth) (types.map ColumnTree.option) memory = .ok (types, memory')
  | [], _, _, _, _, memory => ⟨memory, rfl⟩
  | type :: types, hfit, hnested, depth, hdepth, memory => by
    rw [ColumnTree.payloadOfTypes, List.length_append] at hdepth
    obtain ⟨memory₁, hfirst⟩ := readTree_option type hfit.1 hnested.1 depth
      (element_lt (Nat.lt_of_le_of_lt (Nat.le_add_right _ _) hdepth)) memory
    obtain ⟨memory₂, hrest⟩ := readTrees_types types hfit.2 hnested.2 depth
      (Nat.lt_of_le_of_lt (Nat.le_add_left _ _) hdepth) memory₁
    exact ⟨memory₂, (read_bind hfirst _).trans (read_bind hrest _)⟩

theorem readTrees_fields : ∀ (fields : List (Bytes × ColumnTree)), ColumnTree.FieldsFit fields →
    ColumnTree.FieldsNoSelfNesting fields → ∀ depth : Nat,
    (ColumnTree.payloadOfFields fields).length < depth + 1 → ∀ memory, ∃ memory',
      readTrees (fun field => do return (field.1, ← readTree depth field.2))
        (ColumnTree.optionsOfFields fields) memory = .ok (fields, memory')
  | [], _, _, _, _, memory => ⟨memory, rfl⟩
  | (name, type) :: fields, hfit, hnested, depth, hdepth, memory => by
    rw [ColumnTree.payloadOfFields, List.length_append, List.length_append] at hdepth
    have hlt : type.payload.length < depth := by
      apply element_lt
      rw [ColumnTree.bytes]
      omega
    obtain ⟨memory₁, hfirst⟩ := readTree_option type hfit.2.1 hnested.1 depth hlt memory
    obtain ⟨memory₂, hrest⟩ := readTrees_fields fields hfit.2.2 hnested.2 depth
      (Nat.lt_of_le_of_lt (Nat.le_add_left _ _) hdepth) memory₁
    have hfield : (do return (name, ← readTree depth type.option) :
        StateT OptionMemory (Except Failure) (Bytes × ColumnTree)) memory =
          .ok ((name, type), memory₁) := (read_bind hfirst _).trans rfl
    exact ⟨memory₂, (read_bind hfield _).trans (read_bind hrest _)⟩

end

end ProtocolColumnOption

/-- A tree in which no constructor occurs inside itself is encoded and decoded to
itself. -/
theorem ColumnTree.roundTrips_of_noSelfNesting (t : ColumnTree) (hfits : t.Fits)
    (hnested : t.NoSelfNesting) : t.RoundTrips := by
  refine ⟨t.option, t.bytes, t.toOption_eq hfits, t.encode_option, ?_⟩
  intro memory rest
  have hdepth : t.payload.length < (t.bytes ++ rest).length + 1 := by
    rw [List.length_append, length_bytes]
    omega
  obtain ⟨memory', hdecode, hagree⟩ := ProtocolColumnOption.decodesAt t hfits hnested _ hdepth
    memory .object rest rfl (fun _ hk => by cases hk)
  have hobject : memory'.object = t.option := hagree.object
  refine ⟨memory', hdecode, congrArg ProtocolColumnOption.type hobject, ?_⟩
  rw [hobject]
  exact ProtocolColumnOption.readTree_option t hfits hnested _ (Nat.lt_succ_self _)

/-- A map from texts to lists of tuples. -/
theorem ColumnTree.roundTrips_map_list_tuple :
    (ColumnTree.map (.native .varChar)
      (.list (.tuple [.native .int, .custom [0x61]]))).RoundTrips := by
  apply ColumnTree.roundTrips_of_noSelfNesting
  · simp [ColumnTree.Fits, ColumnTree.TypesFit]
  · simp [ColumnTree.NoSelfNesting, ColumnTree.TypesNoSelfNesting, ColumnTree.Uses,
      ColumnTree.TypesUse]

set_option maxRecDepth 4000 in
/-- A list of lists is decoded to a list of its innermost elements. -/
theorem ColumnTree.not_roundTrips_list_list :
    ¬ ∀ t : ColumnTree, t.Fits → t.RoundTrips := by
  intro hall
  obtain ⟨option, encoded, hoption, hencoded, hdecode⟩ :=
    hall (.list (.list (.native .int))) trivial
  have hoption' : option = ⟨ColumnType.list, [0x00, 0x20, 0x00, 0x09]⟩ :=
    Except.ok.inj (hoption.symm.trans rfl)
  subst hoption'
  have hencoded' : encoded = [0x00, 0x20, 0x00, 0x20, 0x00, 0x09] :=
    Except.ok.inj (hencoded.symm.trans rfl)
  subst hencoded'
  obtain ⟨memory', hrun, -, hreads⟩ := hdecode .create []
  have hdecoded : ProtocolColumnOption.decodeObject
      ⟨.create, [0x00, 0x20, 0x00, 0x20, 0x00, 0x09]⟩ = .ok () ⟨{ OptionMemory.create with
        object := ⟨ColumnType.list, [0x00, 0x09, 0x00, 0x09, 0x00, 0x09]⟩
        listElement := ⟨NativeType.int.code, [0x00, 0x09, 0x00, 0x09]⟩ }, []⟩ := rfl
  obtain rfl : _ = memory' := congrArg Cursor.object (EStateM.Result.ok.inj (hdecoded.symm.trans hrun)).2
  obtain ⟨last, hread⟩ := hreads .create
  cases hread

end CqlDriver
