import CqlDriver.Math.Lists
import CqlDriver.Protocol.OptionMemory

/-!
# Decoding column types without self-nesting

Decoding writes into one payload object per constructor. As long as a constructor
does not occur inside itself, each payload object is filled by one option at a time
and the option that comes out is the one that went in.

## Main results

* `ColumnTree.toOption_eq` — the option of a tree has the bytes of the grammar
* `ProtocolColumnOption.decodesAt` — decoding the bytes of a tree in place
-/

namespace CqlDriver

open Math (Decode Cursor)

namespace ColumnTree

variable {t : ColumnTree} {types : List ColumnTree} {fields : List (Bytes × ColumnTree)}

/-! ## The option of a tree -/

theorem type_lt (t : ColumnTree) : t.type < 2 ^ 16 := by
  cases t with
  | native type => exact type.code_lt
  | custom _ => exact of_decide_eq_true rfl
  | list _ => exact of_decide_eq_true rfl
  | map _ _ => exact of_decide_eq_true rfl
  | set _ => exact of_decide_eq_true rfl
  | udt _ _ _ => exact of_decide_eq_true rfl
  | tuple _ => exact of_decide_eq_true rfl

theorem length_bytes (t : ColumnTree) : t.bytes.length = t.payload.length + 2 := by
  rw [bytes, List.length_append, ProtocolShort.encode, Math.length_bigEndian, Nat.add_comm]

/-- The option of a tree has the payload that its type needs. -/
theorem encode_option (t : ColumnTree) : t.option.encode = .ok t.bytes := by
  apply if_neg
  rintro ⟨hneeds, hempty⟩
  cases t with
  | native type => exact type.not_needsPayload hneeds
  | _ => simp [option, payload, ProtocolShort.encode, Math.bigEndian] at hempty

theorem encodeAll_encode (types : List ColumnTree) :
    encodeAll ProtocolColumnOption.encode (types.map option) = .ok (payloadOfTypes types) := by
  induction types with
  | nil => rfl
  | cons type rest ih =>
    rw [List.map_cons, encodeAll, encode_option, ih]
    rfl

theorem encodeAll_encodeField (hfit : FieldsFit fields) :
    encodeAll ProtocolColumnOption.encodeField (optionsOfFields fields) =
      .ok (payloadOfFields fields) := by
  induction fields with
  | nil => rfl
  | cons field rest ih =>
    obtain ⟨hname, -, hrest⟩ := hfit
    have ih := ih hrest
    rw [optionsOfFields] at ih
    rw [optionsOfFields, List.map_cons, encodeAll, ProtocolColumnOption.encodeField,
      ProtocolString.encode_eq hname, encode_option, ih]
    rfl

theorem encodeTuplePayload_eq (hlength : types.length < 2 ^ 16) :
    ProtocolColumnOption.encodeTuplePayload (types.map option) = .ok (tuple types).payload := by
  rw [ProtocolColumnOption.encodeTuplePayload, List.length_map,
    if_pos (Nat.mod_eq_of_lt hlength), encodeAll_encode]
  rfl

theorem encodeUDTPayload_eq {keySpace udtName : Bytes} (hfits : (udt keySpace udtName fields).Fits) :
    ProtocolColumnOption.encodeUDTPayload keySpace udtName (optionsOfFields fields) =
      .ok (udt keySpace udtName fields).payload := by
  obtain ⟨hkeySpace, hudtName, hlength, hfields⟩ := hfits
  have hmap : (optionsOfFields fields).length = fields.length := List.length_map _
  rw [ProtocolColumnOption.encodeUDTPayload, hmap, if_pos (Nat.mod_eq_of_lt hlength),
    ProtocolString.encode_eq hkeySpace, ProtocolString.encode_eq hudtName,
    encodeAll_encodeField hfields]
  rfl

mutual

/-- The setters build the option of the grammar. -/
theorem toOption_eq : ∀ t : ColumnTree, t.Fits → t.toOption = .ok t.option
  | .native _, _ => rfl
  | .custom name, hfits => by
    rw [toOption, ProtocolString.encode_eq hfits]
    rfl
  | .list element, hfits => by
    rw [toOption, toOption_eq element hfits, ok_bind, encode_option]
    rfl
  | .map key value, hfits => by
    rw [toOption, toOption_eq key hfits.1, ok_bind, encode_option, ok_bind,
      toOption_eq value hfits.2, ok_bind, encode_option]
    rfl
  | .set element, hfits => by
    rw [toOption, toOption_eq element hfits, ok_bind, encode_option]
    rfl
  | .udt keySpace udtName fields, hfits => by
    rw [toOption, toFields_eq fields hfits.2.2.2, ok_bind, encodeUDTPayload_eq hfits]
    rfl
  | .tuple types, hfits => by
    rw [toOption, toTypes_eq types hfits.2, ok_bind, encodeTuplePayload_eq hfits.1]
    rfl

theorem toTypes_eq : ∀ types : List ColumnTree, TypesFit types →
    toTypes types = .ok (types.map option)
  | [], _ => rfl
  | type :: rest, hfit => by
    rw [toTypes, toOption_eq type hfit.1, ok_bind, toTypes_eq rest hfit.2]
    rfl

theorem toFields_eq : ∀ fields : List (Bytes × ColumnTree), FieldsFit fields →
    toFields fields = .ok (optionsOfFields fields)
  | [], _ => rfl
  | (name, type) :: rest, hfit => by
    rw [toFields, toOption_eq type hfit.2.1, ok_bind, toFields_eq rest hfit.2.2]
    rfl

end

end ColumnTree

namespace ProtocolColumnOption

open OptionMemory (Agree)

variable {m m' : OptionMemory} {place source : Place} {t : ColumnTree} {rest : Bytes} {depth : Nat}

/-! ## Decoding in place -/

/-- Decoding the bytes of a tree at a place writes the option of the tree there and
changes nothing but the payload objects the tree uses. -/
def DecodesAt (depth : Nat) (t : ColumnTree) : Prop :=
  ∀ (m : OptionMemory) (place : Place) (rest : Bytes), (m.get? place).isSome →
    place.Outside t.Uses → ∃ m', decode depth place ⟨m, t.bytes ++ rest⟩ = .ok () ⟨m', rest⟩ ∧
      Agree t.Uses m' (m.put t.option place)

/-- The type code is read and written before the payload. -/
theorem decode_succ (hplace : (m.get? place).isSome) (t : ColumnTree) :
    decode (depth + 1) place ⟨m, t.bytes ++ rest⟩ =
      (if t.type = ColumnType.custom then do
        let payload ← ProtocolString.decode
        append place (← ofEncoded (ProtocolString.encode payload))
      else if t.type = ColumnType.list then do
        decode depth .listElement
        encodeInto .listElement place
      else if t.type = ColumnType.map then do
        decode depth .mapKey
        decode depth .mapValue
        encodeInto .mapKey place
        encodeInto .mapValue place
      else if t.type = ColumnType.set then do
        decode depth .setElement
        encodeInto .setElement place
      else if t.type = ColumnType.udt then do
        decodeUDTPayload (decode depth)
        let memory ← Decode.object
        append place (← ofEncoded
          (encodeUDTPayload memory.udt.keySpace memory.udt.udtName memory.udt.fields))
      else if t.type = ColumnType.tuple then do
        decodeTuplePayload (decode depth)
        let memory ← Decode.object
        append place (← ofEncoded (encodeTuplePayload memory.tuple.types))
      else pure () : Decoder OptionMemory Unit)
        ⟨m.put ⟨t.type, []⟩ place, t.payload ++ rest⟩ := by
  rw [decode, ColumnTree.bytes, List.append_assoc,
    Decode.bind_ok (ProtocolShort.decode_append t.type_lt), Decode.bind_ok (start_ok hplace _)]

/-- A payload object with one option: the element is decoded and encoded again. -/
theorem decode_element {k : Constructor} {element : ColumnTree} {type : Nat}
    (helement : DecodesAt depth element) (hsource : source.constructor? = some k)
    (halive : ∀ m, (OptionMemory.get? m source).isSome) (hnested : ¬ element.Uses k)
    (hplace : (m.get? place).isSome) (houtside : place.Outside fun j => j = k ∨ element.Uses j) :
    ∃ m', (do
        decode depth source
        encodeInto source place : Decoder OptionMemory Unit)
          ⟨m.put ⟨type, []⟩ place, element.bytes ++ rest⟩ = .ok () ⟨m', rest⟩ ∧
      Agree (fun j => j = k ∨ element.Uses j) m' (m.put ⟨type, element.bytes⟩ place) := by
  have hsourceOutside : source.Outside element.Uses := by
    intro j hj
    rw [hsource] at hj
    cases hj
    exact hnested
  obtain ⟨m₁, hdecode, hagree⟩ :=
    helement (m.put ⟨type, []⟩ place) source rest (halive _) hsourceOutside
  have happart : place.constructor? ≠ source.constructor? := by
    rw [hsource]
    intro heq
    exact houtside k heq (.inl rfl)
  have hfilled : m₁.get? source = some element.option :=
    (hagree.get?_eq hsourceOutside).trans (OptionMemory.get?_put_self (halive _))
  -- decoding the element has left the option itself alone
  have hstarted : m₁.get? place = some ⟨type, []⟩ := by
    rw [hagree.get?_eq (houtside.mono fun j => .inr), OptionMemory.get?_put_of_ne happart.symm]
    exact OptionMemory.get?_put_self hplace
  refine ⟨m₁.put ⟨type, element.bytes⟩ place, ?_, ?_⟩
  · rw [Decode.bind_ok hdecode, encodeInto_ok hfilled hstarted (ColumnTree.encode_option _) happart]
    rfl
  · have hagree₁ : Agree (fun j => j = k ∨ element.Uses j) m₁ (m.put ⟨type, []⟩ place) :=
      (hagree.mono fun j => .inr).trans (OptionMemory.agree_put hsource (.inl rfl))
    have hput := hagree₁.put ⟨type, element.bytes⟩ place
    rw [OptionMemory.put_put] at hput
    exact hput

/-- The payload object of maps: key and value are decoded, then both are encoded. -/
theorem decode_map {key value : ColumnTree} (hkey : DecodesAt depth key)
    (hvalue : DecodesAt depth value) (hkeyNested : ¬ key.Uses .map) (hvalueNested : ¬ value.Uses .map)
    (hplace : (m.get? place).isSome) (houtside : place.Outside (ColumnTree.map key value).Uses) :
    ∃ m', (do
        decode depth .mapKey
        decode depth .mapValue
        encodeInto .mapKey place
        encodeInto .mapValue place : Decoder OptionMemory Unit)
          ⟨m.put ⟨ColumnType.map, []⟩ place, key.bytes ++ value.bytes ++ rest⟩ = .ok () ⟨m', rest⟩ ∧
      Agree (ColumnTree.map key value).Uses m' (m.put (ColumnTree.map key value).option place) := by
  have hmap : ∀ (t : ColumnTree) (source : Place), source.constructor? = some .map →
      ¬ t.Uses .map → source.Outside t.Uses := by
    intro t source hsource hnested j hj
    rw [hsource] at hj
    cases hj
    exact hnested
  have happart : ∀ source : Place, source.constructor? = some .map →
      place.constructor? ≠ source.constructor? := by
    intro source hsource heq
    exact houtside .map (heq.trans hsource) (.inl rfl)
  have hkeyOutside := hmap key .mapKey rfl hkeyNested
  have hvalueOutside := hmap value .mapValue rfl hvalueNested
  obtain ⟨m₁, hdecodeKey, hagreeKey⟩ := hkey (m.put ⟨ColumnType.map, []⟩ place) .mapKey
    (value.bytes ++ rest) rfl hkeyOutside
  obtain ⟨m₂, hdecodeValue, hagreeValue⟩ := hvalue m₁ .mapValue rest rfl hvalueOutside
  have hfilledKey : m₂.get? .mapKey = some key.option := by
    rw [hagreeValue.get?_eq (hmap value .mapKey rfl hvalueNested)]
    exact hagreeKey.get?_eq hkeyOutside
  have hfilledValue : m₂.get? .mapValue = some value.option := hagreeValue.get?_eq hvalueOutside
  have hstarted : m₂.get? place = some ⟨ColumnType.map, []⟩ := by
    rw [hagreeValue.get?_eq (houtside.mono fun j hj => .inr (.inr hj)),
      OptionMemory.get?_put_of_ne (happart .mapValue rfl).symm,
      hagreeKey.get?_eq (houtside.mono fun j hj => .inr (.inl hj)),
      OptionMemory.get?_put_of_ne (happart .mapKey rfl).symm]
    exact OptionMemory.get?_put_self hplace
  have hstartedValue : (m₂.put ⟨ColumnType.map, key.bytes⟩ place).get? place =
      some ⟨ColumnType.map, key.bytes⟩ := OptionMemory.get?_put_self (hstarted ▸ rfl)
  have hfilledValue' : (m₂.put ⟨ColumnType.map, key.bytes⟩ place).get? .mapValue =
      some value.option := (OptionMemory.get?_put_of_ne (happart .mapValue rfl)).trans hfilledValue
  refine ⟨m₂.put (ColumnTree.map key value).option place, ?_, ?_⟩
  · rw [List.append_assoc, Decode.bind_ok hdecodeKey, Decode.bind_ok hdecodeValue,
      Decode.bind_ok (encodeInto_ok hfilledKey hstarted (ColumnTree.encode_option key)
        (happart .mapKey rfl))]
    apply (encodeInto_ok hfilledValue' hstartedValue (ColumnTree.encode_option value)
      (happart .mapValue rfl)).trans
    rw [OptionMemory.put_put]
    rfl
  · have hagree : Agree (ColumnTree.map key value).Uses m₂ (m.put ⟨ColumnType.map, []⟩ place) :=
      (hagreeValue.mono fun j hj => .inr (.inr hj)).trans
        ((OptionMemory.agree_put (k := .map) rfl (.inl rfl)).trans
          ((hagreeKey.mono fun j hj => .inr (.inl hj)).trans
            (OptionMemory.agree_put (k := .map) rfl (.inl rfl))))
    have hput := hagree.put (ColumnTree.map key value).option place
    rw [OptionMemory.put_put] at hput
    exact hput

/-- The type that was appended is alive. -/
theorem isSome_get?_tupleType :
    (({ m with tuple.types := m.tuple.types ++ [.create] } : OptionMemory).get?
      (.tupleType m.tuple.clears m.tuple.types.length)).isSome := by
  rw [OptionMemory.get?, if_pos rfl]
  simp

/-- The field that was appended is alive. -/
theorem isSome_get?_udtField {name : Bytes} :
    (({ m with udt.fields := m.udt.fields ++ [(name, .create)] } : OptionMemory).get?
      (.udtField m.udt.clears m.udt.fields.length)).isSome := by
  rw [OptionMemory.get?, if_pos rfl]
  simp

/-- The loop over the types of a tuple appends their options one by one. -/
theorem decode_types {types : List ColumnTree} (htypes : ∀ type ∈ types, DecodesAt depth type)
    (hnested : ¬ ColumnTree.TypesUse .tuple types) (m : OptionMemory)
    (rest : Bytes) :
    ∃ m', Decode.times (decodeType (decode depth)) types.length
        ⟨m, ColumnTree.payloadOfTypes types ++ rest⟩ = .ok () ⟨m', rest⟩ ∧
      m'.tuple = { m.tuple with types := m.tuple.types ++ types.map ColumnTree.option } ∧
      Agree (fun k => k = .tuple ∨ ColumnTree.TypesUse k types) m' m := by
  induction types generalizing m with
  | nil =>
    refine ⟨m, rfl, ?_, .refl m⟩
    rw [List.map_nil, List.append_nil]
  | cons type types ih =>
    rw [ColumnTree.TypesUse, not_or] at hnested
    obtain ⟨hfirst, hrest⟩ := hnested
    have houtside : (Place.tupleType m.tuple.clears m.tuple.types.length).Outside type.Uses := by
      intro k hk
      cases hk
      exact hfirst
    obtain ⟨m₁, hdecode, hagree⟩ := htypes type List.mem_cons_self
      { m with tuple.types := m.tuple.types ++ [.create] }
      (.tupleType m.tuple.clears m.tuple.types.length)
      (ColumnTree.payloadOfTypes types ++ rest) isSome_get?_tupleType houtside
    have htuple : m₁.tuple = ⟨m.tuple.types ++ [type.option], m.tuple.clears⟩ := by
      rw [hagree.tuple hfirst]
      exact congrArg (ProtocolColumnOptionTuplePayload.mk · _) Math.set_concat
    obtain ⟨m₂, htimes, hlast, hagree₂⟩ := ih (fun other hother =>
      htypes other (List.mem_cons_of_mem _ hother)) hrest m₁
    refine ⟨m₂, ?_, ?_, ?_⟩
    · have hround : decodeType (decode depth)
          ⟨m, type.bytes ++ (ColumnTree.payloadOfTypes types ++ rest)⟩ =
            .ok () ⟨m₁, ColumnTree.payloadOfTypes types ++ rest⟩ := by
        rw [decodeType, Decode.bind_ok Decode.object_apply,
          Decode.bind_ok (Decode.update_apply _)]
        exact hdecode
      rw [List.length_cons, ColumnTree.payloadOfTypes, List.append_assoc, Decode.times]
      exact (Decode.bind_ok hround _).trans htimes
    · rw [hlast, htuple, List.map_cons, List.append_assoc]
      rfl
    · refine (hagree₂.mono fun k hk => ?_).trans ((hagree.mono fun k hk => ?_).trans ?_)
      · exact hk.imp id .inr
      · exact .inr (.inl hk)
      · exact (OptionMemory.agree_put (k := .tuple) rfl (.inl rfl)).trans
          (OptionMemory.agree_tuple (.inl rfl) _)

/-- The loop over the fields of a user defined type, in the same way. -/
theorem decode_fields {fields : List (Bytes × ColumnTree)}
    (hfields : ∀ field ∈ fields, DecodesAt depth field.2) (hfit : ColumnTree.FieldsFit fields)
    (hnested : ¬ ColumnTree.FieldsUse .udt fields) (m : OptionMemory)
    (rest : Bytes) :
    ∃ m', Decode.times (decodeField (decode depth)) fields.length
        ⟨m, ColumnTree.payloadOfFields fields ++ rest⟩ = .ok () ⟨m', rest⟩ ∧
      m'.udt = { m.udt with fields := m.udt.fields ++ ColumnTree.optionsOfFields fields } ∧
      Agree (fun k => k = .udt ∨ ColumnTree.FieldsUse k fields) m' m := by
  induction fields generalizing m with
  | nil =>
    refine ⟨m, rfl, ?_, .refl m⟩
    rw [ColumnTree.optionsOfFields, List.map_nil, List.append_nil]
  | cons field fields ih =>
    obtain ⟨name, type⟩ := field
    rw [ColumnTree.FieldsUse, not_or] at hnested
    obtain ⟨hfirst, hrest⟩ := hnested
    obtain ⟨hname, -, hfit⟩ := hfit
    have houtside : (Place.udtField m.udt.clears m.udt.fields.length).Outside type.Uses := by
      intro k hk
      cases hk
      exact hfirst
    have hnamed : (m.udt.fields ++ [([], ProtocolColumnOption.create)]).set m.udt.fields.length
        (name, .create) = m.udt.fields ++ [(name, .create)] := Math.set_concat
    obtain ⟨m₁, hdecode, hagree⟩ := hfields (name, type) List.mem_cons_self
      { m with udt.fields := m.udt.fields ++ [(name, .create)] }
      (.udtField m.udt.clears m.udt.fields.length)
      (ColumnTree.payloadOfFields fields ++ rest) isSome_get?_udtField houtside
    have hudt : m₁.udt = { m.udt with fields := m.udt.fields ++ [(name, type.option)] } := by
      rw [hagree.udt hfirst]
      exact congrArg (ProtocolColumnOptionUDTPayload.mk _ _ · _) Math.modify_concat
    obtain ⟨m₂, htimes, hlast, hagree₂⟩ := ih (fun other hother =>
      hfields other (List.mem_cons_of_mem _ hother)) hfit hrest m₁
    refine ⟨m₂, ?_, ?_, ?_⟩
    · have hround : decodeField (decode depth)
          ⟨m, ProtocolShort.encode name.length ++ name ++
            (type.bytes ++ (ColumnTree.payloadOfFields fields ++ rest))⟩ =
            .ok () ⟨m₁, ColumnTree.payloadOfFields fields ++ rest⟩ := by
        rw [decodeField, Decode.bind_ok Decode.object_apply,
          Decode.bind_ok (Decode.update_apply _),
          Decode.bind_ok (ProtocolString.decode_append hname),
          Decode.bind_ok (Decode.update_apply _)]
        simp only [hnamed]
        exact hdecode
      rw [List.length_cons, ColumnTree.payloadOfFields, List.append_assoc, List.append_assoc,
        Decode.times]
      exact (Decode.bind_ok hround _).trans htimes
    · rw [hlast, hudt, ColumnTree.optionsOfFields, ColumnTree.optionsOfFields, List.map_cons,
        List.append_assoc]
      rfl
    · refine (hagree₂.mono fun k hk => ?_).trans ((hagree.mono fun k hk => ?_).trans ?_)
      · exact hk.imp id .inr
      · exact .inr (.inl hk)
      · exact (OptionMemory.agree_put (k := .udt) rfl (.inl rfl)).trans
          (OptionMemory.agree_udt (.inl rfl) _)

/-- The whole payload is appended to the option that was started. -/
theorem append_started {used : Constructor → Prop} {n : OptionMemory} {type : Nat}
    (hplace : (m.get? place).isSome) (houtside : place.Outside used)
    (hagree : Agree used n (m.put ⟨type, []⟩ place)) (bytes rest : Bytes) :
    ∃ m', append place bytes ⟨n, rest⟩ = .ok () ⟨m', rest⟩ ∧
      Agree used m' (m.put ⟨type, bytes⟩ place) := by
  have hstarted : n.get? place = some ⟨type, []⟩ :=
    (hagree.get?_eq houtside).trans (OptionMemory.get?_put_self hplace)
  have hput := hagree.put ⟨type, bytes⟩ place
  rw [OptionMemory.put_put] at hput
  exact ⟨_, append_ok hstarted bytes, hput⟩

/-- The payload object of tuples is cleared and filled. -/
theorem decodeTuplePayload_ok {types : List ColumnTree}
    (htypes : ∀ type ∈ types, DecodesAt depth type) (hlength : types.length < 2 ^ 16)
    (hnested : ¬ ColumnTree.TypesUse .tuple types) (m : OptionMemory)
    (rest : Bytes) :
    ∃ n, decodeTuplePayload (decode depth) ⟨m, (ColumnTree.tuple types).payload ++ rest⟩ =
        .ok () ⟨n, rest⟩ ∧
      n.tuple.types = types.map ColumnTree.option ∧ Agree (ColumnTree.tuple types).Uses n m := by
  obtain ⟨n, htimes, htuple, hagree⟩ := decode_types htypes hnested
    { m with tuple := ⟨[], m.tuple.clears + 1⟩ } rest
  refine ⟨n, ?_, ?_, hagree.trans (OptionMemory.agree_tuple (.inl rfl) _)⟩
  · rw [ColumnTree.payload, List.append_assoc, decodeTuplePayload,
      Decode.bind_ok (ProtocolShort.decode_append hlength), Decode.bind_ok (Decode.update_apply _)]
    exact htimes
  · rw [htuple]
    rfl

/-- The payload object of user defined types is cleared and filled. -/
theorem decodeUDTPayload_ok {keySpace udtName : Bytes} {fields : List (Bytes × ColumnTree)}
    (hfields : ∀ field ∈ fields, DecodesAt depth field.2)
    (hfits : (ColumnTree.udt keySpace udtName fields).Fits)
    (hnested : ¬ ColumnTree.FieldsUse .udt fields) (m : OptionMemory)
    (rest : Bytes) :
    ∃ n, decodeUDTPayload (decode depth)
        ⟨m, (ColumnTree.udt keySpace udtName fields).payload ++ rest⟩ = .ok () ⟨n, rest⟩ ∧
      (n.udt.keySpace = keySpace ∧ n.udt.udtName = udtName ∧
        n.udt.fields = ColumnTree.optionsOfFields fields) ∧
      Agree (ColumnTree.udt keySpace udtName fields).Uses n m := by
  obtain ⟨hkeySpace, hudtName, hlength, hfit⟩ := hfits
  obtain ⟨n, htimes, hudt, hagree⟩ := decode_fields hfields hfit hnested
    { m with udt := ⟨keySpace, udtName, [], m.udt.clears + 1⟩ } rest
  refine ⟨n, ?_, ?_, hagree.trans (OptionMemory.agree_udt (.inl rfl) _)⟩
  · rw [ColumnTree.payload, List.append_assoc, List.append_assoc, List.append_assoc,
      decodeUDTPayload, Decode.bind_ok (ProtocolString.decode_append hkeySpace),
      Decode.bind_ok (Decode.update_apply _),
      Decode.bind_ok (ProtocolString.decode_append hudtName),
      Decode.bind_ok (Decode.update_apply _), Decode.bind_ok (ProtocolShort.decode_append hlength),
      Decode.bind_ok (Decode.update_apply _)]
    exact htimes
  · rw [hudt]
    exact ⟨rfl, rfl, rfl⟩

/-- What is decoded inside a tree is shorter than its payload. -/
theorem element_lt {element : ColumnTree} (h : element.bytes.length < depth + 1) :
    element.payload.length < depth := by
  rw [ColumnTree.length_bytes] at h
  omega

mutual

/-- Every tree without self-nesting is decoded in place. -/
theorem decodesAt : ∀ (t : ColumnTree), t.Fits → t.NoSelfNesting →
    ∀ depth : Nat, t.payload.length < depth → DecodesAt depth t
  | _, _, _, 0, hdepth => absurd hdepth (Nat.not_lt_zero _)
  | .native type, _, _, depth + 1, _ => by
    intro m place rest hplace _
    refine ⟨_, ?_, .refl _⟩
    rw [decode_succ hplace]
    cases type with
    | _ => rfl
  | .custom name, hfits, _, depth + 1, _ => by
    intro m place rest hplace houtside
    obtain ⟨m', happend, hagree⟩ := append_started hplace houtside (.refl _)
      (ColumnTree.custom name).payload rest
    refine ⟨m', ?_, hagree⟩
    rw [decode_succ hplace]
    apply (Decode.bind_ok (ProtocolString.decode_append hfits) _).trans
    rw [ProtocolString.encode_eq hfits]
    exact happend
  | .list element, hfits, hnested, depth + 1, hdepth => by
    intro m place rest hplace houtside
    have helement := decodesAt element hfits hnested.2 depth (element_lt hdepth)
    rw [decode_succ hplace]
    exact decode_element helement rfl (fun _ => rfl) hnested.1 hplace houtside
  | .map key value, hfits, hnested, depth + 1, hdepth => by
    intro m place rest hplace houtside
    rw [ColumnTree.payload, List.length_append] at hdepth
    have hkey := decodesAt key hfits.1 hnested.2.1 depth
      (element_lt (Nat.lt_of_le_of_lt (Nat.le_add_right _ _) hdepth))
    have hvalue := decodesAt value hfits.2 hnested.2.2 depth
      (element_lt (Nat.lt_of_le_of_lt (Nat.le_add_left _ _) hdepth))
    rw [decode_succ hplace]
    exact decode_map hkey hvalue hnested.1.1 hnested.1.2 hplace houtside
  | .set element, hfits, hnested, depth + 1, hdepth => by
    intro m place rest hplace houtside
    have helement := decodesAt element hfits hnested.2 depth (element_lt hdepth)
    rw [decode_succ hplace]
    exact decode_element helement rfl (fun _ => rfl) hnested.1 hplace houtside
  | .udt keySpace udtName fields, hfits, hnested, depth + 1, hdepth => by
    intro m place rest hplace houtside
    rw [ColumnTree.payload, List.length_append] at hdepth
    have hfields := fieldsDecodeAt fields hfits.2.2.2 hnested.2 depth
      (Nat.lt_of_le_of_lt (Nat.le_add_left _ _) hdepth)
    obtain ⟨n, hdecode, ⟨hkeySpace, hudtName, hoptions⟩, hagree⟩ :=
      decodeUDTPayload_ok hfields hfits hnested.1 (m.put ⟨ColumnType.udt, []⟩ place) rest
    obtain ⟨m', happend, hm'⟩ := append_started hplace houtside hagree
      (ColumnTree.udt keySpace udtName fields).payload rest
    refine ⟨m', ?_, hm'⟩
    rw [decode_succ hplace]
    apply (Decode.bind_ok hdecode _).trans
    rw [Decode.bind_ok Decode.object_apply, hkeySpace, hudtName, hoptions, ColumnTree.encodeUDTPayload_eq hfits]
    exact happend
  | .tuple types, hfits, hnested, depth + 1, hdepth => by
    intro m place rest hplace houtside
    rw [ColumnTree.payload, List.length_append] at hdepth
    have htypes := typesDecodeAt types hfits.2 hnested.2 depth
      (Nat.lt_of_le_of_lt (Nat.le_add_left _ _) hdepth)
    obtain ⟨n, hdecode, hoptions, hagree⟩ :=
      decodeTuplePayload_ok htypes hfits.1 hnested.1 (m.put ⟨ColumnType.tuple, []⟩ place) rest
    obtain ⟨m', happend, hm'⟩ := append_started hplace houtside hagree
      (ColumnTree.tuple types).payload rest
    refine ⟨m', ?_, hm'⟩
    rw [decode_succ hplace]
    apply (Decode.bind_ok hdecode _).trans
    rw [Decode.bind_ok Decode.object_apply, hoptions, ColumnTree.encodeTuplePayload_eq hfits.1]
    exact happend

theorem typesDecodeAt : ∀ (types : List ColumnTree), ColumnTree.TypesFit types →
    ColumnTree.TypesNoSelfNesting types → ∀ depth : Nat,
    (ColumnTree.payloadOfTypes types).length < depth + 1 → ∀ type ∈ types, DecodesAt depth type
  | [], _, _, _, _ => fun _ hmem => by cases hmem
  | first :: types, hfit, hnested, depth, hdepth => by
    intro type hmem
    rw [ColumnTree.payloadOfTypes, List.length_append] at hdepth
    cases hmem with
    | head =>
      exact decodesAt first hfit.1 hnested.1 depth
        (element_lt (Nat.lt_of_le_of_lt (Nat.le_add_right _ _) hdepth))
    | tail _ hmem =>
      exact typesDecodeAt types hfit.2 hnested.2 depth
        (Nat.lt_of_le_of_lt (Nat.le_add_left _ _) hdepth) type hmem

theorem fieldsDecodeAt : ∀ (fields : List (Bytes × ColumnTree)),
    ColumnTree.FieldsFit fields → ColumnTree.FieldsNoSelfNesting fields → ∀ depth : Nat,
    (ColumnTree.payloadOfFields fields).length < depth + 1 →
    ∀ field ∈ fields, DecodesAt depth field.2
  | [], _, _, _, _ => fun _ hmem => by cases hmem
  | (name, type) :: fields, hfit, hnested, depth, hdepth => by
    intro field hmem
    rw [ColumnTree.payloadOfFields, List.length_append, List.length_append] at hdepth
    cases hmem with
    | head =>
      apply decodesAt type hfit.2.1 hnested.1 depth
      apply element_lt
      rw [ColumnTree.bytes]
      omega
    | tail _ hmem =>
      exact fieldsDecodeAt fields hfit.2.2 hnested.2 depth
        (Nat.lt_of_le_of_lt (Nat.le_add_left _ _) hdepth) field hmem

end

end ProtocolColumnOption

end CqlDriver
