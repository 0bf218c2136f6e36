import CqlDriver.Protocol.ColumnTree

/-!
# Reading and writing options in place

How the places of an `OptionMemory` depend on each other, and what the steps of
`ProtocolColumnOption.decode` do to it. Two memories agree outside some constructors
when only the payload objects of these constructors may differ.

## Main definitions

* `Place.constructor?` — the constructor whose payload object holds the place
* `OptionMemory.Agree` — agreement outside some constructors

## Main results

* `ProtocolColumnOption.start_ok`, `ProtocolColumnOption.append_ok`,
  `ProtocolColumnOption.encodeInto_ok` — the steps at a place that is alive
-/

namespace CqlDriver

open Math (Decode Cursor)

/-- The constructor whose payload object holds a place. -/
def Place.constructor? : Place → Option Constructor
  | .object => none
  | .listElement => some .list
  | .mapKey => some .map
  | .mapValue => some .map
  | .setElement => some .set
  | .udtField _ _ => some .udt
  | .tupleType _ _ => some .tuple

/-- The place is not in the payload object of one of the constructors. -/
def Place.Outside (place : Place) (used : Constructor → Prop) : Prop :=
  ∀ k, place.constructor? = some k → ¬ used k

theorem Place.Outside.mono {place : Place} {used used' : Constructor → Prop}
    (h : place.Outside used) (hle : ∀ k, used' k → used k) : place.Outside used' :=
  fun k hk hused => h k hk (hle k hused)

namespace OptionMemory

variable {m n : OptionMemory} {place source target : Place} {option other : ProtocolColumnOption}
  {used used' : Constructor → Prop}

/-- What was written is read. -/
theorem get?_put_self (h : (m.get? place).isSome) : (m.put option place).get? place = some option := by
  cases place with
  | object => rfl
  | listElement => rfl
  | mapKey => rfl
  | mapValue => rfl
  | setElement => rfl
  | udtField clears index =>
    simp only [get?] at h
    split at h
    next heq =>
      obtain ⟨field, hfield⟩ := Option.isSome_iff_exists.mp h
      obtain ⟨pair, hpair, -⟩ := Option.map_eq_some_iff.mp hfield
      refine (if_pos heq).trans ?_
      rw [put, List.getElem?_modify_eq, hpair]
      rfl
    · cases h
  | tupleType clears index =>
    simp only [get?] at h
    split at h
    next heq =>
      obtain ⟨type, htype⟩ := Option.isSome_iff_exists.mp h
      refine (if_pos heq).trans ?_
      rw [put, List.getElem?_set_self (List.getElem?_eq_some_iff.mp htype).1]
    · cases h

/-- The last write at a place counts. -/
theorem put_put : (m.put option place).put other place = m.put other place := by
  cases place with
  | object => rfl
  | listElement => rfl
  | mapKey => rfl
  | mapValue => rfl
  | setElement => rfl
  | udtField clears index =>
    simp only [put, List.modify_modify_eq]
    rfl
  | tupleType clears index => simp only [put, List.set_set]

/-- A write cannot be seen in the payload object of another constructor. -/
theorem get?_put_of_ne (h : target.constructor? ≠ source.constructor?) :
    (m.put option target).get? source = m.get? source := by
  cases target with
  | object =>
    cases source with
    | object => exact absurd rfl h
    | _ => rfl
  | listElement =>
    cases source with
    | listElement => exact absurd rfl h
    | _ => rfl
  | mapKey =>
    cases source with
    | mapKey => exact absurd rfl h
    | mapValue => exact absurd rfl h
    | _ => rfl
  | mapValue =>
    cases source with
    | mapKey => exact absurd rfl h
    | mapValue => exact absurd rfl h
    | _ => rfl
  | setElement =>
    cases source with
    | setElement => exact absurd rfl h
    | _ => rfl
  | udtField clears index =>
    cases source with
    | udtField clears' index' => exact absurd rfl h
    | _ => rfl
  | tupleType clears index =>
    cases source with
    | tupleType clears' index' => exact absurd rfl h
    | _ => rfl

/-- The payload objects of all other constructors are the same, and so is the object
that belongs to none. -/
structure Agree (used : Constructor → Prop) (m n : OptionMemory) : Prop where
  object : m.object = n.object
  listElement : ¬ used .list → m.listElement = n.listElement
  mapKey : ¬ used .map → m.mapKey = n.mapKey
  mapValue : ¬ used .map → m.mapValue = n.mapValue
  setElement : ¬ used .set → m.setElement = n.setElement
  udt : ¬ used .udt → m.udt = n.udt
  tuple : ¬ used .tuple → m.tuple = n.tuple

theorem Agree.refl (m : OptionMemory) : Agree used m m :=
  ⟨rfl, fun _ => rfl, fun _ => rfl, fun _ => rfl, fun _ => rfl, fun _ => rfl, fun _ => rfl⟩

theorem Agree.trans {l : OptionMemory} (h : Agree used l m) (h' : Agree used m n) :
    Agree used l n where
  object := h.object.trans h'.object
  listElement hk := (h.listElement hk).trans (h'.listElement hk)
  mapKey hk := (h.mapKey hk).trans (h'.mapKey hk)
  mapValue hk := (h.mapValue hk).trans (h'.mapValue hk)
  setElement hk := (h.setElement hk).trans (h'.setElement hk)
  udt hk := (h.udt hk).trans (h'.udt hk)
  tuple hk := (h.tuple hk).trans (h'.tuple hk)

theorem Agree.mono (h : Agree used m n) (hle : ∀ k, used k → used' k) : Agree used' m n where
  object := h.object
  listElement hk := h.listElement fun hused => hk (hle _ hused)
  mapKey hk := h.mapKey fun hused => hk (hle _ hused)
  mapValue hk := h.mapValue fun hused => hk (hle _ hused)
  setElement hk := h.setElement fun hused => hk (hle _ hused)
  udt hk := h.udt fun hused => hk (hle _ hused)
  tuple hk := h.tuple fun hused => hk (hle _ hused)

/-- Places outside the constructors hold the same options. -/
theorem Agree.get?_eq (h : Agree used m n) (hplace : place.Outside used) :
    m.get? place = n.get? place := by
  cases place with
  | object => exact congrArg some h.object
  | listElement => exact congrArg some (h.listElement (hplace _ rfl))
  | mapKey => exact congrArg some (h.mapKey (hplace _ rfl))
  | mapValue => exact congrArg some (h.mapValue (hplace _ rfl))
  | setElement => exact congrArg some (h.setElement (hplace _ rfl))
  | udtField clears index => simp only [get?, h.udt (hplace _ rfl)]
  | tupleType clears index => simp only [get?, h.tuple (hplace _ rfl)]

/-- The same write at both memories keeps the agreement. -/
theorem Agree.put (h : Agree used m n) (option : ProtocolColumnOption) (place : Place) :
    Agree used (m.put option place) (n.put option place) := by
  cases place with
  | object => exact { h with object := rfl }
  | listElement => exact { h with listElement := fun _ => rfl }
  | mapKey => exact { h with mapKey := fun _ => rfl }
  | mapValue => exact { h with mapValue := fun _ => rfl }
  | setElement => exact { h with setElement := fun _ => rfl }
  | udtField clears index =>
    exact { h with udt := fun hk => by simp only [OptionMemory.put, h.udt hk] }
  | tupleType clears index =>
    exact { h with tuple := fun hk => by simp only [OptionMemory.put, h.tuple hk] }

/-- A write inside the constructors cannot be seen. -/
theorem agree_put {k : Constructor} (hplace : place.constructor? = some k) (hused : used k) :
    Agree used (m.put option place) m := by
  cases place with
  | object => cases hplace
  | listElement =>
    cases hplace
    exact { Agree.refl m with listElement := fun hnot => absurd hused hnot }
  | mapKey =>
    cases hplace
    exact { Agree.refl m with mapKey := fun hnot => absurd hused hnot }
  | mapValue =>
    cases hplace
    exact { Agree.refl m with mapValue := fun hnot => absurd hused hnot }
  | setElement =>
    cases hplace
    exact { Agree.refl m with setElement := fun hnot => absurd hused hnot }
  | udtField clears index =>
    cases hplace
    exact { Agree.refl m with udt := fun hnot => absurd hused hnot }
  | tupleType clears index =>
    cases hplace
    exact { Agree.refl m with tuple := fun hnot => absurd hused hnot }

/-- Replacing the payload object of user defined types cannot be seen outside them. -/
theorem agree_udt (hused : used .udt) (udt : ProtocolColumnOptionUDTPayload) :
    Agree used { m with udt := udt } m :=
  ⟨rfl, fun _ => rfl, fun _ => rfl, fun _ => rfl, fun _ => rfl, fun hnot => absurd hused hnot,
    fun _ => rfl⟩

theorem agree_tuple (hused : used .tuple) (tuple : ProtocolColumnOptionTuplePayload) :
    Agree used { m with tuple := tuple } m :=
  ⟨rfl, fun _ => rfl, fun _ => rfl, fun _ => rfl, fun _ => rfl, fun _ => rfl,
    fun hnot => absurd hused hnot⟩

end OptionMemory

namespace ProtocolColumnOption

variable {m : OptionMemory} {place source target : Place} {option other : ProtocolColumnOption}
  {rest : Bytes}

theorem atPlace_ok (h : m.get? place = some option) :
    atPlace place ⟨m, rest⟩ = .ok option ⟨m, rest⟩ := by
  rw [atPlace, Decode.bind_ok Decode.object_apply]
  simp only [h]
  rfl

theorem start_ok (h : (m.get? place).isSome) (type : Nat) :
    start place type ⟨m, rest⟩ = .ok () ⟨m.put ⟨type, []⟩ place, rest⟩ := by
  obtain ⟨option, hoption⟩ := Option.isSome_iff_exists.mp h
  rw [start, Decode.bind_ok (atPlace_ok hoption)]
  rfl

theorem append_ok (h : m.get? place = some option) (bytes : Bytes) :
    append place bytes ⟨m, rest⟩ =
      .ok () ⟨m.put ⟨option.type, option.payload ++ bytes⟩ place, rest⟩ := by
  rw [append, Decode.bind_ok (atPlace_ok h)]
  rfl

/-- An option that can be encoded is encoded into another one. -/
theorem encodeInto_ok {encoded : Bytes} (hsource : m.get? source = some option)
    (htarget : m.get? target = some other) (hencoded : option.encode = .ok encoded)
    (hapart : target.constructor? ≠ source.constructor?) :
    encodeInto source target ⟨m, rest⟩ =
      .ok () ⟨m.put ⟨other.type, other.payload ++ encoded⟩ target, rest⟩ := by
  rw [encode] at hencoded
  split at hencoded
  · cases hencoded
  next hneeds =>
    cases hencoded
    rw [encodeInto, Decode.bind_ok (atPlace_ok hsource), if_neg hneeds,
      Decode.bind_ok (append_ok htarget _), Decode.bind_ok (atPlace_ok ((OptionMemory.get?_put_of_ne hapart).trans hsource)),
      append_ok (OptionMemory.get?_put_self (htarget ▸ rfl)), OptionMemory.put_put,
      List.append_assoc]

end ProtocolColumnOption

end CqlDriver
