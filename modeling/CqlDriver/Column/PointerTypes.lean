import CqlDriver.Column.PointerScalars

/-!
# Containers, tuples and user defined types behind pointers

A container reads the number of its elements, which may be any integer, and then decodes one element
after the other with a pointer of its own. A tuple does so with one column for each field, and a user
defined type resets the fields that nothing is left for.

The containers behind `SetBase` and `MapBase` are template parameters.

## Main definitions

* `Pointer.ListBase.column`, `Pointer.SetBase.column`, `Pointer.MapBase.column`,
  `Pointer.Tuple.column`, `Pointer.UDT.column`
* `Pointer.IsColumnType` — the classes that the templates build from the scalar types

## Main results

* `Pointer.bounded_decodeElements` — an element takes four bytes at least
* `Pointer.staysInside_of_isColumnType` — every column type stays inside
-/

namespace CqlDriver

open Math (Memory Extent Scan rounds)

namespace Pointer

variable {σ α κ ν : Type} {c : Class α}

/-! ## Elements one after the other -/

/-- Read the number of the elements, clear the container and decode the elements up to the end. -/
def decodeElements (sizeNotEnough sizeNegative : Failure) (empty : σ)
    (decodeItem : Nat → Scan Failure (σ × Nat) Unit) (ptr : Nat) (size : Int) :
    Scan Failure σ Unit :=
  if size < 4 then
    Scan.throw sizeNotEnough
  else do
    let count ← Scan.onLocal 0 (IntegerBase.decodeBody 4 ptr 4)
    if count.toInt < 0 then
      Scan.throw sizeNegative
    else do
      Scan.update fun _ => empty
      let item := do
        decodeItem (ptr + size.toNat)
        Scan.round
      Scan.withLocal (ptr + 4) (Scan.times item count.toInt.toNat)

namespace ListBase

/-- Append a default constructed element and decode it in place. -/
def decodeItem (c : Class α) (stop : Nat) : Scan Failure (List α × Nat) Unit := do
  Scan.update fun s => (s.1 ++ [c.init], s.2)
  Scan.onObject (fun value => value.getLastD c.init) (fun item value => value.dropLast ++ [item])
    (c.decode stop)

def decodeBody (c : Class α) : Nat → Int → Scan Failure (List α) Unit :=
  decodeElements ListBase.sizeNotEnough ListBase.sizeNegative [] (decodeItem c)

def column (c : Class α) : Class (List α) := Pointer.column [] (fun _ => []) (decodeBody c)

end ListBase

/-- A container for sets. -/
structure SetType (α : Type) where
  Value : Type
  empty : Value
  emplace : Value → α → Value

namespace SetBase

/-- Decode a local element and insert it. -/
def decodeItem (set : SetType α) (c : Class α) (stop : Nat) : Scan Failure (set.Value × Nat) Unit := do
  let item ← Scan.onLocalObject c.init (c.decode stop)
  Scan.update fun s => (set.emplace s.1 item, s.2)

def decodeBody (set : SetType α) (c : Class α) : Nat → Int → Scan Failure set.Value Unit :=
  decodeElements SetBase.sizeNotEnough SetBase.sizeNegative set.empty (decodeItem set c)

def column (set : SetType α) (c : Class α) : Class set.Value :=
  Pointer.column set.empty (fun _ => set.empty) (decodeBody set c)

end SetBase

/-- A container for maps. -/
structure MapType (κ ν : Type) where
  Value : Type
  empty : Value
  emplace : Value → κ × ν → Value

namespace MapBase

/-- Decode a local key and a local value and insert them. -/
def decodeItem (map : MapType κ ν) (k : Class κ) (v : Class ν) (stop : Nat) :
    Scan Failure (map.Value × Nat) Unit := do
  let key ← Scan.onLocalObject k.init (k.decode stop)
  let item ← Scan.onLocalObject v.init (v.decode stop)
  Scan.update fun s => (map.emplace s.1 (key, item), s.2)

def decodeBody (map : MapType κ ν) (k : Class κ) (v : Class ν) :
    Nat → Int → Scan Failure map.Value Unit :=
  decodeElements MapBase.sizeNotEnough MapBase.sizeNegative map.empty (decodeItem map k v)

def column (map : MapType κ ν) (k : Class κ) (v : Class ν) : Class map.Value :=
  Pointer.column map.empty (fun _ => map.empty) (decodeBody map k v)

end MapBase

/-! ## Fields -/

/-- A class of values of any type. -/
abbrev AnyClass := (α : Type) × Class α

/-- One value for each of the classes. -/
abbrev Fields : List AnyClass → Type
  | [] => Unit
  | field :: fields => field.1 × Fields fields

namespace Fields

def init : (fields : List AnyClass) → Fields fields
  | [] => ()
  | field :: fields => (field.2.init, init fields)

/-- Reset to initial state. -/
def reset : (fields : List AnyClass) → Fields fields → Fields fields
  | [], _ => ()
  | field :: fields, value => (field.2.reset value.1, reset fields value.2)

end Fields

namespace Tuple

def decodeFields : (fields : List AnyClass) → Nat → Scan Failure (Fields fields × Nat) Unit
  | [], _ => pure ()
  | field :: fields, stop => do
    Scan.onObject Prod.fst (fun item value => (item, value.2)) (field.2.decode stop)
    Scan.onObject Prod.snd (fun others value => (value.1, others)) (decodeFields fields stop)

def decodeBody (fields : List AnyClass) (ptr : Nat) (size : Int) :
    Scan Failure (Fields fields) Unit :=
  Scan.withLocal ptr (decodeFields fields (ptr + size.toNat))

def column (fields : List AnyClass) : Class (Fields fields) :=
  Pointer.column (Fields.init fields) (Fields.reset fields) (decodeBody fields)

end Tuple

namespace UDT

/-- It is allowed to have less values than the type has fields. -/
def decodeFields : (fields : List AnyClass) → Nat → Scan Failure (Fields fields × Nat) Unit
  | [], _ => pure ()
  | field :: fields, stop => do
    let s ← Scan.get
    if s.2 < stop then
      Scan.onObject Prod.fst (fun item value => (item, value.2)) (field.2.decode stop)
    else
      Scan.update fun s => ((field.2.reset s.1.1, s.1.2), s.2)
    Scan.onObject Prod.snd (fun others value => (value.1, others)) (decodeFields fields stop)

def decodeBody (fields : List AnyClass) (ptr : Nat) (size : Int) :
    Scan Failure (Fields fields) Unit :=
  Scan.withLocal ptr (decodeFields fields (ptr + size.toNat))

def column (fields : List AnyClass) : Class (Fields fields) :=
  Pointer.column (Fields.init fields) (Fields.reset fields) (decodeBody fields)

end UDT

/-! ## Staying inside -/

namespace Class.StaysInside

/-- A column is decoded before the end. -/
theorem confined (h : c.StaysInside) (stop : Nat) : (c.decode stop).Confined stop 4 Failure.IsDecode where
  le_pointer memory s hle := by
    have hleaves := h.decode memory stop s.1 s.2
    rw [hleaves.rounds_eq, Nat.mul_zero, Nat.add_zero]
    cases hresult : (c.decode stop memory s).result with
    | ok _ =>
      rcases (hleaves.decoded hresult).1 with ⟨-, hptr⟩ | ⟨-, -, hptr⟩
      · rw [hptr]; omega
      · rw [hptr]; omega
    | error failure => exact Nat.le_of_eq (hleaves.thrown failure hresult).2.1.symm
  pointer_le memory s hle := by
    have hleaves := h.decode memory stop s.1 s.2
    cases hresult : (c.decode stop memory s).result with
    | ok _ => exact (hleaves.decoded hresult).2.1
    | error failure => exact (hleaves.thrown failure hresult).2.1.trans_le hle
  inside memory s hle t ht := by
    have hleaves := h.decode memory stop s.1 s.2
    cases hresult : (c.decode stop memory s).result with
    | ok _ =>
      obtain ⟨-, hstop, hinside⟩ := hleaves.decoded hresult
      exact (hinside t ht).mono le_rfl (Nat.add_le_add_left (Nat.sub_le_sub_right hstop s.2) s.2)
    | error failure => exact (hleaves.thrown failure hresult).2.2 t ht
  error memory s _ failure herror := (h.decode memory stop s.1 s.2).thrown failure herror |>.1

/-- A column that is decoded takes four bytes at least. -/
theorem moves (h : c.StaysInside) (stop : Nat) : (c.decode stop).Moves stop 4 4 := by
  intro memory s _ _ hok
  have hleaves := h.decode memory stop s.1 s.2
  rw [hleaves.rounds_eq]
  rcases (hleaves.decoded hok).1 with ⟨-, hptr⟩ | ⟨-, -, hptr⟩
  · rw [hptr]; omega
  · rw [hptr]

end Class.StaysInside

/-- With elements that take four bytes at least, the number of the elements does not matter. -/
theorem bounded_decodeElements {sizeNotEnough sizeNegative : Failure} {empty : σ}
    {decodeItem : Nat → Scan Failure (σ × Nat) Unit} (hthrown : sizeNotEnough.IsDecode)
    (hnegative : sizeNegative.IsDecode)
    (hitem : ∀ stop, (do decodeItem stop; Scan.round).Confined stop 4 Failure.IsDecode) (ptr : Nat)
    (size : Int) :
    (decodeElements sizeNotEnough sizeNegative empty decodeItem ptr size).Bounded ⟨ptr, size.toNat⟩
      (size.toNat / 4) Failure.IsDecode := by
  rw [decodeElements]
  split
  · exact (Scan.Bounded.throw hthrown).mono (Nat.zero_le _)
  next hlong =>
    have hcount : (IntegerBase.decodeBody 4 ptr 4).Bounded ⟨ptr, size.toNat⟩ 0 Failure.IsDecode :=
      bounded_decodeFixed ⟨_, rfl⟩ le_rfl (by dsimp only; omega)
    refine hcount.onLocal.bind_quiet fun count => ?_
    split
    · exact (Scan.Bounded.throw hnegative).mono (Nat.zero_le _)
    · refine (Scan.Bounded.update _).bind_quiet fun _ => ?_
      have hloop := ((hitem (ptr + size.toNat)).times count.toInt.toNat).withLocal (by decide)
        (show ptr + 4 ≤ ptr + size.toNat by omega)
      exact (hloop.enlarge (Nat.le_add_right ptr 4) (by dsimp only; omega)).mono
        (Nat.div_le_div_right (by omega))

/-- The elements may be any columns. -/
theorem elements_staysInside {init : σ} {reset : σ → σ} {sizeNotEnough sizeNegative : Failure}
    {empty : σ} {decodeItem : Nat → Scan Failure (σ × Nat) Unit} (hthrown : sizeNotEnough.IsDecode)
    (hnegative : sizeNegative.IsDecode)
    (hitem : ∀ stop, (decodeItem stop).Confined stop 4 Failure.IsDecode)
    (hmoves : ∀ stop, (decodeItem stop).Moves stop 4 4) :
    (Pointer.column init reset
      (decodeElements sizeNotEnough sizeNegative empty decodeItem)).StaysInside :=
  column_staysInside fun ptr size _ => bounded_decodeElements hthrown hnegative
    (fun stop => (hitem stop).bind_round (hmoves stop)) ptr size

theorem ListBase.staysInside (h : c.StaysInside) : (column c).StaysInside := by
  refine elements_staysInside ⟨_, rfl⟩ ⟨_, rfl⟩ (fun stop => ?_) fun stop => ?_
  · exact (@Scan.Confined.update _ _ _ _ _ (fun s => (s.1 ++ [c.init], s.2)) fun _ => rfl).bind
      fun _ => (h.confined stop).onObject
  · refine Scan.Moves.update_bind ?_ ?_
    · exact fun _ => rfl
    · exact (h.moves stop).onObject

theorem SetBase.staysInside (set : SetType α) (h : c.StaysInside) : (column set c).StaysInside := by
  have hinsert (item : α) (stop : Nat) : (Scan.update fun s : set.Value × Nat =>
      (set.emplace s.1 item, s.2) : Scan Failure _ _).Confined stop 4 Failure.IsDecode :=
    .update fun _ => rfl
  refine elements_staysInside ⟨_, rfl⟩ ⟨_, rfl⟩ (fun stop => ?_) fun stop => ?_
  · exact (h.confined stop).onLocalObject.bind fun item => hinsert item stop
  · exact (h.moves stop).onLocalObject.bind (h.confined stop).onLocalObject
      fun item => hinsert item stop

theorem MapBase.staysInside (map : MapType κ ν) {k : Class κ} {v : Class ν} (hk : k.StaysInside)
    (hv : v.StaysInside) : (column map k v).StaysInside := by
  have hinsert (key : κ) (item : ν) (stop : Nat) : (Scan.update fun s : map.Value × Nat =>
      (map.emplace s.1 (key, item), s.2) : Scan Failure _ _).Confined stop 4 Failure.IsDecode :=
    .update fun _ => rfl
  have hvalue (key : κ) (stop : Nat) : (do
      let item ← Scan.onLocalObject v.init (v.decode stop)
      Scan.update fun s : map.Value × Nat => (map.emplace s.1 (key, item), s.2) :
        Scan Failure _ _).Confined stop 4 Failure.IsDecode :=
    (hv.confined stop).onLocalObject.bind fun item => hinsert key item stop
  refine elements_staysInside ⟨_, rfl⟩ ⟨_, rfl⟩ (fun stop => ?_) fun stop => ?_
  · exact (hk.confined stop).onLocalObject.bind fun key => hvalue key stop
  · exact (hk.moves stop).onLocalObject.bind (hk.confined stop).onLocalObject
      fun key => hvalue key stop

/-- Fields that are decoded one after the other stay inside. -/
theorem fields_staysInside {fields : List AnyClass} {init : Fields fields}
    {reset : Fields fields → Fields fields}
    {decodeFields : Nat → Scan Failure (Fields fields × Nat) Unit}
    (h : ∀ stop, (decodeFields stop).Confined stop 4 Failure.IsDecode) :
    (Pointer.column init reset fun ptr size =>
      Scan.withLocal ptr (decodeFields (ptr + size.toNat))).StaysInside := by
  refine column_staysInside fun ptr size _ => ?_
  have hfields := (h (ptr + size.toNat)).withLocal (by decide) (Nat.le_add_right ptr size.toNat)
  rw [Nat.add_sub_cancel_left] at hfields
  exact hfields

namespace Tuple

theorem confined_decodeFields {fields : List AnyClass} (h : ∀ field ∈ fields, field.2.StaysInside)
    (stop : Nat) : (decodeFields fields stop).Confined stop 4 Failure.IsDecode := by
  induction fields with
  | nil => exact .pure ()
  | cons field fields ih =>
    have hfirst := (h field List.mem_cons_self).confined stop
    have hothers := ih fun other hother => h other (List.mem_cons_of_mem _ hother)
    exact hfirst.onObject.bind fun _ => hothers.onObject

theorem staysInside {fields : List AnyClass} (h : ∀ field ∈ fields, field.2.StaysInside) :
    (column fields).StaysInside :=
  fields_staysInside (confined_decodeFields h)

end Tuple

namespace UDT

theorem confined_decodeFields {fields : List AnyClass} (h : ∀ field ∈ fields, field.2.StaysInside)
    (stop : Nat) : (decodeFields fields stop).Confined stop 4 Failure.IsDecode := by
  induction fields with
  | nil => exact .pure ()
  | cons field fields ih =>
    have hfirst := (h field List.mem_cons_self).confined stop
    have hothers := ih fun other hother => h other (List.mem_cons_of_mem _ hother)
    have hreset : (Scan.update fun s => ((field.2.reset s.1.1, s.1.2), s.2) :
        Scan Failure (Fields (field :: fields) × Nat) Unit).Confined stop 4 Failure.IsDecode :=
      .update fun _ => rfl
    refine .get_bind fun s => ?_
    split
    · exact hfirst.onObject.bind fun _ => hothers.onObject
    · exact hreset.bind fun _ => hothers.onObject

theorem staysInside {fields : List AnyClass} (h : ∀ field ∈ fields, field.2.StaysInside) :
    (column fields).StaysInside :=
  fields_staysInside (confined_decodeFields h)

end UDT

/-! ## The column types -/

/-- The classes that the templates build from the scalar types. -/
inductive IsColumnType (calendar : Calendar) : {α : Type} → Class α → Prop
  | scalar (type : ScalarType) : IsColumnType calendar (type.column calendar)
  | nullable {α : Type} {c : Class α} :
    IsColumnType calendar c → IsColumnType calendar (Nullable.column c)
  | list {α : Type} {c : Class α} :
    IsColumnType calendar c → IsColumnType calendar (ListBase.column c)
  | set {α : Type} {c : Class α} (set : SetType α) :
    IsColumnType calendar c → IsColumnType calendar (SetBase.column set c)
  | map {κ ν : Type} {k : Class κ} {v : Class ν} (map : MapType κ ν) :
    IsColumnType calendar k → IsColumnType calendar v →
      IsColumnType calendar (MapBase.column map k v)
  | tuple (fields : List AnyClass) : (∀ field ∈ fields, IsColumnType calendar field.2) →
    IsColumnType calendar (Tuple.column fields)
  | udt (fields : List AnyClass) : (∀ field ∈ fields, IsColumnType calendar field.2) →
    IsColumnType calendar (UDT.column fields)

/-- Columns of any depth are decoded without looking outside. -/
theorem staysInside_of_isColumnType {calendar : Calendar} {α : Type} {c : Class α}
    (h : IsColumnType calendar c) : c.StaysInside := by
  induction h with
  | scalar type => exact type.staysInside calendar
  | nullable _ ih => exact Nullable.staysInside ih
  | list _ ih => exact ListBase.staysInside ih
  | set set _ ih => exact SetBase.staysInside set ih
  | map map _ _ hkey hvalue => exact MapBase.staysInside map hkey hvalue
  | tuple fields _ ih => exact Tuple.staysInside ih
  | udt fields _ ih => exact UDT.staysInside ih

/-- Lists of pairs of an integer and a text that may be null. -/
theorem staysInside_pairs : (ListBase.column (Tuple.column
    [⟨_, ScalarType.column ⟨id⟩ (.scalar .int)⟩,
      ⟨_, Nullable.column (ScalarType.column ⟨id⟩ (.scalar .text))⟩])).StaysInside := by
  refine @staysInside_of_isColumnType ⟨id⟩ _ _ (.list (.tuple _ fun field hfield => ?_))
  simp only [List.mem_cons, List.not_mem_nil, or_false] at hfield
  rcases hfield with rfl | rfl
  · exact IsColumnType.scalar (.scalar .int)
  · exact IsColumnType.nullable (.scalar (.scalar .text))

end Pointer

end CqlDriver
