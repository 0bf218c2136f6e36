import Mathlib.Data.List.Forall2
import CqlDriver.Column.Collections

/-!
# Loading collections

A list, a set or a map is constructed from a collection, or set from a collection that is kept, from
one that is moved, or from an initializer list. The three classes have the same text for the first
ways; `set` for a collection that is kept assigns the member to itself, so the object keeps what
it held. The elements of a list are set in place from an initializer list, and an element that is a
collection itself is set from an item that is kept. A copy of a collection has its items.

`Nullable` and `Tuple` forward their arguments, so they reach the same functions.

## Main definitions

* `ElementType` — how an element is constructed from an item, and set to one
* `CollectionClass` — how a collection is loaded, with `CollectionClass.set`
* `CollectionType` — the lists, sets and maps
* `CollectionClass.Agrees` — a call of `set` gives the collection, also behind `Nullable` and
  `Tuple`
* `CollectionClass.Argument.Loads` — the condition on the overload and on what the object held

## Main results

* `ListBase.setItems_of_takes`, `ListBase.setItems_of_keeps` — what a list takes from its items
* `CollectionType.collection_agrees_iff` — which calls give the collection
-/

namespace CqlDriver

/-! ## Elements -/

/-- The types of elements. A type that no initializer list can hold has no items. -/
inductive ElementType : Type 1
  /-- A class whose constructor and whose `set` take the item. -/
  | plain (value item : Type) (init : value) (construct : item → value)
  | nullable (type : ElementType)
  | list (element : ElementType)
  | set (element : ElementType)
  | map (key value : ElementType)

namespace ElementType

/-- The values of the objects of a type. -/
abbrev Value : ElementType → Type
  | plain value _ _ _ => value
  | nullable type => Nullable type.Value
  | list element => List element.Value
  | set element => UnorderedSet element.Value
  | map key value => UnorderedMap key.Value value.Value

/-- What an initializer list holds for an element. -/
abbrev Item : ElementType → Type
  | plain _ item _ _ => item
  | nullable type => type.Item
  | list element => List element.Value
  | set element => UnorderedSet element.Value
  | map key value => UnorderedMap key.Value value.Value

/-- A default constructed element. -/
def init : (type : ElementType) → type.Value
  | plain _ _ init _ => init
  | nullable type => ⟨type.init, true⟩
  | list _ => []
  | set _ => .empty
  | map _ _ => .empty

/-- The constructor of an item. -/
def construct : (type : ElementType) → type.Item → type.Value
  | plain _ _ _ construct, item => construct item
  | nullable type, item => ⟨type.construct item, false⟩
  | list _, value | set _, value | map _ _, value => value

/-- `value_[i].set(std::move(items.begin()[i]))`, where the item is constant. -/
def setItem : (type : ElementType) → type.Value → type.Item → type.Value
  | plain _ _ _ construct, _, item => construct item
  | nullable type, value_, item => ⟨type.setItem value_.value item, false⟩
  -- `value_ = value_`
  | list _, value_, _ | set _, value_, _ | map _ _, value_, _ => value_

/-- The element takes the item, or is a collection that is the item already. -/
def Accepts : (type : ElementType) → type.Value → type.Item → Prop
  | plain _ _ _ _, _, _ => True
  | nullable type, value_, item => type.Accepts value_.value item
  | list _, value_, item | set _, value_, item | map _ _, value_, item => value_ = item

/-- The element is set to the item, whatever it was. -/
def Takes : ElementType → Prop
  | plain _ _ _ _ => True
  | nullable type => type.Takes
  | list _ | set _ | map _ _ => False

/-- An element is set to the item exactly if it accepts it. -/
theorem setItem_eq_iff (type : ElementType) (value : type.Value) (item : type.Item) :
    type.setItem value item = type.construct item ↔ type.Accepts value item := by
  induction type with
  | plain => exact iff_of_true rfl trivial
  | nullable type ih =>
    rw [setItem, construct, Nullable.mk.injEq, and_iff_left rfl]
    exact ih value.value item
  | list | set | map => exact Iff.rfl

/-- A class that takes its items accepts them all. -/
theorem accepts_of_takes (type : ElementType) (h : type.Takes) (value : type.Value)
    (item : type.Item) : type.Accepts value item := by
  induction type with
  | plain => trivial
  | nullable type ih => exact ih h value.value item
  | list | set | map => cases h

theorem setItem_of_takes (type : ElementType) (h : type.Takes) (value : type.Value)
    (item : type.Item) : type.setItem value item = type.construct item :=
  (type.setItem_eq_iff value item).mpr (type.accepts_of_takes h value item)

end ElementType

/-! ## Collections -/

/-- A class of collections. -/
structure CollectionClass where
  Value : Type
  Item : Type
  /-- Set the value by initializer list. -/
  setItems : Value → List Item → Value
  encodeBody : Value → Bytes → Bytes
  /-- The collections are the same list, set or map. -/
  Same : Value → Value → Prop
  /-- An initializer list has the items of a collection. -/
  ItemsOf : List Item → Value → Prop
  /-- The object takes all items of an initializer list. -/
  Accepts : Value → List Item → Prop
  /-- The second string is the first one with the items of a collection behind it. -/
  Writes : Value → Bytes → Bytes → Prop

namespace CollectionClass

/-- The arguments of the overloads of `set`. -/
inductive Argument (c : CollectionClass)
  | kept (value : c.Value)
  | moved (value : c.Value)
  | items (items : List c.Item)

variable {c : CollectionClass} {previous value : c.Value}

/-- `explicit ListBase(const UnderlyingType& value) : value_(value)`, and the same from a value
that is moved. -/
def construct (c : CollectionClass) (value : c.Value) : c.Value := value

/-- The overloads of `set`. -/
def set (c : CollectionClass) (value_ : c.Value) : Argument c → c.Value
  | .kept _ => value_ -- `value_ = value_`
  | .moved value => value
  | .items list => c.setItems value_ list

/-- The argument is a collection, or has its items. -/
def Argument.Of (value : c.Value) : Argument c → Prop
  | .kept argument | .moved argument => argument = value
  | .items list => c.ItemsOf list value

/-- A collection that is kept is loaded by an object that holds it already, one that is moved
always, and an initializer list when the object takes its items. -/
def Argument.Loads (previous : c.Value) : Argument c → Prop
  | .kept value => c.Same previous value
  | .moved _ => True
  | .items list => c.Accepts previous list

end CollectionClass

/-- `Nullable::set`. -/
def Nullable.set {α β : Type} (set : α → β → α) (nullable : Nullable α) (argument : β) :
    Nullable α :=
  ⟨set nullable.value argument, false⟩

/-! ## Tuples -/

/-- A class with one of the arguments of its `set`. -/
structure Settable where
  Value : Type
  Argument : Type
  set : Value → Argument → Value

namespace Tuple

/-- One value for each of the types. -/
abbrev Values : List Settable → Type
  | [] => Unit
  | type :: types => type.Value × Values types

/-- One argument for each of the types. -/
abbrev Arguments : List Settable → Type
  | [] => Unit
  | type :: types => type.Argument × Arguments types

/-- Set the tuple value by its items. -/
def setImpl : (types : List Settable) → Values types → Arguments types → Values types
  | [], _, _ => ()
  | type :: types, value_, (head, rest) => (type.set value_.1 head, setImpl types value_.2 rest)

/-- The element behind those of the first types. -/
def element {type : Settable} {after : List Settable} :
    (before : List Settable) → Values (before ++ type :: after) → type.Value
  | [], value => value.1
  | _ :: before, value => element before value.2

/-- The argument behind those for the first types. -/
def argument {type : Settable} {after : List Settable} :
    (before : List Settable) → Arguments (before ++ type :: after) → type.Argument
  | [], arguments => arguments.1
  | _ :: before, arguments => argument before arguments.2

/-- Each element is set to its argument. -/
theorem element_setImpl {type : Settable} {after : List Settable} (before : List Settable)
    (value : Values (before ++ type :: after)) (arguments : Arguments (before ++ type :: after)) :
    element before (setImpl (before ++ type :: after) value arguments) =
      type.set (element before value) (argument before arguments) := by
  induction before with
  | nil => rfl
  | cons _ before ih => exact ih value.2 arguments.2

end Tuple

/-! ## All ways -/

namespace CollectionClass

variable {c : CollectionClass} {previous value : c.Value} {argument : Argument c}

/-- A call of `set` gives the collection: `get()` returns it and its items are written, also when
`Nullable` or `Tuple` has forwarded the argument. -/
structure Agrees (c : CollectionClass) (previous value : c.Value) (argument : Argument c) :
    Prop where
  set : c.Same (c.set previous argument) value
  encode : ∀ data, c.Writes value data (c.encodeBody (c.set previous argument) data)
  nullable : ∀ isNull : Bool, (Nullable.set c.set ⟨previous, isNull⟩ argument).isNull = false ∧
    c.Same (Nullable.set c.set ⟨previous, isNull⟩ argument).value value
  tuple : ∀ (before after : List Settable)
    (tuple : Tuple.Values (before ++ ⟨c.Value, Argument c, c.set⟩ :: after))
    (arguments : Tuple.Arguments (before ++ ⟨c.Value, Argument c, c.set⟩ :: after)),
    Tuple.element before tuple = previous → Tuple.argument before arguments = argument →
    c.Same (Tuple.element before (Tuple.setImpl _ tuple arguments)) value

/-- What the three classes have in common. -/
structure Lawful (c : CollectionClass) : Prop where
  refl : ∀ value, c.Same value value
  /-- The items of a collection give it when they are all taken. -/
  setItems : ∀ previous value items, c.ItemsOf items value →
    (c.Same (c.setItems previous items) value ↔ c.Accepts previous items)
  encode : ∀ previous value data, c.Same previous value →
    c.Writes value data (c.encodeBody previous data)

/-- One call, by its overload. -/
theorem Lawful.set_iff (h : c.Lawful) (hof : argument.Of value) :
    c.Same (c.set previous argument) value ↔ argument.Loads previous := by
  cases argument with
  | kept argument =>
    obtain rfl : argument = value := hof
    exact Iff.rfl
  | moved argument =>
    obtain rfl : argument = value := hof
    exact iff_of_true (h.refl argument) trivial
  | items items => exact h.setItems previous value items hof

theorem Lawful.agrees_iff (h : c.Lawful) (hof : argument.Of value) :
    c.Agrees previous value argument ↔ argument.Loads previous := by
  rw [← h.set_iff hof]
  constructor
  · exact Agrees.set
  · intro hsame
    refine ⟨hsame, fun data => h.encode _ _ data hsame, fun _ => ⟨rfl, hsame⟩, ?_⟩
    rintro before after tuple arguments rfl rfl
    rw [Tuple.element_setImpl]
    exact hsame

end CollectionClass

/-! ## Lists -/

namespace ListBase

variable {e : ElementType} {c : ColumnClass e.Value}

/-- `value_.resize(size)`. -/
def resize (e : ElementType) (value_ : List e.Value) (size : Nat) : List e.Value :=
  value_.take size ++ List.replicate (size - value_.length) e.init

/-- Set the list value by initializer list. -/
def setItems (e : ElementType) (value_ : List e.Value) (items : List e.Item) : List e.Value :=
  List.zipWith e.setItem (resize e value_ items.length) items

def collection (e : ElementType) (c : ColumnClass e.Value) : CollectionClass where
  Value := List e.Value
  Item := e.Item
  setItems := setItems e
  encodeBody := encodeBody c
  Same := Eq
  ItemsOf items value := items.map e.construct = value
  Accepts value_ items := List.Forall₂ e.Accepts (resize e value_ items.length) items
  Writes value data out := out = ColumnClass.encodeSized c.encode value data

theorem length_resize (value_ : List e.Value) (size : Nat) :
    (resize e value_ size).length = size := by
  rw [resize, List.length_append, List.length_take, List.length_replicate]
  omega

/-- A list is set to its items exactly if each of its elements accepts its item. -/
theorem zipWith_setItem_iff {resized : List e.Value} {items : List e.Item}
    (hlength : resized.length = items.length) :
    List.zipWith e.setItem resized items = items.map e.construct ↔
      List.Forall₂ e.Accepts resized items := by
  induction items generalizing resized with
  | nil =>
    obtain rfl := List.length_eq_zero_iff.mp hlength
    exact iff_of_true rfl .nil
  | cons item items ih =>
    obtain ⟨value, resized, rfl⟩ := List.exists_cons_of_length_eq_add_one hlength
    rw [List.zipWith_cons_cons, List.map_cons, List.cons.injEq, List.forall₂_cons,
      e.setItem_eq_iff, ih (Nat.succ.inj hlength)]

theorem setItems_iff (value_ : List e.Value) (items : List e.Item) :
    setItems e value_ items = items.map e.construct ↔
      List.Forall₂ e.Accepts (resize e value_ items.length) items :=
  zipWith_setItem_iff (length_resize value_ items.length)

/-- Elements that take their items are all set. -/
theorem setItems_of_takes (h : e.Takes) (value_ : List e.Value) (items : List e.Item) :
    setItems e value_ items = items.map e.construct := by
  rw [setItems_iff, List.forall₂_iff_get]
  exact ⟨length_resize value_ items.length, fun _ _ _ => e.accepts_of_takes h _ _⟩

/-- Elements that are collections stay as they are, or as they are default constructed. -/
theorem setItems_of_keeps (hkeeps : ∀ value item, e.setItem value item = value)
    (value_ : List e.Value) (items : List e.Item) :
    setItems e value_ items = resize e value_ items.length := by
  have hlength := length_resize value_ items.length
  rw [setItems]
  generalize resize e value_ items.length = resized at hlength
  induction items generalizing resized with
  | nil => simpa using (List.length_eq_zero_iff.mp hlength).symm
  | cons item items ih =>
    obtain ⟨value, resized, rfl⟩ := List.exists_cons_of_length_eq_add_one hlength
    rw [List.zipWith_cons_cons, hkeeps, ih resized (Nat.succ.inj hlength)]

theorem lawful (c : ColumnClass e.Value) : (collection e c).Lawful where
  refl _ := rfl
  setItems previous value items hof := by
    obtain rfl : items.map e.construct = value := hof
    exact setItems_iff previous items
  encode previous value data hsame := by
    obtain rfl : previous = value := hsame
    rfl

end ListBase

/-! ## Sets -/

namespace UnorderedSet

variable {α : Type} [DecidableEq α] {order : IterationOrder}

/-- Items that are all new are added to those that are there. -/
theorem foldl_emplace_perm {items : List α} {s : UnorderedSet α} (h : (items ++ s.items).Nodup) :
    (items.foldl (emplace order) s).items.Perm (items ++ s.items) := by
  induction items generalizing s with
  | nil => exact .refl _
  | cons item items ih =>
    have hfresh : item ∉ s.items := fun hmem =>
      (List.nodup_cons.mp h).1 (List.mem_append_right items hmem)
    have hmiddle : (items ++ (s.emplace order item).items).Perm (item :: (items ++ s.items)) :=
      ((emplace_perm order hfresh).append_left items).trans List.perm_middle
    exact (ih (hmiddle.nodup_iff.mpr h)).trans hmiddle

end UnorderedSet

namespace SetBase

variable {e : ElementType} [DecidableEq e.Value] {order : IterationOrder}

/-- Set the set value by initializer list. -/
def setItems (order : IterationOrder) (e : ElementType) [DecidableEq e.Value]
    (_value : UnorderedSet e.Value) (items : List e.Item) : UnorderedSet e.Value :=
  items.foldl (fun value_ item => value_.emplace order (e.construct item)) .empty

def collection (order : IterationOrder) (e : ElementType) [DecidableEq e.Value]
    (c : ColumnClass e.Value) : CollectionClass where
  Value := UnorderedSet e.Value
  Item := e.Item
  setItems := setItems order e
  encodeBody := encodeBody c
  Same := UnorderedSet.Same
  ItemsOf items value := (items.map e.construct).Perm value.items
  Accepts _ _ := True
  Writes value data out :=
    ∃ items, items.Perm value.items ∧ out = ColumnClass.encodeSized c.encode items data

/-- The items of a set give the set. -/
theorem setItems_perm {value : UnorderedSet e.Value} {items : List e.Item}
    (h : (items.map e.construct).Perm value.items) (previous : UnorderedSet e.Value) :
    (setItems order e previous items).items.Perm value.items := by
  have hnodup : (items.map e.construct ++ UnorderedSet.empty.items).Nodup := by
    rw [UnorderedSet.empty, List.append_nil]
    exact h.nodup_iff.mpr value.nodup
  have hall := @UnorderedSet.foldl_emplace_perm _ _ order _ _ hnodup
  rw [List.foldl_map, UnorderedSet.empty, List.append_nil] at hall
  exact hall.trans h

theorem lawful (order : IterationOrder) (c : ColumnClass e.Value) :
    (collection order e c).Lawful where
  refl _ := .refl _
  setItems previous _ _ hof := iff_of_true (setItems_perm hof previous) trivial
  encode previous _ _ hsame := ⟨previous.items, hsame, rfl⟩

end SetBase

/-! ## Maps -/

namespace UnorderedMap

variable {κ ν : Type} [DecidableEq κ] {order : IterationOrder}

/-- Entries whose keys are all new are added to those that are there. -/
theorem foldl_emplace_perm {entries : List (κ × ν)} {m : UnorderedMap κ ν}
    (h : ((entries ++ m.entries).map Prod.fst).Nodup) :
    (entries.foldl (emplace order) m).entries.Perm (entries ++ m.entries) := by
  induction entries generalizing m with
  | nil => exact .refl _
  | cons entry entries ih =>
    have hfresh : entry.1 ∉ m.entries.map Prod.fst := by
      rw [List.cons_append, List.map_cons, List.map_append] at h
      exact fun hmem => (List.nodup_cons.mp h).1 (List.mem_append_right _ hmem)
    have hmiddle : (entries ++ (m.emplace order entry).entries).Perm
        (entry :: (entries ++ m.entries)) :=
      ((emplace_perm order hfresh).append_left entries).trans List.perm_middle
    exact (ih ((hmiddle.map Prod.fst).nodup_iff.mpr h)).trans hmiddle

end UnorderedMap

namespace MapBase

variable {k v : ElementType} [DecidableEq k.Value] {order : IterationOrder}

/-- Set the map value by initializer list. -/
def setItems (order : IterationOrder) (k v : ElementType) [DecidableEq k.Value]
    (_value : UnorderedMap k.Value v.Value) (items : List (k.Item × v.Item)) :
    UnorderedMap k.Value v.Value :=
  items.foldl (fun value_ item => value_.emplace order (k.construct item.1, v.construct item.2))
    .empty

def collection (order : IterationOrder) (k v : ElementType) [DecidableEq k.Value]
    (key : ColumnClass k.Value) (mapped : ColumnClass v.Value) : CollectionClass where
  Value := UnorderedMap k.Value v.Value
  Item := k.Item × v.Item
  setItems := setItems order k v
  encodeBody := encodeBody key mapped
  Same value value' := value.entries.Perm value'.entries
  ItemsOf items value :=
    (items.map fun item => (k.construct item.1, v.construct item.2)).Perm value.entries
  Accepts _ _ := True
  Writes value data out := ∃ entries, entries.Perm value.entries ∧
    out = ColumnClass.encodeSized (encodeItem key mapped) entries data

/-- The items of a map give the map. -/
theorem setItems_perm {value : UnorderedMap k.Value v.Value} {items : List (k.Item × v.Item)}
    (h : (items.map fun item => (k.construct item.1, v.construct item.2)).Perm value.entries)
    (previous : UnorderedMap k.Value v.Value) :
    (setItems order k v previous items).entries.Perm value.entries := by
  have hnodup : (((items.map fun item : k.Item × v.Item =>
      (k.construct item.1, v.construct item.2)) ++
        UnorderedMap.empty.entries).map Prod.fst).Nodup := by
    rw [UnorderedMap.empty, List.append_nil]
    exact (h.map Prod.fst).nodup_iff.mpr value.nodup
  have hall := @UnorderedMap.foldl_emplace_perm _ _ _ order _ _ hnodup
  rw [List.foldl_map, UnorderedMap.empty, List.append_nil] at hall
  exact hall.trans h

theorem lawful (order : IterationOrder) (key : ColumnClass k.Value) (mapped : ColumnClass v.Value) :
    (collection order k v key mapped).Lawful where
  refl _ := .refl _
  setItems previous _ _ hof := iff_of_true (setItems_perm hof previous) trivial
  encode previous _ _ hsame := ⟨previous.entries, hsame, rfl⟩

end MapBase

/-! ## The collection types -/

/-- The lists, sets and maps, with the classes of what they hold. -/
inductive CollectionType : Type 1
  | list (element : ElementType) (column : ColumnClass element.Value)
  | set (element : ElementType) [DecidableEq element.Value] (column : ColumnClass element.Value)
  | map (key value : ElementType) [DecidableEq key.Value] (keyColumn : ColumnClass key.Value)
    (valueColumn : ColumnClass value.Value)

namespace CollectionType

/-- The class of a type. -/
def collection (order : IterationOrder) : CollectionType → CollectionClass
  | list element column => ListBase.collection element column
  | set element column => SetBase.collection order element column
  | map key value keyColumn valueColumn => MapBase.collection order key value keyColumn valueColumn

/-- Constructing from a collection gives it, and a call of `set` exactly under the condition for
its overload. -/
theorem collection_agrees_iff (order : IterationOrder) (type : CollectionType)
    (previous value : (type.collection order).Value) :
    (type.collection order).Same ((type.collection order).construct value) value ∧
      ∀ argument : (type.collection order).Argument, argument.Of value →
        ((type.collection order).Agrees previous value argument ↔ argument.Loads previous) := by
  have hlawful : (type.collection order).Lawful := by
    cases type with
    | list element column => exact ListBase.lawful column
    | set element column => exact SetBase.lawful order column
    | map key value keyColumn valueColumn => exact MapBase.lawful order keyColumn valueColumn
  exact ⟨hlawful.refl value, fun argument => hlawful.agrees_iff⟩

/-- Lists of numbers. -/
def numbers : CollectionType :=
  .list (.plain (IntegerBase.Value 4) (IntegerBase.Value 4) 0 id) (IntegerBase.column 4)

/-- A list of one number takes the items of an initializer list. -/
theorem collection_agrees_items :
    (numbers.collection .append).Agrees [(3 : IntegerBase.Value 4)] [7, 8]
      (.items ([7, 8] : List (IntegerBase.Value 4))) :=
  ((collection_agrees_iff .append numbers [(3 : IntegerBase.Value 4)] [7, 8]).2
    (.items ([7, 8] : List (IntegerBase.Value 4))) rfl).mpr (.cons trivial (.cons trivial .nil))

/-- A new list that is set to a list of one number stays empty. -/
theorem not_agrees_list : ¬ ∀ (order : IterationOrder) (type : CollectionType)
    (previous value : (type.collection order).Value) (argument : (type.collection order).Argument),
      argument.Of value → (type.collection order).Agrees previous value argument := by
  intro hall
  have hset : ([] : List (IntegerBase.Value 4)) = [7] :=
    (hall .append numbers [] [7] (.kept [7]) rfl).set
  cases hset

end CollectionType

end CqlDriver
