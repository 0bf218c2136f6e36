import Mathlib.Algebra.Order.Group.Multiset
import Mathlib.Data.List.Basic
import Mathlib.Data.List.Count

/-!
# Lists as vectors and as tagged sequences

Two views of lists that the models below share: a vector of places that are
written one at a time, and a sequence of tagged values of which one tag is read.

## Main definitions

* `valuesOf` — the values with one tag, in order
* `modifyLast` — write the last place

## Main results

* `countP_set_add`, `sum_map_set_add` — what one write does to a count or a sum
* `foldl_sound` — a fold that follows an abstract one
* `filterMap_set_add`, `filterMap_set_of_later` — what one write does to the values
  read from a vector
* `getElem?_append_of_some`, `getElem?_concat_some` — reading a list that grows
* `set_concat`, `modify_concat` — writing its last place
* `valuesOf_append`, `mem_valuesOf`, `forall₂_valuesOf` — reading one tag of a sequence
* `forall_append_cons_iff` — the places of a list, one after another
-/

namespace CqlDriver.Math

section Count

variable {α : Type*} {f : α → Bool} {l : List α} {i : Nat} {old : α}

/-- Writing one place of a list moves a count by what is written there. -/
theorem countP_set_add (new : α) (h : l[i]? = some old) :
    (l.set i new).countP f + (if f old then 1 else 0) = l.countP f + (if f new then 1 else 0) := by
  induction l generalizing i with
  | nil => cases h
  | cons a rest ih =>
    cases i with
    | zero =>
      cases h
      rw [List.set_cons_zero, List.countP_cons, List.countP_cons]
      omega
    | succ i =>
      rw [List.getElem?_cons_succ] at h
      have hrest := ih h
      rw [List.set_cons_succ, List.countP_cons, List.countP_cons]
      omega

/-- A write that does not change the test keeps the count. -/
theorem countP_set_of_eq (new : α) (h : l[i]? = some old) (hsame : f new = f old) :
    (l.set i new).countP f = l.countP f := by
  have hcount := countP_set_add (f := f) new h
  rw [hsame] at hcount
  exact Nat.add_right_cancel hcount

/-- A write that ends the test at one place takes one off the count. -/
theorem countP_set_add_one (new : α) (h : l[i]? = some old) (hold : f old = true)
    (hnew : f new = false) :
    (l.set i new).countP f + 1 = l.countP f := by
  have hcount := countP_set_add (f := f) new h
  rw [hold, hnew] at hcount
  exact hcount

/-- What one write does to a sum over the places. -/
theorem sum_map_set_add {M : Type*} [AddCommMonoid M] (g : α → M) (new : α)
    (h : l[i]? = some old) :
    ((l.set i new).map g).sum + g old = (l.map g).sum + g new := by
  induction l generalizing i with
  | nil => cases h
  | cons first l ih =>
    cases i with
    | zero =>
      cases h
      simp only [List.set_cons_zero, List.map_cons, List.sum_cons]
      rw [add_right_comm, add_comm (g new), add_right_comm]
    | succ i =>
      have hrest := ih h
      simp only [List.set_cons_succ, List.map_cons, List.sum_cons, add_assoc, hrest]

/-- A value is at as many places as it is counted. -/
theorem countP_range_getElem? {α : Type*} [DecidableEq α] (l : List α) (a : α) :
    (List.range l.length).countP (fun i => l[i]? = some a) = l.count a := by
  induction l with
  | nil => rfl
  | cons first l ih =>
    rw [List.length_cons, List.range_succ_eq_map, List.countP_cons, List.countP_map]
    show (List.range l.length).countP (fun i => l[i]? = some a) + _ = _
    rw [ih, List.count_cons]
    simp

end Count

section Fold

variable {α σ τ : Type*} {f : σ → α → σ} {g : τ → α → τ} {abstract : σ → τ} {inv : σ → Prop}
  {allowed : α → Prop} {l : List α} {s : σ}

/-- A fold keeps what its steps keep, and its abstraction is the fold of theirs. -/
theorem foldl_sound (hkeep : ∀ s a, inv s → allowed a → inv (f s a))
    (hstep : ∀ s a, abstract (f s a) = g (abstract s) a) (hs : inv s) (hl : ∀ a ∈ l, allowed a) :
    inv (l.foldl f s) ∧ abstract (l.foldl f s) = l.foldl g (abstract s) := by
  induction l generalizing s with
  | nil => exact ⟨hs, rfl⟩
  | cons a l ih =>
    have hrest := ih (hkeep s a hs (hl a List.mem_cons_self))
      fun other hother => hl other (List.mem_cons_of_mem _ hother)
    rw [hstep] at hrest
    exact hrest

end Fold

section FilterMap

variable {α β : Type*} {f : α → Option β} {l : List α} {i : Nat} {old : α}

/-- Writing one place of a list exchanges what is read there. -/
theorem filterMap_set_add (new : α) (h : l[i]? = some old) :
    ((l.set i new).filterMap f : Multiset β) + (f old).toList =
      (l.filterMap f : Multiset β) + (f new).toList := by
  induction l generalizing i with
  | nil => cases h
  | cons a rest ih =>
    have hcons : ∀ (b : α) (l : List α),
        ((b :: l).filterMap f : Multiset β) = (f b).toList + (l.filterMap f : Multiset β) := by
      intro b l
      cases hb : f b with
      | none => rw [List.filterMap_cons_none hb]; exact (zero_add _).symm
      | some x => rw [List.filterMap_cons_some hb]; rfl
    cases i with
    | zero =>
      cases h
      rw [List.set_cons_zero, hcons, hcons]
      ac_rfl
    | succ i =>
      rw [List.getElem?_cons_succ] at h
      rw [List.set_cons_succ, hcons, hcons, add_assoc, ih h, add_assoc]

/-- Behind a place from which on nothing is read, the values end. -/
theorem filterMap_of_later (h : l[i]? = some old)
    (hlater : ∀ j a, i < j → l[j]? = some a → f a = none) :
    l.filterMap f = (l.take i).filterMap f ++ (f old).toList := by
  induction l generalizing i with
  | nil => cases h
  | cons a rest ih =>
    cases i with
    | zero =>
      cases h
      have hrest : rest.filterMap f = [] := by
        rw [List.filterMap_eq_nil_iff]
        intro b hb
        obtain ⟨j, hj⟩ := List.mem_iff_getElem?.mp hb
        exact hlater (j + 1) b (Nat.succ_pos j) hj
      rw [List.filterMap_cons, hrest]
      cases hold : f old with
      | none => rfl
      | some value => rfl
    | succ i =>
      rw [List.getElem?_cons_succ] at h
      have hrest := ih h fun j b hij hb => hlater (j + 1) b (Nat.succ_lt_succ hij) hb
      rw [List.take_succ_cons, List.filterMap_cons, List.filterMap_cons, hrest]
      cases f a with
      | none => rfl
      | some value => rfl

/-- Writing the last place from which something may be read. -/
theorem filterMap_set_of_later (new : α) (h : l[i]? = some old)
    (hlater : ∀ j a, i < j → l[j]? = some a → f a = none) :
    (l.set i new).filterMap f = (l.take i).filterMap f ++ (f new).toList := by
  have hlt := (List.getElem?_eq_some_iff.mp h).1
  rw [filterMap_of_later (List.getElem?_set_self hlt), List.take_set_of_le (Nat.le_refl i)]
  intro j a hij ha
  rw [List.getElem?_set_ne (Nat.ne_of_lt hij)] at ha
  exact hlater j a hij ha

/-- What is read from two places is not the same, if nothing is read twice. -/
theorem eq_of_filterMap_nodup {j : Nat} {b : α} {x : β} (h : (l.filterMap f).Nodup)
    (hi : l[i]? = some old) (hj : l[j]? = some b) (hold : f old = some x) (hb : f b = some x) :
    i = j := by
  induction l generalizing i j with
  | nil => cases hi
  | cons a l ih =>
    have hmem : ∀ {k : Nat} {c : α}, l[k]? = some c → f c = some x → x ∈ l.filterMap f :=
      fun hk hc => List.mem_filterMap.mpr ⟨_, List.mem_of_getElem? hk, hc⟩
    have hrest : (l.filterMap f).Nodup := h.sublist ((List.sublist_cons_self a l).filterMap f)
    cases i with
    | zero =>
      obtain rfl := Option.some.inj hi
      cases j with
      | zero => rfl
      | succ j =>
        rw [List.filterMap_cons_some hold, List.nodup_cons] at h
        exact absurd (hmem hj hb) h.1
    | succ i =>
      cases j with
      | zero =>
        obtain rfl := Option.some.inj hj
        rw [List.filterMap_cons_some hb, List.nodup_cons] at h
        exact absurd (hmem hi hold) h.1
      | succ j => exact congrArg (· + 1) (ih hrest hi hj)

/-- A list whose elements with a property come before all others splits there. -/
theorem exists_take_drop {P : α → Prop}
    (h : ∀ (i j : Nat) (a b : α), i < j → l[i]? = some a → l[j]? = some b → P b → P a) :
    ∃ k ≤ l.length, (∀ a ∈ l.take k, P a) ∧ ∀ a ∈ l.drop k, ¬ P a := by
  induction l with
  | nil => exact ⟨0, Nat.le_refl 0, fun a ha => (by cases ha), fun a ha => (by cases ha)⟩
  | cons first rest ih =>
    by_cases hfirst : P first
    · obtain ⟨k, hle, htake, hdrop⟩ := ih fun i j a b hij ha hb =>
        h (i + 1) (j + 1) a b (Nat.succ_lt_succ hij) ha hb
      refine ⟨k + 1, Nat.succ_le_succ hle, ?_, hdrop⟩
      rw [List.take_succ_cons]
      exact List.forall_mem_cons.mpr ⟨hfirst, htake⟩
    · refine ⟨0, Nat.zero_le _, fun a ha => (by cases ha), ?_⟩
      rw [List.drop_zero]
      intro b hb hP
      rcases List.mem_cons.mp hb with rfl | hb
      · exact hfirst hP
      · obtain ⟨j, hj⟩ := List.mem_iff_getElem?.mp hb
        exact hfirst (h 0 (j + 1) first b (Nat.succ_pos j) rfl hj hP)

/-- What is in a list with one place rewritten is new or was there. -/
theorem getElem?_set_some {j : Nat} {a new : α} (h : (l.set i new)[j]? = some a) :
    (j = i ∧ a = new) ∨ (j ≠ i ∧ l[j]? = some a) := by
  by_cases hij : i = j
  · subst hij
    rw [List.getElem?_set] at h
    split at h
    · split at h
      · exact .inl ⟨rfl, (Option.some.inj h).symm⟩
      · cases h
    next hne => exact absurd rfl hne
  · rw [List.getElem?_set_ne hij] at h
    exact .inr ⟨Ne.symm hij, h⟩

end FilterMap

section Growth

variable {α : Type*} {l : List α} {a new : α} {i : Nat}

/-- What is in a list stays in its place when the list grows. -/
theorem getElem?_append_of_some (more : List α) (h : l[i]? = some a) :
    (l ++ more)[i]? = some a := by
  rw [List.getElem?_append_left (List.getElem?_eq_some_iff.mp h).1]
  exact h

theorem getElem?_of_prefix {l' : List α} (h : l <+: l') (hget : l[i]? = some a) :
    l'[i]? = some a := by
  obtain ⟨more, rfl⟩ := h
  exact getElem?_append_of_some more hget

/-- What is in a list that grew by one is old or the new element. -/
theorem getElem?_concat_some (h : (l ++ [new])[i]? = some a) :
    l[i]? = some a ∨ (i = l.length ∧ a = new) := by
  rcases Nat.lt_trichotomy i l.length with hlt | rfl | hgt
  · rw [List.getElem?_append_left hlt] at h
    exact .inl h
  · rw [List.getElem?_concat_length] at h
    exact .inr ⟨rfl, (Option.some.inj h).symm⟩
  · rw [List.getElem?_eq_none (by rw [List.length_append]; exact hgt)] at h
    cases h

/-- Writing the last place of a list. -/
theorem set_concat : (l ++ [a]).set l.length new = l ++ [new] := by
  rw [List.set_append_right _ _ (Nat.le_refl _), Nat.sub_self, List.set_cons_zero]

theorem modify_concat {f : α → α} : (l ++ [a]).modify l.length f = l ++ [f a] := by
  induction l with
  | nil => rfl
  | cons first l ih => exact congrArg (first :: ·) ih

end Growth

section Tags

variable {κ β : Type*} [DecidableEq κ] {pairs rest : List (κ × β)} {key other : κ} {value : β}

/-- The values tagged with `key`, in the order of the sequence. -/
def valuesOf (pairs : List (κ × β)) (key : κ) : List β :=
  pairs.filterMap fun pair => if pair.1 = key then some pair.2 else none

@[simp] theorem valuesOf_nil : valuesOf ([] : List (κ × β)) key = [] := rfl

@[simp] theorem valuesOf_cons_self :
    valuesOf ((key, value) :: rest) key = value :: valuesOf rest key := by
  simp [valuesOf]

theorem valuesOf_cons_of_ne (h : other ≠ key) :
    valuesOf ((other, value) :: rest) key = valuesOf rest key := by
  simp [valuesOf, h]

@[simp] theorem valuesOf_append :
    valuesOf (pairs ++ rest) key = valuesOf pairs key ++ valuesOf rest key :=
  List.filterMap_append

theorem valuesOf_singleton :
    valuesOf [(other, value)] key = if other = key then [value] else [] := by
  by_cases h : other = key
  · subst h
    simp
  · rw [if_neg h, valuesOf_cons_of_ne h, valuesOf_nil]

theorem mem_valuesOf : value ∈ valuesOf pairs key ↔ (key, value) ∈ pairs := by
  rw [valuesOf, List.mem_filterMap]
  constructor
  · rintro ⟨⟨tag, found⟩, hmem, heq⟩
    rw [Option.ite_none_right_eq_some, Option.some.injEq] at heq
    obtain ⟨rfl, rfl⟩ := heq
    exact hmem
  · intro hmem
    exact ⟨(key, value), hmem, if_pos rfl⟩

/-- From the beginning of a sequence the first values are read. -/
theorem valuesOf_prefix (h : pairs <+: rest) : valuesOf pairs key <+: valuesOf rest key :=
  h.filterMap _

/-- Values that are tagged by a function are those it gives the key. -/
theorem valuesOf_map {α : Type*} (f : α → κ) (g : α → β) (l : List α) :
    valuesOf (l.map fun a => (f a, g a)) key = (l.filter fun a => f a = key).map g := by
  induction l with
  | nil => rfl
  | cons a l ih =>
    by_cases hkey : f a = key
    · subst hkey
      simp [ih]
    · simp [valuesOf_cons_of_ne hkey, hkey, ih]

/-- Related sequences whose tags agree are related at every key. -/
theorem forall₂_valuesOf {α γ : Type*} {R : α → γ → Prop} {f : α → κ} {g : γ → κ} {l : List α}
    {l' : List γ} (key : κ) (h : List.Forall₂ R l l') (htag : ∀ a c, R a c → f a = g c) :
    List.Forall₂ R (valuesOf (l.map fun a => (f a, a)) key)
      (valuesOf (l'.map fun c => (g c, c)) key) := by
  induction h with
  | nil => exact .nil
  | @cons a c l l' hac _ ih =>
    have hsame := htag a c hac
    by_cases hkey : f a = key
    · subst hkey
      simpa [← hsame] using And.intro hac ih
    · rw [List.map_cons, List.map_cons, valuesOf_cons_of_ne hkey,
        valuesOf_cons_of_ne (hsame ▸ hkey)]
      exact ih

end Tags

section ModifyLast

variable {α β : Type*}

/-- Modify the last element, if there is one. -/
def modifyLast (f : α → α) (l : List α) : List α := l.modify (l.length - 1) f

@[simp] theorem modifyLast_nil {f : α → α} : modifyLast f [] = [] := rfl

theorem modifyLast_ne_nil {f : α → α} {l : List α} (h : l ≠ []) : modifyLast f l ≠ [] := by
  rwa [modifyLast, Ne, List.modify_eq_nil_iff]

theorem modifyLast_modifyLast (f g : α → α) (l : List α) :
    modifyLast g (modifyLast f l) = modifyLast (g ∘ f) l := by
  ext1 i
  by_cases hi : l.length - 1 = i
  · subst hi
    cases hlast : l[l.length - 1]? <;> simp [modifyLast, hlast]
  · simp [modifyLast, hi]

/-- Modifying the last element commutes with a map that carries one change to the other. -/
theorem map_modifyLast {f : α → α} {g : β → β} {h : α → β} (hcomm : ∀ a, h (f a) = g (h a))
    (l : List α) : (modifyLast f l).map h = modifyLast g (l.map h) := by
  ext1 i
  by_cases hi : l.length - 1 = i
  · subst hi
    cases hlast : l[l.length - 1]? <;> simp [modifyLast, hlast, hcomm]
  · simp [modifyLast, hi]

end ModifyLast

/-- The places of a list are its first one and those behind it. -/
theorem forall_append_cons_iff {α : Type*} {P : List α → α → List α → Prop} {first : α}
    {l : List α} :
    (∀ before a after, first :: l = before ++ a :: after → P before a after) ↔
      P [] first l ∧ ∀ before a after, l = before ++ a :: after → P (first :: before) a after := by
  constructor
  · intro h
    refine ⟨h [] first l rfl, fun before a after hl => h (first :: before) a after ?_⟩
    rw [hl, List.cons_append]
  · rintro ⟨hfirst, hlater⟩ before a after hl
    cases before with
    | nil =>
      obtain ⟨rfl, rfl⟩ := List.cons.inj hl
      exact hfirst
    | cons other before =>
      obtain ⟨rfl, hrest⟩ := List.cons.inj hl
      exact hlater before a after hrest

end CqlDriver.Math
