import CqlDriver.Common.Reusable

/-!
# Ownership of reusable objects

A deleter stores its object behind as many objects as the free list had before `freeResources` was
called, and sets the size to one more. Objects of the same type that `freeResources` gave back are
in the list by then. The first of them is in the slot and is destroyed; a second one stays in a slot
that the size does not cover.

## Main definitions

* `ReusableStorage.Dense` — the objects are in the slots below the size
* `Thread.WellOwned` — objects have one owner each, and the free lists are dense
* `Thread.Undisturbed` — the functions of the types leave what a deleter goes on with

## Main results

* `Thread.WellOwned.handle_or_slot` — where no call waits, handles and slots own the objects
* `Thread.Invariant.step` — steps that are not disturbed keep the invariant
* `Thread.wellOwned_iff_undisturbed` — everything is well owned along a run exactly when no step is
  disturbed
-/

namespace CqlDriver

open Math (Owned)

variable {τ ι : Type}

/-! ## Free lists -/

/-- The objects are in the slots below the size, which is not above the capacity. -/
structure ReusableStorage.Dense (capacity : Nat) (storage : ReusableStorage) : Prop where
  filled : ∀ index, index < storage.size → storage.freeList index ≠ none
  empty : ∀ index, storage.size ≤ index → storage.freeList index = none
  size_le : storage.size ≤ capacity

namespace ReusableStorage.Dense

variable {capacity size index : Nat} {storage : ReusableStorage} {ptr : ObjectPtr}
  {freeList : Nat → Option ObjectPtr}

theorem eq_none_iff (h : storage.Dense capacity) :
    storage.freeList index = none ↔ storage.size ≤ index := by
  constructor
  · intro hnone
    by_contra hlt
    exact h.filled index (Nat.lt_of_not_le hlt) hnone
  · exact h.empty index

/-- The last object is taken. -/
theorem take (h : storage.Dense capacity) (hsize : storage.size = size + 1) :
    Dense capacity ⟨Function.update storage.freeList size none, size⟩ where
  filled index hindex := by
    have hindex : index < size := hindex
    simp only [Function.update_of_ne (Nat.ne_of_lt hindex)]
    exact h.filled index (by omega)
  empty index hindex := by
    have hindex : size ≤ index := hindex
    by_cases heq : index = size
    · simp [heq]
    · simp only [Function.update_of_ne heq]
      exact h.empty index (by omega)
  size_le := by
    have hle := h.size_le
    have hgoal : size ≤ capacity := by omega
    exact hgoal

/-- An object is stored behind the others. -/
theorem store (h : storage.Dense capacity) (hsize : storage.size = size) (hlt : size < capacity) :
    Dense capacity ⟨Function.update storage.freeList size (some ptr), size + 1⟩ where
  filled index hindex := by
    have hindex : index < size + 1 := hindex
    by_cases heq : index = size
    · simp [heq]
    · simp only [Function.update_of_ne heq]
      exact h.filled index (by omega)
  empty index hindex := by
    have hindex : size + 1 ≤ index := hindex
    simp only [Function.update_of_ne (Nat.ne_of_gt hindex)]
    exact h.empty index (by omega)
  size_le := hlt

/-- An object takes the place of another one. -/
theorem replace (h : storage.Dense capacity) (hslot : storage.freeList index ≠ none) :
    Dense capacity ⟨Function.update storage.freeList index (some ptr), storage.size⟩ where
  filled i hi := by
    by_cases heq : i = index
    · simp [heq]
    · simp only [Function.update_of_ne heq]
      exact h.filled i hi
  empty i hi := by
    have hne : i ≠ index := by
      rintro rfl
      exact hslot (h.empty i hi)
    simp only [Function.update_of_ne hne]
    exact h.empty i hi
  size_le := h.size_le

/-- An object that is stored in an empty slot has to be the next one. -/
theorem size_eq_of_store (h : storage.Dense capacity) (hslot : storage.freeList size = none)
    (hstored : Dense capacity ⟨Function.update storage.freeList size (some ptr), size + 1⟩) :
    storage.size = size := by
  have hle := h.eq_none_iff.mp hslot
  by_contra hne
  -- the slot at the old size is not filled
  refine hstored.filled storage.size (Nat.lt_succ_of_le hle) ?_
  simp only [Function.update_of_ne hne]
  exact h.empty storage.size (Nat.le_refl _)

/-- The slots say what the size is. -/
theorem size_unique {a b : Nat} (ha : Dense capacity ⟨freeList, a⟩)
    (hb : Dense capacity ⟨freeList, b⟩) : a = b := by
  rcases Nat.lt_trichotomy a b with hlt | heq | hgt
  · exact absurd (ha.empty a (Nat.le_refl a)) (hb.filled a hlt)
  · exact heq
  · exact absurd (hb.empty b (Nat.le_refl b)) (ha.filled b hgt)

end ReusableStorage.Dense

namespace Thread

/-! ## The property -/

/-- The object was reset after it was taken. -/
def ResetAt (s : Thread τ ι) (ptr : ObjectPtr) : Prop :=
  ∃ object, s.objects ptr = some object ∧ object.isReset

/-- The objects that are owned by handles were reset. -/
def HandlesReset (s : Thread τ ι) : Prop :=
  ∀ handle ptr deleter, s.holds (.handle handle) = some (ptr, deleter) → s.ResetAt ptr

/-- Each live object has one owner, under its dynamic type, and owners own live objects only. The
free lists are dense, and the objects of handles were reset. -/
structure WellOwned (capacity : τ → Nat) (s : Thread τ ι) : Prop where
  owned : Owned s.Live s.holds
  storage : ∀ type, (s.storage type).Dense (capacity type)
  reset : s.HandlesReset

variable {capacity : τ → Nat} {s t : Thread τ ι} {ptr : ObjectPtr} {deleter : Option τ}
  {a b : Owner τ ι}

theorem live_of_objects {object : ReusableObject τ} (h : s.objects ptr = some object) :
    s.Live (ptr, some object.type) :=
  ⟨object, h, rfl⟩

/-- A pointer is to one object. -/
theorem live_unique {other : Option τ} (h : s.Live (ptr, deleter)) (h' : s.Live (ptr, other)) :
    deleter = other := by
  obtain ⟨object, hobject, rfl⟩ := h
  obtain ⟨object', hobject', rfl⟩ := h'
  obtain rfl := Option.some.inj (hobject.symm.trans hobject')
  rfl

/-- Where no call waits, a live object is owned by one handle or one slot of its dynamic type. -/
theorem WellOwned.handle_or_slot (h : s.WellOwned capacity) (hcalls : s.calls = [])
    {object : ReusableObject τ} (hobject : s.objects ptr = some object) :
    ∃ owner, s.holds owner = some (ptr, some object.type) ∧
      (∀ other deleter, s.holds other = some (ptr, deleter) → other = owner) ∧
      ((∃ handle, owner = .handle handle) ∨ ∃ index, owner = .slot object.type index) := by
  have hlive := live_of_objects hobject
  obtain ⟨owner, howner⟩ := h.owned.held hlive
  refine ⟨owner, howner, ?_, ?_⟩
  · intro other deleter hother
    obtain rfl := live_unique hlive (h.owned.alive hother)
    exact h.owned.unique hother howner
  · cases owner with
    | handle handle => exact Or.inl ⟨handle, rfl⟩
    | slot type index =>
      obtain ⟨_, _, hpair⟩ := Option.map_eq_some_iff.mp howner
      cases hpair
      exact Or.inr ⟨index, rfl⟩
    | call depth =>
      rw [holds, hcalls] at howner
      cases howner

/-! ## What keeps ownership -/

/-- The part of the property that does not depend on the free lists being dense. -/
structure Owns (s : Thread τ ι) : Prop where
  owned : Owned s.Live s.holds
  reset : s.HandlesReset

theorem live_congr (hobjects : t.objects = s.objects) : t.Live = s.Live := by
  funext x
  simp only [Live, hobjects]

theorem resetAt_congr (hobjects : t.objects = s.objects) : t.ResetAt ptr ↔ s.ResetAt ptr := by
  simp only [ResetAt, hobjects]

theorem WellOwned.owns (h : s.WellOwned capacity) : s.Owns := ⟨h.owned, h.reset⟩

theorem Owns.congr (h : s.Owns) (hobjects : t.objects = s.objects) (hholds : t.holds = s.holds) :
    t.Owns where
  owned := by
    rw [live_congr hobjects, hholds]
    exact h.owned
  reset handle ptr deleter hhandle := by
    rw [hholds] at hhandle
    exact (resetAt_congr hobjects).mpr (h.reset handle ptr deleter hhandle)

/-- An owner that holds an object is the only one that has the pointer. -/
theorem Owns.unique_ptr (h : s.Owns) {other : Option τ} (ha : s.holds a = some (ptr, deleter))
    (hb : s.holds b = some (ptr, other)) : a = b := by
  obtain rfl := live_unique (h.owned.alive ha) (h.owned.alive hb)
  exact h.owned.unique ha hb

variable [DecidableEq τ] [DecidableEq ι]

/-- An object is handed from one owner to another; handles are given objects that were reset. -/
theorem Owns.move (h : s.Owns) (hobjects : t.objects = s.objects)
    (hholds : t.holds = Function.update (Function.update s.holds a none) b (s.holds a))
    (hb : Function.update s.holds a none b = none)
    (hreset : ∀ handle ptr deleter, b = .handle handle → s.holds a = some (ptr, deleter) →
      s.ResetAt ptr) : t.Owns where
  owned := by
    rw [live_congr hobjects, hholds]
    exact h.owned.move hb
  reset handle ptr deleter hhandle := by
    rw [hholds] at hhandle
    rw [resetAt_congr hobjects]
    by_cases hhandleb : .handle handle = b
    · rw [hhandleb, Function.update_self] at hhandle
      exact hreset handle ptr deleter hhandleb.symm hhandle
    rw [Function.update_of_ne hhandleb] at hhandle
    by_cases hhandlea : .handle handle = a
    · rw [hhandlea, Function.update_self] at hhandle
      cases hhandle
    · rw [Function.update_of_ne hhandlea] at hhandle
      exact h.reset handle ptr deleter hhandle

/-- An object is destroyed at its owner. -/
theorem Owns.remove (h : s.Owns) (ha : s.holds a = some (ptr, deleter))
    (hobjects : t.objects = Function.update s.objects ptr none)
    (hholds : t.holds = Function.update s.holds a none) : t.Owns where
  owned := by
    rw [hholds]
    refine h.owned.remove ha fun x => ?_
    obtain ⟨other, type⟩ := x
    simp only [Live, hobjects]
    by_cases hother : other = ptr
    · subst hother
      simp only [Function.update_self]
      refine iff_of_false (by simp) ?_
      rintro ⟨hne, hlive⟩
      exact hne (by rw [live_unique (h.owned.alive ha) hlive])
    · simp [hother]
  reset handle other type hhandle := by
    have hold : s.holds (.handle handle) = some (other, type) := by
      rw [hholds] at hhandle
      by_cases hhandlea : .handle handle = a
      · rw [hhandlea, Function.update_self] at hhandle
        cases hhandle
      · rwa [Function.update_of_ne hhandlea] at hhandle
    have hother : other ≠ ptr := by
      rintro rfl
      rw [hholds, h.unique_ptr hold ha, Function.update_self] at hhandle
      cases hhandle
    obtain ⟨object, hobject, hreset⟩ := h.reset handle other type hold
    exact ⟨object, by rw [hobjects, Function.update_of_ne hother, hobject], hreset⟩

/-- A new object is owned by a call. -/
theorem Owns.insert (h : s.Owns) {type : τ} {depth : Nat} (hfresh : s.objects ptr = none)
    (hcall : s.holds (.call depth) = none)
    (hobjects : t.objects = Function.update s.objects ptr (some ⟨type, false⟩))
    (hholds : t.holds = Function.update s.holds (.call depth) (some (ptr, some type))) :
    t.Owns where
  owned := by
    rw [hholds]
    refine h.owned.insert hcall ?_ fun x => ?_
    · rintro ⟨object, hobject, _⟩
      rw [hfresh] at hobject
      cases hobject
    · obtain ⟨other, deleter⟩ := x
      simp only [Live, hobjects]
      by_cases hother : other = ptr
      · subst hother
        simp [hfresh]
      · simp [hother]
  reset handle other deleter hhandle := by
    rw [hholds, Function.update_of_ne (by simp)] at hhandle
    obtain ⟨object, hobject, hreset⟩ := h.reset handle other deleter hhandle
    have hother : other ≠ ptr := by
      rintro rfl
      rw [hfresh] at hobject
      cases hobject
    exact ⟨object, by rw [hobjects, Function.update_of_ne hother, hobject], hreset⟩

omit [DecidableEq τ] [DecidableEq ι] in
/-- The object of a call is reset, or is not reset any more. -/
theorem Owns.setReset (h : s.Owns) {type : τ} {depth : Nat} {isReset : Bool}
    (hcall : s.holds (.call depth) = some (ptr, some type)) :
    (s.setObject ptr (some ⟨type, isReset⟩)).Owns where
  owned := by
    obtain ⟨object, hobject, htype⟩ := h.owned.alive hcall
    refine h.owned.of_iff fun x => ?_
    obtain ⟨other, deleter⟩ := x
    by_cases hother : other = ptr
    · subst hother
      simp [Live, setObject, hobject, Option.some.inj htype]
    · simp [Live, setObject, hother]
  reset handle other deleter hhandle := by
    rw [holds_setObject] at hhandle
    have hother : other ≠ ptr := by
      rintro rfl
      have howner := h.unique_ptr hhandle hcall
      cases howner
    obtain ⟨object, hobject, hreset⟩ := h.reset handle other deleter hhandle
    exact ⟨object, by simp [setObject, hother, hobject], hreset⟩

/-! ## The functions -/

/-- A caller of a deleter goes on with a handle that still owns nothing. -/
def Vacant (s : Thread τ ι) : DeleterCaller ι → Prop
  | .moveAssignment handle _ => s.holds (.handle handle) = none
  | .destructor handle => s.holds (.handle handle) = none
  | .makeReusable => True

variable {caller : DeleterCaller ι} {call : ReusableCall τ ι} {rest : List (ReusableCall τ ι)}

omit [DecidableEq τ] [DecidableEq ι] in
theorem holds_handle {handle : ι} {value : ReusableHandle τ} (h : s.handles handle = some value) :
    s.holds (.handle handle) = value.holds := by
  simp [holds, h]

/-- What a handle takes from another one. -/
theorem holds_take {handle other : ι} {value : ReusableHandle τ}
    (hother : s.handles other = some value) (hne : handle ≠ other) :
    ((s.setHandle handle (some value)).setHandle other (some { value with ptr_ := none })).holds =
      Function.update (Function.update s.holds (.handle other) none) (.handle handle)
        (s.holds (.handle other)) := by
  have howner : (.handle other : Owner τ ι) ≠ .handle handle := by simpa using hne.symm
  rw [holds_setHandle, holds_setHandle, holds_handle hother, Function.update_comm howner]
  rfl

theorem Owns.take {handle other : ι} {value : ReusableHandle τ} (h : s.Owns)
    (hother : s.handles other = some value) (hne : handle ≠ other)
    (hvacant : s.holds (.handle handle) = none) :
    ((s.setHandle handle (some value)).setHandle other
      (some { value with ptr_ := none })).Owns := by
  have howner : (.handle handle : Owner τ ι) ≠ .handle other := by simpa using hne
  refine h.move rfl (holds_take hother hne) ?_ ?_
  · rw [Function.update_of_ne howner, hvacant]
  · intro _ ptr deleter _ hptr
    exact h.reset other ptr deleter hptr

/-- Writing to a handle that owns nothing, and leaving it so. -/
theorem Owns.setHandle {handle : ι} {value : Option (ReusableHandle τ)} (h : s.Owns)
    (hvacant : s.holds (.handle handle) = none) (hvalue : value.bind ReusableHandle.holds = none) :
    (s.setHandle handle value).Owns := by
  refine h.congr rfl ?_
  rw [holds_setHandle, hvalue, ← hvacant, Function.update_eq_self]

/-- The caller of a deleter goes on. -/
theorem Owns.resume (h : s.Owns) (hcaller : s.Vacant caller) (hresume : s.resume caller = some t) :
    t.Owns := by
  cases caller with
  | moveAssignment handle other =>
    rw [Thread.resume] at hresume
    split at hresume
    next value _ hother =>
      cases hresume
      by_cases hne : handle = other
      · -- a handle that owns nothing is written twice
        subst hne
        have hempty : (some value).bind ReusableHandle.holds = none := by
          rw [← hcaller, holds_handle hother]
          rfl
        refine (h.setHandle hcaller hempty).setHandle ?_ rfl
        rw [holds_setHandle, Function.update_self, hempty]
      · exact h.take hother hne hcaller
    · cases hresume
  | destructor handle =>
    cases hresume
    exact h.setHandle hcaller rfl
  | makeReusable =>
    cases hresume
    exact h

/-- A caller whose handle owns an object by now loses it. -/
theorem Owns.not_owns_resume (h : s.Owns) (hcaller : ¬ s.Vacant caller)
    (hresume : s.resume caller = some t) : ¬ Owned t.Live t.holds := by
  cases caller with
  | moveAssignment handle other =>
    rw [Thread.resume] at hresume
    split at hresume
    next value _ hother =>
      cases hresume
      obtain ⟨x, hx⟩ := Option.ne_none_iff_exists'.mp hcaller
      refine Owned.lost (h.owned.alive hx) fun owner howner => ?_
      rw [holds_setHandle, holds_setHandle] at howner
      by_cases hisother : owner = .handle other
      · rw [hisother, Function.update_self] at howner
        cases howner
      rw [Function.update_of_ne hisother] at howner
      by_cases hishandle : owner = .handle handle
      · -- what the handle has now was owned by the other one
        rw [hishandle, Function.update_self] at howner
        have hsame := h.owned.unique ((holds_handle hother).trans howner) hx
        exact hisother (hishandle.trans hsame.symm)
      · rw [Function.update_of_ne hishandle] at howner
        exact hishandle (h.owned.unique howner hx)
    · cases hresume
  | destructor handle =>
    cases hresume
    obtain ⟨x, hx⟩ := Option.ne_none_iff_exists'.mp hcaller
    rw [holds_setHandle]
    exact h.owned.not_owned_update hx (by simp)
  | makeReusable => exact absurd trivial hcaller

/-- A deleter starts with an object that another owner gave up. -/
theorem Owns.callDeleter {before : Thread τ ι} {type : τ} (h : before.Owns)
    (ha : before.holds a = some (ptr, some type)) (hobjects : s.objects = before.objects)
    (hholds : s.holds = Function.update before.holds a none)
    (hcall : s.callDeleter capacity ptr (some type) caller = some t) : t.Owns := by
  have hempty := s.holds_call_length
  simp only [Thread.callDeleter] at hcall
  split at hcall
  · -- the object waits for `freeResources`
    cases hcall
    refine h.move (b := .call s.calls.length) hobjects ?_ (by rw [← hholds, hempty]) (by simp)
    rw [holds_push, hholds, ha]
    rfl
  · cases hcall
    refine h.remove ha ?_ ?_
    · rw [← hobjects]
      rfl
    · rw [holds_push_of_none rfl, holds_setObject, hholds]

omit [DecidableEq ι] in
theorem Owns.setSize (h : s.Owns) (type : τ) (size : Nat) : (s.setSize type size).Owns :=
  h.congr rfl (s.holds_setSize type size)

/-- An object that waited is stored. -/
theorem Owns.stored {tPtr : ObjectPtr} {type : τ} {size : Nat} (h : s.Owns)
    (hcalls : s.calls = .freeing tPtr type size caller :: rest)
    (hslot : (s.storage type).freeList size = none) :
    (((s.pop.setObject tPtr (some ⟨type, false⟩)).setSlot type size (some tPtr)).setSize type
      (size + 1)).Owns := by
  have hcall := holds_call hcalls
  have hnone : s.holds (.slot type size) = none := by simp [holds, hslot]
  -- it is not reset any more, and then it is handed to the slot
  have hreset : (s.setObject tPtr (some ⟨type, false⟩)).Owns := h.setReset hcall
  refine hreset.move (a := .call rest.length) (b := .slot type size) rfl ?_ ?_ (by simp)
  · rw [holds_setSize, holds_setSlot, holds_setObject, holds_setObject, holds_pop hcalls, hcall]
    rfl
  · rw [holds_setObject, Function.update_of_ne (by simp), hnone]

/-- The object that was in the slot is destroyed first. -/
theorem Owns.replaced {tPtr old : ObjectPtr} {type : τ} {size : Nat} (h : s.Owns)
    (hcalls : s.calls = .freeing tPtr type size caller :: rest)
    (hslot : (s.storage type).freeList size = some old) :
    ((((s.pop.setObject tPtr (some ⟨type, false⟩)).setSlot type size (some tPtr)).setObject old
      none).push (.replacing type size caller)).Owns := by
  have hcall := holds_call hcalls
  have hold : s.holds (.slot type size) = some (old, some type) := by simp [holds, hslot]
  have howner : (.call rest.length : Owner τ ι) ≠ .slot type size := by simp
  have hreset : (s.setObject tPtr (some ⟨type, false⟩)).Owns := h.setReset hcall
  have hremoved : (((s.setObject tPtr (some ⟨type, false⟩)).setSlot type size none).setObject old
      none).Owns := by
    refine hreset.remove (a := .slot type size) hold rfl ?_
    rw [holds_setObject, holds_setSlot]
    rfl
  refine hremoved.move (a := .call rest.length) (b := .slot type size) rfl ?_ ?_ (by simp)
  · rw [holds_push_of_none rfl]
    simp only [holds_setObject, holds_setSlot, Option.map_none]
    rw [holds_pop hcalls, Function.update_of_ne howner, hcall, Function.update_comm howner,
      Function.update_comm howner, Function.update_idem]
    rfl
  · simp

/-! ## The free lists -/

omit [DecidableEq ι] in
/-- One free list is written. -/
theorem dense_update {storage : τ → ReusableStorage} {type : τ} {value : ReusableStorage}
    (h : ∀ other, (storage other).Dense (capacity other)) (hvalue : value.Dense (capacity type))
    (other : τ) : (Function.update storage type value other).Dense (capacity other) := by
  by_cases hother : other = type
  · subst hother
    rwa [Function.update_self]
  · rw [Function.update_of_ne hother]
    exact h other

omit [DecidableEq τ] in
/-- The callers of deleters write handles only. -/
theorem resume_eq (hresume : s.resume caller = some t) :
    t.storage = s.storage ∧ t.calls = s.calls := by
  cases caller with
  | moveAssignment handle other =>
    rw [resume] at hresume
    split at hresume
    · cases hresume
      exact ⟨rfl, rfl⟩
    · cases hresume
  | destructor handle =>
    cases hresume
    exact ⟨rfl, rfl⟩
  | makeReusable =>
    cases hresume
    exact ⟨rfl, rfl⟩

omit [DecidableEq ι] in
theorem storage_setSize (s : Thread τ ι) (type : τ) (size : Nat) :
    (s.setSize type size).storage =
      Function.update s.storage type ⟨(s.storage type).freeList, size⟩ := rfl

omit [DecidableEq ι] in
theorem storage_setSlot_setSize (s : Thread τ ι) (type : τ) (index size : Nat)
    (ptr : Option ObjectPtr) : ((s.setSlot type index ptr).setSize type size).storage =
      Function.update s.storage type
        ⟨Function.update (s.storage type).freeList index ptr, size⟩ := by
  simp [setSlot, setSize]

omit [DecidableEq τ] [DecidableEq ι] in
theorem vacant_congr (hhandles : t.handles = s.handles) : t.Vacant caller ↔ s.Vacant caller := by
  cases caller <;> simp [Vacant, holds, hhandles]

/-! ## The invariant -/

/-- The functions of the types left alone what a deleter goes on with: the list has as many objects
as it had before `freeResources`, or one more where one was replaced, and no object was put into
the handle that gave its own object up. -/
def Undisturbed (s : Thread τ ι) : ReusableEvent τ ι → Prop
  | .freeResourcesReturned =>
    match s.calls with
    | .freeing _ type size caller :: _ => (s.storage type).freeList size = none →
        (s.storage type).size = size ∧ s.Vacant caller
    | _ => True
  | .destructorReturned =>
    match s.calls with
    | .replacing type size caller :: _ => (s.storage type).size = size + 1 ∧ s.Vacant caller
    | .destroying caller :: _ => s.Vacant caller
    | _ => True
  | _ => True

/-- A deleter that waits for `freeResources` has found room for its object. -/
def HasRoom (capacity : τ → Nat) : ReusableCall τ ι → Prop
  | .freeing _ type size _ => size < capacity type
  | _ => True

/-- What holds between the steps. -/
structure Invariant (capacity : τ → Nat) (s : Thread τ ι) : Prop where
  wellOwned : s.WellOwned capacity
  room : ∀ call ∈ s.calls, HasRoom capacity call

namespace Invariant

omit [DecidableEq τ] [DecidableEq ι] in
theorem of_owns (howns : t.Owns) (hstorage : ∀ type, (t.storage type).Dense (capacity type))
    (hroom : ∀ call ∈ t.calls, HasRoom capacity call) : t.Invariant capacity :=
  ⟨⟨howns.owned, hstorage, howns.reset⟩, hroom⟩

variable (h : s.Invariant capacity)

include h

omit [DecidableEq τ] [DecidableEq ι] in
/-- The waiting calls around the innermost one. -/
theorem room_rest (hcalls : s.calls = call :: rest) : ∀ call ∈ rest, HasRoom capacity call := by
  intro other hother
  exact h.room other (hcalls ▸ List.mem_cons_of_mem call hother)

omit [DecidableEq τ] [DecidableEq ι] in
theorem room_push (hroom : HasRoom capacity call) :
    ∀ other ∈ call :: s.calls, HasRoom capacity other := by
  intro other hother
  rcases List.mem_cons.mp hother with rfl | hmem
  · exact hroom
  · exact h.room other hmem

theorem moveTo {handle other : ι} (hstep : s.moveTo handle other = some t) :
    t.Invariant capacity := by
  rw [Thread.moveTo] at hstep
  split at hstep
  next value hnone hother =>
    cases hstep
    have hne : handle ≠ other := by
      rintro rfl
      rw [hnone] at hother
      cases hother
    have hvacant : s.holds (.handle handle) = none := by simp [holds, hnone]
    exact of_owns (h.wellOwned.owns.take hother hne hvacant) h.wellOwned.storage h.room
  · cases hstep

/-- A new object, or the last one of the list, is handed to the call. -/
theorem makeReusable {handle : ι} {type : τ} {address : ObjectPtr}
    (hstep : s.makeReusable handle type address = some t) : t.Invariant capacity := by
  have howns := h.wellOwned.owns
  have hempty := s.holds_call_length
  rw [Thread.makeReusable] at hstep
  split at hstep
  · split at hstep
    · cases hstep
    next hfresh =>
      -- a new object
      cases hstep
      refine of_owns (howns.insert (by simpa using hfresh) hempty rfl ?_) h.wellOwned.storage
        (h.room_push trivial)
      rw [holds_push, holds_setObject]
      rfl
  next size hsize =>
    split at hstep
    · cases hstep
    next ptr hslot =>
      -- the object in the last slot
      cases hstep
      have hheld : s.holds (.slot type size) = some (ptr, some type) := by simp [holds, hslot]
      refine of_owns (howns.move (a := .slot type size) (b := .call s.calls.length) rfl ?_ ?_
        (by simp)) ?_ (h.room_push trivial)
      · rw [holds_push, holds_setSize, holds_setSlot, hheld]
        rfl
      · rw [Function.update_of_ne (by simp), hempty]
      · have htake := (h.wellOwned.storage type).take hsize
        intro other
        exact storage_setSlot_setSize s type size size none ▸
          dense_update h.wellOwned.storage htake other

/-- The object of the call was reset, and is handed to the handle. -/
theorem returnHandle {handle : ι} {object : ObjectPtr} {type : τ}
    (hcalls : s.calls = .resetting handle object type :: rest)
    (hstep : s.pop.returnHandle handle object type = some t) : t.Invariant capacity := by
  rw [Thread.returnHandle] at hstep
  split at hstep
  · cases hstep
  next hnone =>
    cases hstep
    have hcall := holds_call hcalls
    have hvacant : s.holds (.handle handle) = none := by
      have hhandle : s.handles handle = none := hnone
      simp [holds, hhandle]
    have hreset : (s.setObject object (some ⟨type, true⟩)).Owns :=
      h.wellOwned.owns.setReset hcall
    refine of_owns (hreset.move (a := .call rest.length) (b := .handle handle) rfl ?_ ?_ ?_)
      h.wellOwned.storage ?_
    · rw [holds_setHandle, holds_setObject, holds_setObject, holds_pop hcalls, hcall]
      rfl
    · rw [holds_setObject, Function.update_of_ne (by simp), hvacant]
    · intro _ ptr deleter _ hptr
      rw [holds_setObject, hcall] at hptr
      cases hptr
      exact ⟨⟨type, true⟩, by simp [setObject], rfl⟩
    · simpa [setObject, Thread.setHandle, pop, hcalls] using h.room_rest hcalls

/-- The caller of a deleter goes on. -/
theorem resume (hcaller : s.Vacant caller) (hresume : s.resume caller = some t) :
    t.Invariant capacity := by
  obtain ⟨hstorage, hcalls⟩ := resume_eq hresume
  refine of_owns (h.wellOwned.owns.resume hcaller hresume) ?_ ?_
  · rw [hstorage]
    exact h.wellOwned.storage
  · rw [hcalls]
    exact h.room

/-- A deleter starts, with an object that another owner gave up. -/
theorem callDeleter {u : Thread τ ι} {type : τ} (ha : s.holds a = some (ptr, some type))
    (hobjects : u.objects = s.objects) (hstorage : u.storage = s.storage)
    (hholds : u.holds = Function.update s.holds a none)
    (hroom : ∀ call ∈ u.calls, HasRoom capacity call)
    (hcall : u.callDeleter capacity ptr (some type) caller = some t) :
    t.Invariant capacity := by
  have howns := h.wellOwned.owns.callDeleter ha hobjects hholds hcall
  simp only [Thread.callDeleter] at hcall
  split at hcall
  next hlt =>
    -- the deleter has read a size below the capacity
    cases hcall
    refine of_owns howns (by simpa [push, hstorage] using h.wellOwned.storage) ?_
    intro other hother
    rcases List.mem_cons.mp hother with rfl | hmem
    · exact hlt
    · exact hroom other hmem
  · cases hcall
    refine of_owns howns (by simpa [push, setObject, hstorage] using h.wellOwned.storage) ?_
    intro other hother
    rcases List.mem_cons.mp hother with rfl | hmem
    · trivial
    · exact hroom other hmem

/-- A handle gives up its object. -/
theorem release {handle : ι} (hcaller : s.holds (.handle handle) = none → s.Vacant caller)
    (hstep : s.release capacity handle caller = some t) : t.Invariant capacity := by
  rw [Thread.release] at hstep
  split at hstep
  · cases hstep
  next hhandle =>
    -- a handle that owns nothing calls no deleter
    refine h.resume (hcaller ?_) hstep
    rw [holds_handle hhandle]
    rfl
  next ptr deleter hhandle =>
    -- an object that is owned has the deleter of its type
    have hheld : s.holds (.handle handle) = some (ptr, deleter) := holds_handle hhandle
    obtain ⟨object, _, rfl⟩ := h.wellOwned.owned.alive hheld
    refine h.callDeleter (u := s.setHandle handle _) hheld rfl rfl ?_ h.room hstep
    rw [holds_setHandle]
    rfl

theorem resetThrew {handle : ι} {object : ObjectPtr} {type : τ}
    (hcalls : s.calls = .resetting handle object type :: rest)
    (hstep : s.pop.callDeleter capacity object (some type) .makeReusable = some t) :
    t.Invariant capacity := by
  refine h.callDeleter (u := s.pop) (holds_call hcalls) rfl rfl (holds_pop hcalls) ?_ hstep
  simpa [pop, hcalls] using h.room_rest hcalls

/-- An object is stored. -/
theorem store {tPtr : ObjectPtr} {type : τ} {size : Nat}
    (hcalls : s.calls = .freeing tPtr type size caller :: rest)
    (hundisturbed : (s.storage type).freeList size = none →
      (s.storage type).size = size ∧ s.Vacant caller)
    (hstep : s.pop.store tPtr type size caller = some t) : t.Invariant capacity := by
  have hmem : .freeing tPtr type size caller ∈ s.calls := hcalls ▸ List.mem_cons_self
  have hroom : size < capacity type := h.room _ hmem
  have hrest := h.room_rest hcalls
  have hdense := h.wellOwned.storage type
  simp only [Thread.store] at hstep
  split at hstep
  next hslot =>
    obtain ⟨hsize, hcaller⟩ := hundisturbed hslot
    refine resume (of_owns (h.wellOwned.owns.stored hcalls hslot) ?_ ?_)
      ((vacant_congr rfl).mpr hcaller) hstep
    · intro other
      rw [storage_setSlot_setSize]
      exact dense_update h.wellOwned.storage (hdense.store hsize hroom) other
    · simpa [setSize, setSlot, setObject, pop, hcalls] using hrest
  next old hslot =>
    -- the list stays as large as it is until the destructor returns
    cases hstep
    have hfilled : (s.storage type).freeList size ≠ none := by
      have hslot : (s.storage type).freeList size = some old := hslot
      simp [hslot]
    refine of_owns (h.wellOwned.owns.replaced hcalls hslot) ?_ ?_
    · exact dense_update h.wellOwned.storage (hdense.replace hfilled)
    · intro other hother
      rcases List.mem_cons.mp hother with rfl | hmem
      · trivial
      · exact hrest other (by simpa [setSlot, setObject, pop, hcalls] using hmem)

/-- An object whose `freeResources` threw is destroyed. -/
theorem freeResourcesThrew {tPtr : ObjectPtr} {type : τ} {size : Nat}
    (hcalls : s.calls = .freeing tPtr type size caller :: rest) :
    ((s.pop.setObject tPtr none).push (.destroying caller)).Invariant capacity := by
  refine of_owns (h.wellOwned.owns.remove (holds_call hcalls) rfl ?_) h.wellOwned.storage ?_
  · rw [holds_push_of_none rfl, holds_setObject, holds_pop hcalls]
  · intro other hother
    rcases List.mem_cons.mp hother with rfl | hmem
    · trivial
    · exact h.room_rest hcalls other (by simpa [setObject, pop, hcalls] using hmem)

/-- A call that owns nothing goes on. -/
theorem pop (hcalls : s.calls = call :: rest) (hcall : call.holds = none) :
    s.pop.Invariant capacity := by
  refine of_owns (h.wellOwned.owns.congr rfl ?_) h.wellOwned.storage ?_
  · rw [holds_pop hcalls, ← hcall, ← holds_call hcalls, Function.update_eq_self]
  · simpa [Thread.pop, hcalls] using h.room_rest hcalls

/-- The destructor of an object that was in the slot returned. -/
theorem replaced {type : τ} {size : Nat} (hcalls : s.calls = .replacing type size caller :: rest)
    (hsize : (s.storage type).size = size + 1) (hcaller : s.Vacant caller)
    (hstep : (s.pop.setSize type (size + 1)).resume caller = some t) : t.Invariant capacity := by
  have hpop := h.pop hcalls rfl
  refine resume (of_owns (hpop.wellOwned.owns.setSize type (size + 1)) ?_ hpop.room)
    ((vacant_congr rfl).mpr hcaller) hstep
  -- the size is what it was
  refine dense_update hpop.wellOwned.storage ?_
  rw [← hsize]
  exact h.wellOwned.storage type

/-- Steps that are not disturbed keep the invariant. -/
theorem step {event : ReusableEvent τ ι} (hundisturbed : s.Undisturbed event)
    (hstep : s.step capacity event = some t) : t.Invariant capacity := by
  cases event with
  | construct handle =>
    simp only [Thread.step] at hstep
    split at hstep
    · cases hstep
    next hnone =>
      cases hstep
      have hvacant : s.holds (.handle handle) = none := by simp [holds, hnone]
      exact of_owns (h.wellOwned.owns.setHandle hvacant rfl) h.wellOwned.storage h.room
  | makeReusable handle type address => exact h.makeReusable hstep
  | resetReturned =>
    simp only [Thread.step] at hstep
    split at hstep
    next hcalls => exact h.returnHandle hcalls hstep
    · cases hstep
  | resetThrew =>
    simp only [Thread.step] at hstep
    split at hstep
    next hcalls => exact h.resetThrew hcalls hstep
    · cases hstep
  | moveConstruct handle other => exact h.moveTo hstep
  | moveAssign handle other =>
    simp only [Thread.step] at hstep
    split at hstep
    · split at hstep
      · cases hstep
        exact h
      · cases hstep
    · split at hstep
      · exact h.release id hstep
      · cases hstep
  | cast handle other succeeds =>
    simp only [Thread.step] at hstep
    split at hstep
    · exact h.moveTo hstep
    · split at hstep
      · cases hstep
        exact h
      · cases hstep
  | destroy handle => exact h.release id hstep
  | freeResourcesReturned =>
    simp only [Thread.step] at hstep
    split at hstep
    next hcalls =>
      simp only [Undisturbed, hcalls] at hundisturbed
      exact h.store hcalls hundisturbed hstep
    · cases hstep
  | freeResourcesThrew =>
    simp only [Thread.step] at hstep
    split at hstep
    next hcalls =>
      cases hstep
      exact h.freeResourcesThrew hcalls
    · cases hstep
  | destructorReturned =>
    simp only [Thread.step] at hstep
    split at hstep
    next hcalls =>
      simp only [Undisturbed, hcalls] at hundisturbed
      exact h.replaced hcalls hundisturbed.1 hundisturbed.2 hstep
    next hcalls =>
      simp only [Undisturbed, hcalls] at hundisturbed
      exact (h.pop hcalls rfl).resume ((vacant_congr rfl).mpr hundisturbed) hstep
    · cases hstep

/-! ## Disturbed steps -/

/-- An object is stored in an empty slot that is not the next one, or a handle loses its object. -/
theorem not_wellOwned_store {tPtr : ObjectPtr} {type : τ} {size : Nat}
    (hcalls : s.calls = .freeing tPtr type size caller :: rest)
    (hslot : (s.storage type).freeList size = none)
    (hdisturbed : ¬ ((s.storage type).size = size ∧ s.Vacant caller))
    (hstep : s.pop.store tPtr type size caller = some t) : ¬ t.WellOwned capacity := by
  intro hwell
  have howns := h.wellOwned.owns.stored hcalls hslot
  simp only [Thread.store] at hstep
  split at hstep
  next =>
    by_cases hcaller : s.Vacant caller
    · -- the list would have a gap
      refine hdisturbed ⟨?_, hcaller⟩
      have hstored := hwell.storage type
      rw [(resume_eq hstep).1, storage_setSlot_setSize, Function.update_self] at hstored
      exact (h.wellOwned.storage type).size_eq_of_store hslot hstored
    · have hcaller := fun hvacant => hcaller ((vacant_congr rfl).mp hvacant)
      exact howns.not_owns_resume hcaller hstep hwell.owned
  next old hold =>
    have hold : (s.storage type).freeList size = some old := hold
    rw [hslot] at hold
    cases hold

/-- The size is set to one that the list does not have, or a handle loses its object. -/
theorem not_wellOwned_replaced {type : τ} {size : Nat}
    (hcalls : s.calls = .replacing type size caller :: rest)
    (hdisturbed : ¬ ((s.storage type).size = size + 1 ∧ s.Vacant caller))
    (hstep : (s.pop.setSize type (size + 1)).resume caller = some t) :
    ¬ t.WellOwned capacity := by
  intro hwell
  have hpop := h.pop hcalls rfl
  by_cases hcaller : s.Vacant caller
  · -- the slots are as before, so only one size fits them
    refine hdisturbed ⟨?_, hcaller⟩
    have hset := hwell.storage type
    rw [(resume_eq hstep).1, storage_setSize, Function.update_self] at hset
    exact ReusableStorage.Dense.size_unique (h.wellOwned.storage type) hset
  · have hcaller := fun hvacant => hcaller ((vacant_congr rfl).mp hvacant)
    exact (hpop.wellOwned.owns.setSize type (size + 1)).not_owns_resume hcaller hstep hwell.owned

/-- Steps that are disturbed leave the property. -/
theorem not_wellOwned_step {event : ReusableEvent τ ι} (hdisturbed : ¬ s.Undisturbed event)
    (hstep : s.step capacity event = some t) : ¬ t.WellOwned capacity := by
  cases event with
  | freeResourcesReturned =>
    simp only [Thread.step] at hstep
    split at hstep
    next hcalls =>
      simp only [Undisturbed, hcalls, Classical.not_imp] at hdisturbed
      exact h.not_wellOwned_store hcalls hdisturbed.1 hdisturbed.2 hstep
    · cases hstep
  | destructorReturned =>
    simp only [Thread.step] at hstep
    split at hstep
    next hcalls =>
      simp only [Undisturbed, hcalls] at hdisturbed
      exact h.not_wellOwned_replaced hcalls hdisturbed hstep
    next hcalls =>
      simp only [Undisturbed, hcalls] at hdisturbed
      have hcaller := fun hvacant => hdisturbed ((vacant_congr rfl).mp hvacant)
      exact fun hwell =>
        (h.pop hcalls rfl).wellOwned.owns.not_owns_resume hcaller hstep hwell.owned
    · cases hstep
  | _ => exact absurd trivial hdisturbed

end Invariant

/-! ## All runs -/

omit [DecidableEq τ] [DecidableEq ι] in
theorem invariant_init : (init : Thread τ ι).Invariant capacity where
  wellOwned := by
    refine ⟨⟨?_, ?_, ?_⟩, ?_, ?_⟩
    · intro a b x ha _
      cases a <;> simp [holds, init] at ha
    · intro a x ha
      cases a <;> simp [holds, init] at ha
    · rintro x ⟨object, hobject, _⟩
      cases hobject
    · intro type
      refine ⟨?_, fun _ _ => rfl, Nat.zero_le _⟩
      intro index hindex
      exact absurd hindex (Nat.not_lt_zero index)
    · intro handle ptr deleter hhandle
      simp [holds, init] at hhandle
  room call hcall := by cases hcall

/-- Along a run, everything is well owned exactly when no step is disturbed. -/
theorem wellOwned_iff_undisturbed (capacity : τ → Nat) (events : List (ReusableEvent τ ι)) :
    (system capacity).Everywhere init events (WellOwned capacity) ↔
      (system capacity).EachStep init events Undisturbed :=
  Math.TransitionSystem.everywhere_iff_eachStep invariant_init (fun _ h => h.wellOwned)
    (fun _ _ _ h hundisturbed hstep => h.step hundisturbed hstep)
    fun _ _ _ h hdisturbed hstep => h.not_wellOwned_step hdisturbed hstep

/-- A node gives back two others. The first one is in the slot when the node is stored, the
second one stays behind it. -/
theorem not_wellOwned_two_children : ¬ (system fun _ : Unit => 1024).Everywhere
    (init : Thread Unit Nat)
    [.makeReusable 0 () 100, .resetReturned, .makeReusable 1 () 200, .resetReturned,
      .makeReusable 2 () 300, .resetReturned, .destroy 0, .destroy 1, .freeResourcesReturned,
      .destroy 2, .freeResourcesReturned, .freeResourcesReturned, .destructorReturned]
    (WellOwned fun _ => 1024) := by
  intro hall
  have hwell := hall _ (List.prefix_refl _) _ rfl
  have hslot := (hwell.storage ()).empty 1 (by decide)
  cases hslot

end Thread

end CqlDriver
