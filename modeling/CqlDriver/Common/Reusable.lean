import CqlDriver.Math.Ownership
import CqlDriver.Math.Runs

/-!
# Reusable objects

A handle owns an object, and a function that gives the object back. The function is fixed when the
object is taken, so casts and moves carry it along with the pointer. It reads the size of the free
list, calls `freeResources` of the object, and stores the object in the slot behind those that it
had counted; an object that is in the slot by then is destroyed.

`freeResources`, `reset` and the destructors are code of the types. They may use handles
themselves: while such a function runs, the calls around it wait on a stack, and any call can be
next. Where handles are is left open: handles in an object are destroyed by calls that are made
while its destructor runs.

## Main definitions

* `ReusableHandle`, `ReusableStorage` — handles and free lists
* `Thread` — the objects, handles, free lists and waiting calls of a thread
* `Thread.step` — what calls, and returns to waiting calls, do
* `Owner`, `Thread.holds` — what handles, slots and waiting calls own

## Main results

* `Thread.holds_setHandle`, `Thread.holds_setSlot`, `Thread.holds_push`, `Thread.holds_pop` — what
  is owned after a part of the state was written
-/

namespace CqlDriver

/-- A pointer to an object; there is a null pointer only as `none`. -/
abbrev ObjectPtr := Nat

variable {τ ι : Type}

/-- A handle. Its deleter is the one of a type, or the one that does nothing. -/
structure ReusableHandle (τ : Type) where
  ptr_ : Option ObjectPtr
  deleter_ : Option τ

/-- The storage used to store reusable objects for a type. -/
structure ReusableStorage where
  freeList : Nat → Option ObjectPtr
  size : Nat

/-- An object of a type. -/
structure ReusableObject (τ : Type) where
  type : τ
  /-- Its `reset` returned after it was taken. -/
  isReset : Bool

/-- Who called a deleter. -/
inductive DeleterCaller (ι : Type)
  /-- `operator=` of a handle. -/
  | moveAssignment (handle other : ι)
  /-- The destructor of a handle. -/
  | destructor (handle : ι)
  /-- `makeReusable`, for its local handle: `reset` threw. -/
  | makeReusable

/-- A call that waits for a function of a type. -/
inductive ReusableCall (τ ι : Type)
  /-- A deleter, for `tPtr->freeResources()`; it has read the size. -/
  | freeing (tPtr : ObjectPtr) (type : τ) (size : Nat) (caller : DeleterCaller ι)
  /-- A deleter, for the destructor of the object that was in the slot. -/
  | replacing (type : τ) (size : Nat) (caller : DeleterCaller ι)
  /-- A deleter, for the destructor of its object. -/
  | destroying (caller : DeleterCaller ι)
  /-- `makeReusable`, for `object->reset(...)`. -/
  | resetting (handle : ι) (object : ObjectPtr) (type : τ)

/-- The objects, handles and free lists of a thread, and the waiting calls, the innermost first. -/
structure Thread (τ ι : Type) where
  objects : ObjectPtr → Option (ReusableObject τ)
  handles : ι → Option (ReusableHandle τ)
  storage : τ → ReusableStorage
  calls : List (ReusableCall τ ι)

/-! ## Ownership -/

/-- What can own objects. -/
inductive Owner (τ ι : Type)
  | handle (handle : ι)
  | slot (type : τ) (index : Nat)
  /-- A waiting call, for its local handle or pointer; calls are counted from the outermost. -/
  | call (depth : Nat)
  deriving DecidableEq

/-- The object, and the type whose deleter it is given to. -/
def ReusableHandle.holds (handle : ReusableHandle τ) : Option (ObjectPtr × Option τ) :=
  handle.ptr_.map fun ptr => (ptr, handle.deleter_)

def ReusableCall.holds : ReusableCall τ ι → Option (ObjectPtr × Option τ)
  | freeing tPtr type _ _ => some (tPtr, some type)
  | replacing .. => none
  | destroying .. => none
  | resetting _ object type => some (object, some type)

namespace Thread

/-- What an owner owns. -/
def holds (s : Thread τ ι) : Owner τ ι → Option (ObjectPtr × Option τ)
  | .handle handle => (s.handles handle).bind ReusableHandle.holds
  | .slot type index => ((s.storage type).freeList index).map fun ptr => (ptr, some type)
  | .call depth => s.calls.reverse[depth]?.bind ReusableCall.holds

/-- The pointer is to a live object, and the type is its dynamic type. -/
def Live (s : Thread τ ι) (x : ObjectPtr × Option τ) : Prop :=
  ∃ object, s.objects x.1 = some object ∧ x.2 = some object.type

/-! ## Writing -/

variable [DecidableEq τ] [DecidableEq ι]

def setObject (s : Thread τ ι) (ptr : ObjectPtr) (object : Option (ReusableObject τ)) :
    Thread τ ι :=
  { s with objects := Function.update s.objects ptr object }

def setHandle (s : Thread τ ι) (handle : ι) (value : Option (ReusableHandle τ)) : Thread τ ι :=
  { s with handles := Function.update s.handles handle value }

def setSlot (s : Thread τ ι) (type : τ) (index : Nat) (ptr : Option ObjectPtr) : Thread τ ι :=
  let freeList := Function.update (s.storage type).freeList index ptr
  { s with storage := Function.update s.storage type ⟨freeList, (s.storage type).size⟩ }

def setSize (s : Thread τ ι) (type : τ) (size : Nat) : Thread τ ι :=
  { s with storage := Function.update s.storage type ⟨(s.storage type).freeList, size⟩ }

def push (s : Thread τ ι) (call : ReusableCall τ ι) : Thread τ ι :=
  { s with calls := call :: s.calls }

/-- The innermost call goes on. -/
def pop (s : Thread τ ι) : Thread τ ι :=
  { s with calls := s.calls.tail }

/-! ## The functions of the header -/

/-- What the caller of a deleter does next. -/
def resume (s : Thread τ ι) : DeleterCaller ι → Option (Thread τ ι)
  | .moveAssignment handle other =>
    match s.handles handle, s.handles other with
    | some _, some value =>
      some ((s.setHandle handle (some value)).setHandle other (some { value with ptr_ := none }))
    | _, _ => none
  | .destructor handle => some (s.setHandle handle none)
  | .makeReusable => some s

/-- `deleter_(ptr)`, up to the function of the type. -/
def callDeleter (capacity : τ → Nat) (s : Thread τ ι) (ptr : ObjectPtr) (deleter : Option τ)
    (caller : DeleterCaller ι) : Option (Thread τ ι) :=
  match deleter with
  | none => s.resume caller
  | some type =>
    let size := (s.storage type).size
    if size < capacity type then some (s.push (.freeing ptr type size caller))
    else some ((s.setObject ptr none).push (.destroying caller))

/-- What the destructor and the move assignment start with: the handle gives up its object. -/
def release (capacity : τ → Nat) (s : Thread τ ι) (handle : ι) (caller : DeleterCaller ι) :
    Option (Thread τ ι) :=
  match s.handles handle with
  | none => none
  | some ⟨none, _⟩ => s.resume caller
  | some ⟨some ptr, deleter_⟩ =>
    (s.setHandle handle (some ⟨none, deleter_⟩)).callDeleter capacity ptr deleter_ caller

/-- A new handle takes what another one has. -/
def moveTo (s : Thread τ ι) (handle other : ι) : Option (Thread τ ι) :=
  match s.handles handle, s.handles other with
  | none, some value =>
    some ((s.setHandle handle (some value)).setHandle other (some { value with ptr_ := none }))
  | _, _ => none

/-- `makeReusable`, up to `reset`. A new object gets a pointer that no live object has. -/
def makeReusable (s : Thread τ ι) (handle : ι) (type : τ) (address : ObjectPtr) :
    Option (Thread τ ι) :=
  match (s.storage type).size with
  | 0 =>
    if (s.objects address).isSome then none
    else some ((s.setObject address (some ⟨type, false⟩)).push (.resetting handle address type))
  | size + 1 =>
    match (s.storage type).freeList size with
    | none => none -- `reset` of a null pointer
    | some ptr =>
      some (((s.setSlot type size none).setSize type size).push (.resetting handle ptr type))

/-- `makeReusable` returns its handle. -/
def returnHandle (s : Thread τ ι) (handle : ι) (object : ObjectPtr) (type : τ) :
    Option (Thread τ ι) :=
  match s.handles handle with
  | some _ => none
  | none =>
    some ((s.setObject object (some ⟨type, true⟩)).setHandle handle
      (some ⟨some object, some type⟩))

/-- `storage.freeList[size] = std::move(tPtr)` and, unless an object has to be destroyed first,
`storage.size = size + 1`. -/
def store (s : Thread τ ι) (tPtr : ObjectPtr) (type : τ) (size : Nat) (caller : DeleterCaller ι) :
    Option (Thread τ ι) :=
  let stored := (s.setObject tPtr (some ⟨type, false⟩)).setSlot type size (some tPtr)
  match (s.storage type).freeList size with
  | none => (stored.setSize type (size + 1)).resume caller
  | some old => some ((stored.setObject old none).push (.replacing type size caller))

end Thread

/-- The calls that code can make, and the ends of the functions that calls wait for. A handle gets
a name that no other handle has. -/
inductive ReusableEvent (τ ι : Type)
  /-- `Reusable()`. -/
  | construct (handle : ι)
  | makeReusable (handle : ι) (type : τ) (address : ObjectPtr)
  | resetReturned
  | resetThrew
  | moveConstruct (handle other : ι)
  | moveAssign (handle other : ι)
  /-- The pointer would change if the cast does not succeed. -/
  | cast (handle other : ι) (succeeds : Bool)
  | destroy (handle : ι)
  | freeResourcesReturned
  | freeResourcesThrew
  | destructorReturned

namespace Thread

variable [DecidableEq τ] [DecidableEq ι]

/-- One call or return. -/
def step (capacity : τ → Nat) (s : Thread τ ι) : ReusableEvent τ ι → Option (Thread τ ι)
  | .construct handle =>
    match s.handles handle with
    | some _ => none
    | none => some (s.setHandle handle (some ⟨none, none⟩))
  | .makeReusable handle type address => s.makeReusable handle type address
  | .resetReturned =>
    match s.calls with
    | .resetting handle object type :: _ => s.pop.returnHandle handle object type
    | _ => none
  | .resetThrew =>
    match s.calls with
    | .resetting _ object type :: _ => s.pop.callDeleter capacity object (some type) .makeReusable
    | _ => none
  | .moveConstruct handle other => s.moveTo handle other
  | .moveAssign handle other =>
    if handle = other then
      match s.handles handle with
      | some _ => some s
      | none => none
    else
      match s.handles other with
      | some _ => s.release capacity handle (.moveAssignment handle other)
      | none => none
  | .cast handle other succeeds =>
    if succeeds then s.moveTo handle other
    else
      -- throws before the pointer is touched
      match s.handles other with
      | some _ => some s
      | none => none
  | .destroy handle => s.release capacity handle (.destructor handle)
  | .freeResourcesReturned =>
    match s.calls with
    | .freeing tPtr type size caller :: _ => s.pop.store tPtr type size caller
    | _ => none
  | .freeResourcesThrew =>
    match s.calls with
    | .freeing tPtr _ _ caller :: _ => some ((s.pop.setObject tPtr none).push (.destroying caller))
    | _ => none
  | .destructorReturned =>
    match s.calls with
    | .replacing type size caller :: _ => (s.pop.setSize type (size + 1)).resume caller
    | .destroying caller :: _ => s.pop.resume caller
    | _ => none

/-- The storage of a thread is zero at first, and nothing is there. -/
def init : Thread τ ι where
  objects _ := none
  handles _ := none
  storage _ := ⟨fun _ => none, 0⟩
  calls := []

/-- The runs of a thread. -/
def system (capacity : τ → Nat) : Math.TransitionSystem (Thread τ ι) (ReusableEvent τ ι) where
  start s := s = init
  step := step capacity

/-! ## What is owned after writing -/

variable (s : Thread τ ι)

omit [DecidableEq τ] [DecidableEq ι] in
@[simp] theorem holds_setObject (ptr : ObjectPtr) (object : Option (ReusableObject τ)) :
    (s.setObject ptr object).holds = s.holds := rfl

omit [DecidableEq ι] in
@[simp] theorem holds_setSize (type : τ) (size : Nat) : (s.setSize type size).holds = s.holds := by
  funext owner
  cases owner with
  | handle _ => rfl
  | call _ => rfl
  | slot other index =>
    by_cases hother : other = type
    · subst hother
      simp [holds, setSize]
    · simp [holds, setSize, hother]

@[simp] theorem holds_setHandle (handle : ι) (value : Option (ReusableHandle τ)) :
    (s.setHandle handle value).holds =
      Function.update s.holds (.handle handle) (value.bind ReusableHandle.holds) := by
  funext owner
  cases owner with
  | handle other =>
    by_cases hother : other = handle
    · subst hother
      simp [holds, setHandle]
    · simp [holds, setHandle, hother]
  | slot _ _ => simp [holds, setHandle]
  | call _ => simp [holds, setHandle]

@[simp] theorem holds_setSlot (type : τ) (index : Nat) (ptr : Option ObjectPtr) :
    (s.setSlot type index ptr).holds =
      Function.update s.holds (.slot type index) (ptr.map fun ptr => (ptr, some type)) := by
  funext owner
  cases owner with
  | handle _ => simp [holds, setSlot]
  | call _ => simp [holds, setSlot]
  | slot other i =>
    by_cases hother : other = type
    · subst hother
      by_cases hi : i = index
      · subst hi
        simp [holds, setSlot]
      · simp [holds, setSlot, hi]
    · simp [holds, setSlot, hother]

omit [DecidableEq τ] [DecidableEq ι] in
theorem holds_call_length : s.holds (.call s.calls.length) = none := by
  simp [holds]

@[simp] theorem holds_push (call : ReusableCall τ ι) :
    (s.push call).holds = Function.update s.holds (.call s.calls.length) call.holds := by
  funext owner
  cases owner with
  | handle _ => simp [holds, push]
  | slot _ _ => simp [holds, push]
  | call depth =>
    have hlength : s.calls.reverse.length = s.calls.length := List.length_reverse
    rw [holds, push, List.reverse_cons]
    rcases Nat.lt_trichotomy depth s.calls.length with hlt | rfl | hgt
    · have hne : depth ≠ s.calls.length := Nat.ne_of_lt hlt
      rw [List.getElem?_append_left (by omega), Function.update_of_ne (by simpa using hne)]
      rfl
    · rw [← hlength, List.getElem?_concat_length, hlength, Function.update_self]
      rfl
    · have hne : depth ≠ s.calls.length := Nat.ne_of_gt hgt
      have hout : (s.calls.reverse ++ [call])[depth]? = none := by
        rw [List.getElem?_eq_none_iff, List.length_append, List.length_singleton]
        omega
      have hbelow : s.calls.reverse[depth]? = none := by
        rw [List.getElem?_eq_none_iff]
        omega
      rw [hout, Function.update_of_ne (by simpa using hne), holds, hbelow]

variable {s} {call : ReusableCall τ ι} {rest : List (ReusableCall τ ι)}

theorem holds_push_of_none (hcall : call.holds = none) : (s.push call).holds = s.holds := by
  rw [holds_push, hcall, ← s.holds_call_length, Function.update_eq_self]

omit [DecidableEq τ] [DecidableEq ι] in
theorem push_pop (hcalls : s.calls = call :: rest) : s.pop.push call = s := by
  obtain ⟨objects, handles, storage, calls⟩ := s
  obtain rfl : calls = call :: rest := hcalls
  rfl

/-- A waiting call that goes on owns nothing any more. -/
theorem holds_pop (hcalls : s.calls = call :: rest) :
    s.pop.holds = Function.update s.holds (.call rest.length) none := by
  have hlength : s.pop.calls.length = rest.length := by simp [pop, hcalls]
  have hnone := s.pop.holds_call_length
  have hpush := s.pop.holds_push call
  rw [push_pop hcalls] at hpush
  rw [hlength] at hpush hnone
  rw [hpush, Function.update_idem, ← hnone, Function.update_eq_self]

omit [DecidableEq τ] [DecidableEq ι] in
theorem holds_call (hcalls : s.calls = call :: rest) :
    s.holds (.call rest.length) = call.holds := by
  simp [holds, hcalls]

end Thread

end CqlDriver
