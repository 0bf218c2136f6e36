import CqlDriver.Common.Exception
import CqlDriver.Math.Lists
import CqlDriver.Math.Ownership
import CqlDriver.Math.Runs

/-!
# Sockets and their holders

To close a socket takes time, and a destructor cannot wait for it, but a socket that is deleted and
not closed is used after it was freed. So a `SocketHolder` gives its state away when it is closed,
overwritten or destroyed: in the background the input is closed, then the output, and the state is
freed when that is over. If the input cannot be closed, the output is not closed at all.

## Main definitions

* `SocketState` — the state behind the pointer of a holder, with the calls that close it
* `SocketHeap` — all holders and all states
* `SocketHeap.system` — the operations on holders, and the ends of pending calls, in any order

## Main results

* `SocketHeap.closed_once` — a socket is held once, or closed once
-/

namespace CqlDriver

open Math (Owned)

/-- What becomes of the state of a holder. -/
inductive SocketPhase
  | held
  /-- `in.close()` is pending. -/
  | closingIn
  /-- `out.close()` is pending. -/
  | closingOut
  | freed
  deriving DecidableEq, Repr

/-- The state of a holder, with the numbers of calls of `in.close()` and `out.close()`. -/
structure SocketState where
  phase : SocketPhase
  inCloses : Nat
  outCloses : Nat
  deriving DecidableEq, Repr

namespace SocketState

/-- A socket that was connected. -/
def create : SocketState := ⟨.held, 0, 0⟩

/-- The state is moved into a call that closes the input. -/
def close (state : SocketState) : SocketState :=
  { state with phase := .closingIn, inCloses := state.inCloses + 1 }

/-- The pending call ends. -/
def resolve (state : SocketState) (succeeds : Bool) : Option SocketState :=
  match state.phase, succeeds with
  | .closingIn, true => some { state with phase := .closingOut, outCloses := state.outCloses + 1 }
  | .closingIn, false | .closingOut, _ => some { state with phase := .freed }
  | .held, _ | .freed, _ => none

/-- The calls so far. -/
def Sound (state : SocketState) : Prop :=
  match state.phase with
  | .held => state.inCloses = 0 ∧ state.outCloses = 0
  | .closingIn => state.inCloses = 1 ∧ state.outCloses = 0
  | .closingOut => state.inCloses = 1 ∧ state.outCloses = 1
  | .freed => state.inCloses = 1 ∧ state.outCloses ≤ 1

end SocketState

namespace SocketState

variable {state resolved : SocketState} {succeeds : Bool}

/-- Only calls that close a state end. -/
theorem not_held_of_resolve (h : state.resolve succeeds = some resolved) :
    state.phase ≠ .held ∧ resolved.phase ≠ .held := by
  obtain ⟨phase, inCloses, outCloses⟩ := state
  cases phase with
  | held | freed => cases h
  | closingIn =>
    cases succeeds with
    | false | true =>
      cases h
      exact ⟨by rintro ⟨⟩, by rintro ⟨⟩⟩
  | closingOut =>
    cases h
    exact ⟨by rintro ⟨⟩, by rintro ⟨⟩⟩

theorem Sound.resolve (hsound : state.Sound) (h : state.resolve succeeds = some resolved) :
    resolved.Sound := by
  obtain ⟨phase, inCloses, outCloses⟩ := state
  cases phase with
  | held | freed => cases h
  | closingIn =>
    obtain ⟨hin, hout⟩ := hsound
    cases succeeds with
    | false =>
      cases h
      exact ⟨hin, hout.le.trans (Nat.zero_le 1)⟩
    | true =>
      cases h
      exact ⟨hin, congrArg Nat.succ hout⟩
  | closingOut =>
    cases h
    exact ⟨hsound.1, hsound.2.le⟩

end SocketState

/-- Holders, each with its pointer, and the states. -/
structure SocketHeap (ι : Type) where
  holders : ι → Option (Option Nat)
  states : List SocketState

namespace SocketHeap

variable {ι : Type} {s t : SocketHeap ι} {i j : ι} {ptr : Nat} {state : SocketState}

/-- The pointer of a holder, if there are both. -/
def pointer (s : SocketHeap ι) (i : ι) : Option Nat := (s.holders i).join

/-- Return whether the socket is connected. -/
def isConnected (s : SocketHeap ι) (i : ι) : Bool := (s.pointer i).isSome

/-- The socket, its input or its output. -/
def socket (s : SocketHeap ι) (i : ι) : Except Exception Nat :=
  match s.pointer i with
  | some ptr => .ok ptr
  | none => .error (logicException "socket is not connected")

/-- What is behind a pointer is closed in the background. -/
def closeState (states : List SocketState) : Option Nat → List SocketState
  | none => states
  | some ptr => states.modify ptr SocketState.close

/-! ## The operations -/

variable [DecidableEq ι]

/-- Close this socket. -/
def close (s : SocketHeap ι) (i : ι) (pointer : Option Nat) : SocketHeap ι :=
  ⟨Function.update s.holders i (some none), closeState s.states pointer⟩

/-- The destructor. -/
def destroy (s : SocketHeap ι) (i : ι) (pointer : Option Nat) : SocketHeap ι :=
  ⟨Function.update s.holders i none, closeState s.states pointer⟩

/-- The constructor from a connected socket. -/
def connect (s : SocketHeap ι) (i : ι) : SocketHeap ι :=
  ⟨Function.update s.holders i (some (some s.states.length)), s.states ++ [.create]⟩

/-- The move constructor of holder `j`. -/
def moveConstruct (s : SocketHeap ι) (i j : ι) (pointer : Option Nat) : SocketHeap ι :=
  { s with holders := Function.update (Function.update s.holders i (some none)) j (some pointer) }

/-- The move assignment of holder `j` to holder `i`. -/
def moveAssign (s : SocketHeap ι) (i j : ι) (target source : Option Nat) : SocketHeap ι :=
  if i = j then
    s
  else
    ⟨Function.update (Function.update s.holders j (some none)) i (some source),
      closeState s.states target⟩

/-- What can happen next. -/
inductive Event (ι : Type)
  /-- The constructor without arguments. -/
  | create (i : ι)
  | connect (i : ι)
  | close (i : ι)
  | moveConstruct (i j : ι)
  | moveAssign (i j : ι)
  | destroy (i : ι)
  /-- A pending `close()` of an input or output succeeds or fails. -/
  | resolve (ptr : Nat) (succeeds : Bool)
  deriving DecidableEq, Repr

/-- One operation, or the end of a call. -/
def step (s : SocketHeap ι) : Event ι → Option (SocketHeap ι)
  | .create i =>
    if s.holders i = none then some { s with holders := Function.update s.holders i (some none) }
    else none
  | .connect i => if s.holders i = none then some (s.connect i) else none
  | .close i => (s.holders i).map (s.close i)
  | .moveConstruct i j => if s.holders j = none then (s.holders i).map (s.moveConstruct i j) else none
  | .moveAssign i j =>
    match s.holders i, s.holders j with
    | some target, some source => some (s.moveAssign i j target source)
    | _, _ => none
  | .destroy i => (s.holders i).map (s.destroy i)
  | .resolve ptr succeeds => do
    let state ← s.states[ptr]?
    let resolved ← state.resolve succeeds
    pure { s with states := s.states.set ptr resolved }

/-- No holder at the start. -/
def system (ι : Type) [DecidableEq ι] : Math.TransitionSystem (SocketHeap ι) (Event ι) where
  start s := s = ⟨fun _ => none, []⟩
  step := step

/-! ## Who holds a socket -/

/-- The state is one that a holder has. -/
def Live (states : List SocketState) (ptr : Nat) : Prop :=
  ∃ state, states[ptr]? = some state ∧ state.phase = .held

/-- What is held is held once, and all calls are in order. -/
structure Intact (s : SocketHeap ι) : Prop where
  owned : Owned (Live s.states) s.pointer
  sound : ∀ state ∈ s.states, state.Sound

theorem pointer_update (holders : ι → Option (Option Nat)) (states : List SocketState) (i : ι)
    (holder : Option (Option Nat)) :
    (⟨Function.update holders i holder, states⟩ : SocketHeap ι).pointer =
      Function.update (⟨holders, states⟩ : SocketHeap ι).pointer i holder.join := by
  funext k
  by_cases hk : k = i
  · subst hk
    simp [pointer]
  · simp [pointer, hk]

/-- A state that is closed is held no more. -/
theorem live_modify {states : List SocketState} (other : Nat) :
    Live (states.modify ptr SocketState.close) other ↔ other ≠ ptr ∧ Live states other := by
  rw [Live, Live, List.getElem?_modify]
  by_cases hother : ptr = other
  · subst hother
    cases states[ptr]? with
    | none => simp
    | some state => simp [SocketState.close]
  · simp [hother, Ne.symm hother]

/-- What a holder had is closed. -/
theorem owned_closeState {states : List SocketState} {holds : ι → Option Nat}
    (h : Owned (Live states) holds) (i : ι) :
    Owned (Live (closeState states (holds i))) (Function.update holds i none) := by
  cases hi : holds i with
  | none =>
    rw [← hi, Function.update_eq_self, hi]
    exact h
  | some ptr => exact h.remove hi live_modify

omit [DecidableEq ι] in
theorem sound_closeState {states : List SocketState} (h : ∀ state ∈ states, state.Sound)
    {holds : ι → Option Nat} (howned : Owned (Live states) holds) (i : ι) :
    ∀ state ∈ closeState states (holds i), state.Sound := by
  cases hi : holds i with
  | none => exact h
  | some ptr =>
    intro state hstate
    obtain ⟨k, hk⟩ := List.mem_iff_getElem?.mp hstate
    rw [closeState, List.getElem?_modify, Option.map_eq_map, Option.map_eq_some_iff] at hk
    obtain ⟨old, hold, rfl⟩ := hk
    have hsound := h old (List.mem_of_getElem? hold)
    by_cases hsame : ptr = k
    · subst hsame
      -- what is held has not been closed
      obtain ⟨same, hsame, hheld⟩ := howned.alive hi
      cases hold.symm.trans hsame
      simp only [SocketState.Sound, hheld] at hsound
      simp [SocketState.Sound, SocketState.close, hsound]
    · simpa [hsame] using hsound

namespace Intact

theorem close (h : s.Intact) (i : ι) : (s.close i (s.pointer i)).Intact where
  owned := by
    rw [SocketHeap.close, pointer_update]
    exact owned_closeState h.owned i
  sound := sound_closeState h.sound h.owned i

theorem destroy (h : s.Intact) (i : ι) : (s.destroy i (s.pointer i)).Intact where
  owned := by
    rw [SocketHeap.destroy, pointer_update]
    exact owned_closeState h.owned i
  sound := sound_closeState h.sound h.owned i

theorem create (h : s.Intact) (hi : s.holders i = none) :
    Intact { s with holders := Function.update s.holders i (some none) } where
  owned := by
    have hnone : s.pointer i = none := by rw [pointer, hi, Option.join_none]
    rw [pointer_update]
    have hsame : Function.update s.pointer i none = s.pointer := by
      rw [← hnone, Function.update_eq_self]
    exact hsame.symm ▸ h.owned
  sound := h.sound

theorem connect (h : s.Intact) (hi : s.holders i = none) : (s.connect i).Intact where
  owned := by
    rw [SocketHeap.connect, pointer_update]
    refine h.owned.insert (by rw [pointer, hi, Option.join_none]) ?_ ?_
    · rintro ⟨state, hstate, -⟩
      simp at hstate
    · intro other
      constructor
      · rintro ⟨state, hstate, hheld⟩
        rcases Math.getElem?_concat_some hstate with hold | ⟨hnew, -⟩
        · exact .inr ⟨state, hold, hheld⟩
        · exact .inl hnew
      · rintro (rfl | ⟨state, hold, hheld⟩)
        · exact ⟨.create, List.getElem?_concat_length, rfl⟩
        · exact ⟨state, Math.getElem?_append_of_some _ hold, hheld⟩
  sound state hstate := by
    rcases List.mem_append.mp hstate with hold | hnew
    · exact h.sound state hold
    · rw [List.mem_singleton.mp hnew]
      exact ⟨rfl, rfl⟩

theorem moveConstruct (h : s.Intact) (hi : s.holders i ≠ none) (hj : s.holders j = none) :
    (s.moveConstruct i j (s.pointer i)).Intact where
  owned := by
    have hne : j ≠ i := by
      rintro rfl
      exact hi hj
    have hnone : s.pointer j = none := by rw [pointer, hj, Option.join_none]
    rw [SocketHeap.moveConstruct, pointer_update, pointer_update]
    exact h.owned.move ((Function.update_of_ne hne _ _).trans hnone)
  sound := h.sound

theorem moveAssign (h : s.Intact) (i j : ι) :
    (s.moveAssign i j (s.pointer i) (s.pointer j)).Intact := by
  rw [SocketHeap.moveAssign]
  split
  · exact h
  next hne =>
    constructor
    · -- the state of the target is closed, then the pointer of the source is moved
      have hclosed := owned_closeState h.owned i
      have hmoved := hclosed.move (a := j) (b := i)
        (by rw [Function.update_of_ne hne, Function.update_self])
      rw [Function.update_of_ne (Ne.symm hne), Function.update_comm hne, Function.update_idem] at hmoved
      rw [pointer_update, pointer_update]
      exact hmoved
    · exact sound_closeState h.sound h.owned i

omit [DecidableEq ι] in
theorem resolve {succeeds : Bool} {resolved : SocketState} (h : s.Intact)
    (hstate : s.states[ptr]? = some state) (hresolve : state.resolve succeeds = some resolved) :
    Intact { s with states := s.states.set ptr resolved } where
  owned := by
    have hlt : ptr < s.states.length := (List.getElem?_eq_some_iff.mp hstate).1
    apply h.owned.of_iff
    intro other
    rw [Live, Live, List.getElem?_set]
    by_cases hother : ptr = other
    · subst hother
      obtain ⟨hbefore, hafter⟩ := SocketState.not_held_of_resolve hresolve
      rw [if_pos rfl, if_pos hlt, hstate]
      simp [hbefore, hafter]
    · simp [hother]
  sound other hother := by
    rcases List.mem_or_eq_of_mem_set hother with hold | rfl
    · exact h.sound other hold
    · exact (h.sound state (List.mem_of_getElem? hstate)).resolve hresolve

/-- Every operation and every end of a call keeps the invariant. -/
theorem step {event : Event ι} (h : s.Intact) (hstep : s.step event = some t) : t.Intact := by
  have hpointer : ∀ {i : ι} {p : Option Nat}, s.holders i = some p → s.pointer i = p := by
    intro i p hi
    rw [pointer, hi, Option.join_some]
  cases event with
  | create i =>
    obtain ⟨hi, hcreated⟩ := Option.ite_none_right_eq_some.mp hstep
    cases hcreated
    exact h.create hi
  | connect i =>
    obtain ⟨hi, hconnected⟩ := Option.ite_none_right_eq_some.mp hstep
    cases hconnected
    exact h.connect hi
  | close i =>
    obtain ⟨p, hi, rfl⟩ := Option.map_eq_some_iff.mp hstep
    exact hpointer hi ▸ h.close i
  | moveConstruct i j =>
    obtain ⟨hj, hmoved⟩ := Option.ite_none_right_eq_some.mp hstep
    obtain ⟨p, hi, rfl⟩ := Option.map_eq_some_iff.mp hmoved
    have hsome : s.holders i ≠ none := by
      rw [hi]
      rintro ⟨⟩
    exact hpointer hi ▸ h.moveConstruct hsome hj
  | moveAssign i j =>
    simp only [SocketHeap.step] at hstep
    split at hstep
    next target source hi hj =>
      cases hstep
      exact hpointer hi ▸ hpointer hj ▸ h.moveAssign i j
    · cases hstep
  | destroy i =>
    obtain ⟨p, hi, rfl⟩ := Option.map_eq_some_iff.mp hstep
    exact hpointer hi ▸ h.destroy i
  | resolve ptr succeeds =>
    obtain ⟨state, hstate, hrest⟩ := Option.bind_eq_some_iff.mp hstep
    obtain ⟨resolved, hresolve, hresolved⟩ := Option.bind_eq_some_iff.mp hrest
    cases hresolved
    exact h.resolve hstate hresolve

end Intact

theorem intact_of_reachable (h : (system ι).Reachable s) : s.Intact := by
  apply Math.TransitionSystem.Reachable.invariant Intact _ _ h
  · rintro _ rfl
    refine ⟨⟨?_, ?_, ?_⟩, ?_⟩
    · rintro i j ptr ⟨⟩
    · rintro i ptr ⟨⟩
    · rintro ptr ⟨state, hstate, -⟩
      cases hstate
    · rintro state ⟨⟩
  · intro s event t hs hstep
    exact hs.step hstep

/-- A socket has exactly one holder and was not closed, or it has none: then its input was closed
once, its output at most once and after the input, and nothing is pending when the state is freed. -/
inductive ClosedOnce (s : SocketHeap ι) (ptr : Nat) (state : SocketState) : Prop
  | held (untouched : state = .create) (holder : ∃ i, ∀ j, s.pointer j = some ptr ↔ j = i)
  | closing (unheld : ∀ i, s.pointer i ≠ some ptr) (inCloses : state.inCloses = 1)
      (calls : state.phase = .closingIn ∧ state.outCloses = 0 ∨
        state.phase = .closingOut ∧ state.outCloses = 1 ∨ state.phase = .freed ∧ state.outCloses ≤ 1)

/-- In every run, every socket is held once or closed once. -/
theorem closed_once (h : (system ι).Reachable s) (hstate : s.states[ptr]? = some state) :
    s.ClosedOnce ptr state := by
  obtain ⟨howned, hsound⟩ := intact_of_reachable h
  have hcalls := hsound state (List.mem_of_getElem? hstate)
  have hheld : ∀ i, s.pointer i = some ptr → state.phase = .held := by
    intro i hi
    obtain ⟨same, hsame, hphase⟩ := howned.alive hi
    cases hstate.symm.trans hsame
    exact hphase
  obtain ⟨phase, inCloses, outCloses⟩ := state
  -- a state that no holder has is one whose calls are in order
  have hclosing : phase ≠ .held → ∀ i, s.pointer i ≠ some ptr := fun hphase i hi =>
    hphase (hheld i hi)
  cases phase with
  | held =>
    obtain ⟨rfl, rfl⟩ := hcalls
    obtain ⟨i, hi⟩ := howned.held ⟨_, hstate, rfl⟩
    refine .held rfl ⟨i, fun j => ⟨fun hj => howned.unique hj hi, ?_⟩⟩
    rintro rfl
    exact hi
  | closingIn => exact .closing (hclosing (by rintro ⟨⟩)) hcalls.1 (.inl ⟨rfl, hcalls.2⟩)
  | closingOut => exact .closing (hclosing (by rintro ⟨⟩)) hcalls.1 (.inr (.inl ⟨rfl, hcalls.2⟩))
  | freed => exact .closing (hclosing (by rintro ⟨⟩)) hcalls.1 (.inr (.inr ⟨rfl, hcalls.2⟩))

/-- A socket is assigned onto another one, and onto itself. -/
theorem closed_once_run : ∃ s : SocketHeap (Fin 2), s.ClosedOnce 0 ⟨.closingOut, 1, 1⟩ ∧
    s.pointer 0 = some 1 := by
  have hrun : ((system (Fin 2)).run ⟨fun _ => none, []⟩
      [.connect 0, .connect 1, .moveAssign 0 1, .moveAssign 0 0, .resolve 0 true]).map
        (fun s => (s.states[0]?, s.pointer 0)) = some (some ⟨.closingOut, 1, 1⟩, some 1) := by decide
  obtain ⟨s, hs, hview⟩ := Option.map_eq_some_iff.mp hrun
  obtain ⟨hstate, hpointer⟩ := Prod.mk.inj hview
  exact ⟨s, closed_once (Math.TransitionSystem.reachable_of_run rfl hs) hstate, hpointer⟩

end SocketHeap

end CqlDriver
