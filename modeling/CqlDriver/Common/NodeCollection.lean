import Mathlib.Data.List.Sort
import Mathlib.Data.List.Basic
import CqlDriver.Common.Exception
import CqlDriver.Math.Transition

/-!
# The default node collection

`NodeCollectionImpl` hands out the node for the next database connection. It
walks its nodes round robin, skips those marked as fault, and each time the walk
has passed the last node it retries one fault node, taken from the front of a
queue and put back at its end.

The flags and the queue describe one set twice. `WellFormed` says that they
agree; the three operations keep it, and under it `chooseOneNode` always returns
a node.

## Main definitions

* `NodeCollectionImpl` with `create`, `chooseOneNode`, `reportFailure`,
  `reportSuccess`
* `NodeCollectionImpl.WellFormed` — flags and queue agree, the index is in range
* `NodeCollectionImpl.system` — the collection driven by calls in any order
* `NodeCollectionImpl.callTraced`, `NodeCollectionImpl.pushes` — how long the queue is whenever a
  call pushes

## Main results

* `chooseOneNode_spec`, `reportFailure_spec`, `reportSuccess_spec` — which record
  a call is about and what it changes
* `wellFormed_of_reachable` — every sequence of calls keeps `WellFormed`
* `callTraced_value` — the pushes are those of the calls
* `sound_of_calls` — every sequence of calls about the nodes runs to its end
-/

namespace CqlDriver

/-- One managed node. The node is named by the address of its configuration
object, which is what the collection compares. -/
structure NodeRecord where
  node : Nat
  isFault : Bool
  deriving DecidableEq, Repr

/-- The state of a `NodeCollectionImpl`. `faultCapacity` is the bound the queue
of fault indexes was created with. -/
structure NodeCollectionImpl where
  allNodes : List NodeRecord
  nextIndex : Nat
  faultNodeIndexes : List Nat
  faultCapacity : Nat
  deriving DecidableEq, Repr

namespace NodeCollectionImpl

/-- The constructor, over the addresses the new configuration objects got. -/
def create (addresses : List Nat) : Except Exception NodeCollectionImpl :=
  if addresses.isEmpty then
    .error (logicException "initial nodes can't be empty")
  else
    .ok {
      allNodes := (addresses.insertionSort (· ≤ ·)).map fun node => ⟨node, false⟩
      nextIndex := 0
      faultNodeIndexes := []
      faultCapacity := addresses.length }

/-- `seastar::queue::push`: a full queue refuses the element. -/
def pushFault (c : NodeCollectionImpl) (index : Nat) : NodeCollectionImpl :=
  if c.faultNodeIndexes.length < c.faultCapacity then
    { c with faultNodeIndexes := c.faultNodeIndexes ++ [index] }
  else
    c

/-- `getNodesCount`. -/
def getNodesCount (c : NodeCollectionImpl) : Nat := c.allNodes.length

/-- Take the node at the index and move the index on, or go `on` if the node is
marked as fault. -/
def pickNode (c : NodeCollectionImpl)
    (on : NodeCollectionImpl → Except Exception (Nat × NodeCollectionImpl)) :
    Except Exception (Nat × NodeCollectionImpl) :=
  match c.allNodes[c.nextIndex]? with
  | some record =>
    let next := { c with nextIndex := c.nextIndex + 1 }
    if record.isFault then on next else .ok (record.node, next)
  | none => .error (logicException "choose one node failed")

/-- The loop of `chooseOneNode` with the given number of iterations left. The
code throws when it runs out of iterations. -/
def chooseOneNodeLoop : Nat → NodeCollectionImpl → Except Exception (Nat × NodeCollectionImpl)
  | 0, _ => .error (logicException "choose one node failed")
  | k + 1, c =>
    if c.allNodes.length ≤ c.nextIndex then
      -- every node has been enumerated: retry one fault node
      match c.faultNodeIndexes with
      | faultNodeIndex :: rest =>
        match c.allNodes[faultNodeIndex]? with
        | some record =>
          .ok (record.node, { c with nextIndex := 0, faultNodeIndexes := rest }.pushFault
            faultNodeIndex)
        | none => .error (logicException "vector::at")
      | [] => { c with nextIndex := 0 }.pickNode (chooseOneNodeLoop k)
    else
      c.pickNode (chooseOneNodeLoop k)

/-- Choose a node for the new database connection. -/
def chooseOneNode (c : NodeCollectionImpl) : Except Exception (Nat × NodeCollectionImpl) :=
  chooseOneNodeLoop (c.allNodes.length + 1) c

/-- The index of the record of a node, by `std::lower_bound` over the sorted
addresses. -/
def getNodeRecord (c : NodeCollectionImpl) (node : Nat) : Option Nat :=
  let it := c.allNodes.findIdx fun record => !decide (record.node < node)
  match c.allNodes[it]? with
  | some record => if record.node = node then some it else none
  | none => none

/-- Write the fault flag of one record. -/
def setFault (c : NodeCollectionImpl) (index : Nat) (isFault : Bool) : NodeCollectionImpl :=
  { c with allNodes := c.allNodes.modify index fun record => { record with isFault } }

/-- Report connect to this node has failed. -/
def reportFailure (c : NodeCollectionImpl) (node : Nat) : Except Exception NodeCollectionImpl :=
  match c.getNodeRecord node with
  | none => .error (logicException "node does not exist in this collection")
  | some index =>
    match c.allNodes[index]? with
    | some record =>
      if record.isFault then .ok c else .ok ((c.setFault index true).pushFault index)
    | none => .error (logicException "node does not exist in this collection")

/-- The loop of `reportSuccess`: rotate the whole queue once and leave one index
out. -/
def dropFaultIndex (index : Nat) : Nat → List Nat → List Nat
  | 0, queue => queue
  | _ + 1, [] => []
  | k + 1, faultNodeIndex :: rest =>
    dropFaultIndex index k
      (if faultNodeIndex ≠ index then rest ++ [faultNodeIndex] else rest)

/-- Report connect to this node has been successful. -/
def reportSuccess (c : NodeCollectionImpl) (node : Nat) : Except Exception NodeCollectionImpl :=
  match c.getNodeRecord node with
  | none => .error (logicException "node does not exist in this collection")
  | some index =>
    match c.allNodes[index]? with
    | some record =>
      if record.isFault then
        .ok { c.setFault index false with
          faultNodeIndexes :=
            dropFaultIndex index c.faultNodeIndexes.length c.faultNodeIndexes }
      else
        .ok c
    | none => .error (logicException "node does not exist in this collection")

/-! ## Records, flags and the queue -/

variable {c next : NodeCollectionImpl} {i j node : Nat}

/-- The node managed at an index. -/
def nodeAt (c : NodeCollectionImpl) (i : Nat) : Option Nat := (c.allNodes[i]?).map (·.node)

/-- The record at the index is marked as fault. -/
def FaultAt (c : NodeCollectionImpl) (i : Nat) : Prop :=
  ∃ record, c.allNodes[i]? = some record ∧ record.isFault = true

/-- The record at the index is not marked as fault. -/
def HealthyAt (c : NodeCollectionImpl) (i : Nat) : Prop :=
  ∃ record, c.allNodes[i]? = some record ∧ record.isFault = false

theorem FaultAt.lt (h : c.FaultAt i) : i < c.allNodes.length := by
  obtain ⟨record, hrecord, -⟩ := h
  exact (List.getElem?_eq_some_iff.mp hrecord).1

theorem HealthyAt.lt (h : c.HealthyAt i) : i < c.allNodes.length := by
  obtain ⟨record, hrecord, -⟩ := h
  exact (List.getElem?_eq_some_iff.mp hrecord).1

theorem HealthyAt.not_faultAt (h : c.HealthyAt i) : ¬ c.FaultAt i := by
  obtain ⟨record, hrecord, healthy⟩ := h
  rintro ⟨other, hother, fault⟩
  rw [hrecord, Option.some.injEq] at hother
  rw [hother, fault] at healthy
  cases healthy

/-- Every managed index is of one of the two kinds. -/
theorem healthyAt_or_faultAt (h : i < c.allNodes.length) : c.HealthyAt i ∨ c.FaultAt i := by
  have hrecord := List.getElem?_eq_getElem h
  cases hfault : (c.allNodes[i]).isFault with
  | false => exact .inl ⟨_, hrecord, hfault⟩
  | true => exact .inr ⟨_, hrecord, hfault⟩

theorem healthyAt_iff : c.HealthyAt i ↔ i < c.allNodes.length ∧ ¬ c.FaultAt i :=
  ⟨fun h => ⟨h.lt, h.not_faultAt⟩, fun h => (healthyAt_or_faultAt h.1).resolve_right h.2⟩

theorem exists_nodeAt (h : i < c.allNodes.length) : ∃ node, c.nodeAt i = some node :=
  ⟨_, by rw [nodeAt, List.getElem?_eq_getElem h, Option.map_some]⟩

theorem lt_of_nodeAt (h : c.nodeAt i = some node) : i < c.allNodes.length := by
  rw [nodeAt, Option.map_eq_some_iff] at h
  obtain ⟨record, hrecord, -⟩ := h
  exact (List.getElem?_eq_some_iff.mp hrecord).1

/-- The flags and the queue describe the same set, once each, and the walk index
is in range. -/
structure WellFormed (c : NodeCollectionImpl) : Prop where
  nonempty : 0 < c.allNodes.length
  sorted : c.allNodes.Pairwise fun a b => a.node < b.node
  nextIndex_le : c.nextIndex ≤ c.allNodes.length
  fault_nodup : c.faultNodeIndexes.Nodup
  mem_fault : ∀ i, i ∈ c.faultNodeIndexes ↔ c.FaultAt i
  capacity : c.faultCapacity = c.allNodes.length

/-- The queue never holds more entries than its bound. -/
theorem WellFormed.length_fault_le (h : c.WellFormed) :
    c.faultNodeIndexes.length ≤ c.faultCapacity := by
  have hsub : c.faultNodeIndexes ⊆ List.range c.allNodes.length := fun i hi =>
    List.mem_range.mpr ((h.mem_fault i).mp hi).lt
  have hle := (List.subperm_of_subset h.fault_nodup hsub).length_le
  rw [List.length_range] at hle
  rw [h.capacity]
  exact hle

/-- While some node is healthy the queue has room for it. -/
theorem WellFormed.length_fault_lt (h : c.WellFormed) (hi : c.HealthyAt i) :
    c.faultNodeIndexes.length < c.faultCapacity := by
  have hnot : i ∉ c.faultNodeIndexes := fun hmem => hi.not_faultAt ((h.mem_fault i).mp hmem)
  have hsub : i :: c.faultNodeIndexes ⊆ List.range c.allNodes.length := by
    intro k hk
    rw [List.mem_range]
    rcases List.mem_cons.mp hk with rfl | hk
    · exact hi.lt
    · exact ((h.mem_fault k).mp hk).lt
  have hle := (List.subperm_of_subset (List.nodup_cons.mpr ⟨hnot, h.fault_nodup⟩) hsub).length_le
  rw [List.length_range, List.length_cons] at hle
  rw [h.capacity]
  exact hle

/-! ## Choosing a node -/

/-- What `chooseOneNode` does to the collection when it hands out the node at an
index: the next healthy node of the walk, or the front of the fault queue after
the walk has passed the last node, or node zero when there is no fault node. -/
inductive ChooseStep (c : NodeCollectionImpl) : Nat → NodeCollectionImpl → Prop
  | healthy {i : Nat} (from_next : c.nextIndex ≤ i) (is_healthy : c.HealthyAt i)
      (passed : ∀ j, c.nextIndex ≤ j → j < i → c.FaultAt j) :
      ChooseStep c i { c with nextIndex := i + 1 }
  | retry {i : Nat} {rest : List Nat} (queue : c.faultNodeIndexes = i :: rest)
      (passed : ∀ j, c.nextIndex ≤ j → j < c.allNodes.length → c.FaultAt j) :
      ChooseStep c i { c with nextIndex := 0, faultNodeIndexes := rest ++ [i] }
  | restart (queue : c.faultNodeIndexes = []) (at_end : c.nextIndex = c.allNodes.length)
      (is_healthy : c.HealthyAt 0) : ChooseStep c 0 { c with nextIndex := 1 }

theorem ChooseStep.allNodes_eq (h : c.ChooseStep i next) : next.allNodes = c.allNodes := by
  cases h <;> rfl

/-- A fault node passed by the walk belongs to the walk's next choice. -/
theorem ChooseStep.skip (hfault : c.FaultAt c.nextIndex)
    (h : ({ c with nextIndex := c.nextIndex + 1 } : NodeCollectionImpl).ChooseStep i next)
    (hqueue : c.faultNodeIndexes ≠ []) : c.ChooseStep i next := by
  have widen {j : Nat} (hj : c.nextIndex ≤ j) (later : c.nextIndex + 1 ≤ j → c.FaultAt j) :
      c.FaultAt j := by
    rcases Nat.eq_or_lt_of_le hj with rfl | hlt
    · exact hfault
    · exact later hlt
  cases h with
  | healthy from_next is_healthy passed =>
    exact .healthy (Nat.le_of_succ_le from_next) is_healthy
      fun j hj hji => widen hj fun hlt => passed j hlt hji
  | retry queue passed =>
    exact .retry queue fun j hj hjn => widen hj fun hlt => passed j hlt hjn
  | restart queue _ _ => exact absurd queue hqueue

theorem pushFault_of_lt (h : c.faultNodeIndexes.length < c.faultCapacity) :
    c.pushFault i = { c with faultNodeIndexes := c.faultNodeIndexes ++ [i] } :=
  if_pos h

theorem WellFormed.walk (h : c.WellFormed) {s : Nat} (hs : s ≤ c.allNodes.length) :
    ({ c with nextIndex := s } : NodeCollectionImpl).WellFormed :=
  { h with nextIndex_le := hs }

/-- Enough iterations of the loop choose a node. -/
theorem chooseOneNodeLoop_spec {k : Nat} (h : c.WellFormed)
    (hk : c.allNodes.length < c.nextIndex + k) :
    ∃ i node next, c.nodeAt i = some node ∧ chooseOneNodeLoop k c = .ok (node, next) ∧
      c.ChooseStep i next := by
  induction k generalizing c with
  | zero => exact absurd h.nextIndex_le (by omega)
  | succ k ih =>
    rw [chooseOneNodeLoop]
    by_cases hend : c.allNodes.length ≤ c.nextIndex
    · rw [if_pos hend]
      cases hqueue : c.faultNodeIndexes with
      | cons q rest =>
        have hfault := (h.mem_fault q).mp (by rw [hqueue]; exact List.mem_cons_self)
        obtain ⟨record, hrecord, -⟩ := hfault
        have hroom : rest.length < c.faultCapacity := by
          have := h.length_fault_le
          rw [hqueue, List.length_cons] at this
          exact this
        refine ⟨q, record.node, _, by rw [nodeAt, hrecord, Option.map_some], ?_,
          .retry hqueue fun j hj hjn => absurd hjn (by omega)⟩
        simp only [hrecord]
        rw [pushFault_of_lt (by exact hroom)]
      | nil =>
        have hhealthy : c.HealthyAt 0 := (healthyAt_or_faultAt h.nonempty).resolve_right
          fun hfault => by
            have := (h.mem_fault 0).mpr hfault
            rw [hqueue] at this
            cases this
        have hstep : c.ChooseStep 0 { c with nextIndex := 1 } :=
          .restart hqueue (Nat.le_antisymm h.nextIndex_le hend) hhealthy
        obtain ⟨record, hrecord, healthy⟩ := hhealthy
        refine ⟨0, record.node, _, by rw [nodeAt, hrecord, Option.map_some], ?_, hstep⟩
        simp [pickNode, hrecord, healthy, hqueue]
    · rw [if_neg hend]
      have hlt : c.nextIndex < c.allNodes.length := Nat.lt_of_not_le hend
      rcases healthyAt_or_faultAt hlt with hhealthy | hfault
      · have hstep : c.ChooseStep c.nextIndex { c with nextIndex := c.nextIndex + 1 } :=
          .healthy le_rfl hhealthy fun j hj hji => absurd hji (by omega)
        obtain ⟨record, hrecord, healthy⟩ := hhealthy
        refine ⟨c.nextIndex, record.node, _, by rw [nodeAt, hrecord, Option.map_some], ?_, hstep⟩
        simp [pickNode, hrecord, healthy]
      · have hqueue : c.faultNodeIndexes ≠ [] := by
          intro hnil
          have := (h.mem_fault c.nextIndex).mpr hfault
          rw [hnil] at this
          cases this
        obtain ⟨i, node, next, hnode, hloop, hstep⟩ :=
          ih (h.walk (s := c.nextIndex + 1) hlt) (by simp only; omega)
        refine ⟨i, node, next, hnode, ?_, hstep.skip hfault hqueue⟩
        obtain ⟨record, hrecord, fault⟩ := hfault
        simp only [pickNode, hrecord, fault, if_true]
        exact hloop

/-- `chooseOneNode` never throws on a well formed collection. -/
theorem chooseOneNode_spec (h : c.WellFormed) :
    ∃ i node next, c.nodeAt i = some node ∧ c.chooseOneNode = .ok (node, next) ∧
      c.ChooseStep i next :=
  chooseOneNodeLoop_spec h (by omega)

/-- Choosing a node keeps the collection well formed. -/
theorem ChooseStep.wellFormed (hstep : c.ChooseStep i next) (h : c.WellFormed) :
    next.WellFormed := by
  cases hstep with
  | healthy _ is_healthy _ => exact h.walk is_healthy.lt
  | restart _ _ is_healthy => exact h.walk is_healthy.lt
  | retry queue _ =>
    have hnodup := h.fault_nodup
    have hmem := h.mem_fault
    rw [queue] at hnodup hmem
    refine { h with nextIndex_le := Nat.zero_le _, fault_nodup := ?_, mem_fault := fun k => ?_ }
    · exact (List.perm_append_singleton _ _).nodup_iff.mpr hnodup
    · rw [(List.perm_append_singleton _ _).mem_iff]
      exact hmem k

/-! ## Reporting -/

/-- What `reportFailure` does about the node at an index. -/
inductive FailureStep (c : NodeCollectionImpl) (i : Nat) : NodeCollectionImpl → Prop
  | known (is_fault : c.FaultAt i) : FailureStep c i c
  | marked (is_healthy : c.HealthyAt i) :
      FailureStep c i
        { c.setFault i true with faultNodeIndexes := c.faultNodeIndexes ++ [i] }

/-- What `reportSuccess` does about the node at an index. -/
inductive SuccessStep (c : NodeCollectionImpl) (i : Nat) : NodeCollectionImpl → Prop
  | known (is_healthy : c.HealthyAt i) : SuccessStep c i c
  | cleared (is_fault : c.FaultAt i) :
      SuccessStep c i
        { c.setFault i false with faultNodeIndexes := c.faultNodeIndexes.filter (· ≠ i) }

/-- The binary search finds the record of every managed node. -/
theorem WellFormed.getNodeRecord_eq (h : c.WellFormed) (hnode : c.nodeAt i = some node) :
    c.getNodeRecord node = some i := by
  rw [nodeAt, Option.map_eq_some_iff] at hnode
  obtain ⟨record, hrecord, rfl⟩ := hnode
  obtain ⟨hi, hget⟩ := List.getElem?_eq_some_iff.mp hrecord
  have hfind : c.allNodes.findIdx (fun other => !decide (other.node < record.node)) = i := by
    rw [List.findIdx_eq hi]
    refine ⟨by simp [hget], fun j hj => ?_⟩
    have hlt := List.pairwise_iff_getElem.mp h.sorted j i (hj.trans hi) hi hj
    rw [hget] at hlt
    simp [hlt]
  simp [getNodeRecord, hfind, hrecord]

/-- A full rotation of the queue leaves out one index and keeps the order of the
others. -/
theorem dropFaultIndex_eq (index : Nat) (queue kept : List Nat) :
    dropFaultIndex index queue.length (queue ++ kept) = kept ++ queue.filter (· ≠ index) := by
  induction queue generalizing kept with
  | nil => simp [dropFaultIndex]
  | cons first rest ih =>
    rw [List.length_cons, List.cons_append, dropFaultIndex]
    by_cases hfirst : first = index
    · rw [if_neg (not_not.mpr hfirst), ih, List.filter_cons_of_neg (by simpa using hfirst)]
    · rw [if_pos hfirst, List.append_assoc, ih, List.filter_cons_of_pos (by simpa using hfirst)]
      simp

/-- `reportFailure` never throws about a managed node. -/
theorem reportFailure_spec (h : c.WellFormed) (hnode : c.nodeAt i = some node) :
    ∃ next, c.reportFailure node = .ok next ∧ c.FailureStep i next := by
  rcases healthyAt_or_faultAt (lt_of_nodeAt hnode) with hhealthy | hfault
  · refine ⟨_, ?_, .marked hhealthy⟩
    have hroom := h.length_fault_lt hhealthy
    obtain ⟨record, hrecord, healthy⟩ := hhealthy
    simp only [reportFailure, h.getNodeRecord_eq hnode, hrecord, healthy, Bool.false_eq_true,
      if_false]
    rw [pushFault_of_lt (by exact hroom)]
    rfl
  · refine ⟨c, ?_, .known hfault⟩
    obtain ⟨record, hrecord, fault⟩ := hfault
    simp [reportFailure, h.getNodeRecord_eq hnode, hrecord, fault]

/-- `reportSuccess` never throws about a managed node. -/
theorem reportSuccess_spec (h : c.WellFormed) (hnode : c.nodeAt i = some node) :
    ∃ next, c.reportSuccess node = .ok next ∧ c.SuccessStep i next := by
  rcases healthyAt_or_faultAt (lt_of_nodeAt hnode) with hhealthy | hfault
  · refine ⟨c, ?_, .known hhealthy⟩
    obtain ⟨record, hrecord, healthy⟩ := hhealthy
    simp [reportSuccess, h.getNodeRecord_eq hnode, hrecord, healthy]
  · refine ⟨_, ?_, .cleared hfault⟩
    obtain ⟨record, hrecord, fault⟩ := hfault
    have hdrop := dropFaultIndex_eq i c.faultNodeIndexes []
    rw [List.append_nil, List.nil_append] at hdrop
    simp only [reportSuccess, h.getNodeRecord_eq hnode, hrecord, fault, if_true, hdrop]

@[simp] theorem length_setFault (flag : Bool) :
    (c.setFault i flag).allNodes.length = c.allNodes.length := by
  simp [setFault]

theorem getElem?_setFault (flag : Bool) :
    (c.setFault i flag).allNodes[j]? =
      if i = j then (c.allNodes[j]?).map fun record => { record with isFault := flag }
      else c.allNodes[j]? := by
  rw [setFault, List.getElem?_modify]
  split <;> simp

@[simp] theorem nodeAt_setFault (flag : Bool) : (c.setFault i flag).nodeAt j = c.nodeAt j := by
  rw [nodeAt, getElem?_setFault, nodeAt]
  split
  · rw [Option.map_map]
    rfl
  · rfl

/-- Writing a flag changes the kind of one managed index only. -/
theorem faultAt_setFault (flag : Bool) (hi : i < c.allNodes.length) :
    (c.setFault i flag).FaultAt j ↔ if i = j then flag = true else c.FaultAt j := by
  rw [FaultAt, getElem?_setFault]
  by_cases hij : i = j
  · subst hij
    simp [List.getElem?_eq_getElem hi]
  · simp only [if_neg hij]
    rfl

theorem WellFormed.sorted_setFault (h : c.WellFormed) (flag : Bool) :
    (c.setFault i flag).allNodes.Pairwise fun a b => a.node < b.node := by
  have hnodes : (c.setFault i flag).allNodes.map (·.node) = c.allNodes.map (·.node) := by
    refine List.ext_getElem? fun j => ?_
    simpa only [List.getElem?_map, nodeAt] using nodeAt_setFault flag (c := c) (i := i) (j := j)
  have hsorted := List.pairwise_map.mpr h.sorted
  rw [← hnodes] at hsorted
  exact List.pairwise_map.mp hsorted

/-- Reporting a failure keeps the collection well formed. -/
theorem FailureStep.wellFormed (hstep : c.FailureStep i next) (h : c.WellFormed) :
    next.WellFormed := by
  cases hstep with
  | known => exact h
  | marked is_healthy =>
    have hnot : i ∉ c.faultNodeIndexes := fun hmem =>
      is_healthy.not_faultAt ((h.mem_fault i).mp hmem)
    refine ⟨by simpa using h.nonempty, h.sorted_setFault true, by simpa [setFault] using h.nextIndex_le, ?_,
      fun j => ?_, by simpa [setFault] using h.capacity⟩
    · rw [(List.perm_append_singleton _ _).nodup_iff]
      exact List.nodup_cons.mpr ⟨hnot, h.fault_nodup⟩
    · refine Iff.trans ?_ (faultAt_setFault true is_healthy.lt).symm
      rw [List.mem_append, List.mem_singleton, h.mem_fault j]
      by_cases hij : i = j
      · simp [hij]
      · simp [hij, Ne.symm hij]

/-- Reporting a success keeps the collection well formed. -/
theorem SuccessStep.wellFormed (hstep : c.SuccessStep i next) (h : c.WellFormed) :
    next.WellFormed := by
  cases hstep with
  | known => exact h
  | cleared is_fault =>
    refine ⟨by simpa using h.nonempty, h.sorted_setFault false, by simpa [setFault] using h.nextIndex_le,
      h.fault_nodup.filter _, fun j => ?_, by simpa [setFault] using h.capacity⟩
    refine Iff.trans ?_ (faultAt_setFault false is_fault.lt).symm
    rw [List.mem_filter, h.mem_fault j]
    by_cases hij : i = j
    · simp [hij]
    · simp [hij, Ne.symm hij]

/-! ## The collection driven by calls -/

/-- The constructor's result is well formed; distinct objects have distinct
addresses. -/
theorem create_wellFormed {addresses : List Nat} (hnodup : addresses.Nodup)
    (h : create addresses = .ok c) : c.WellFormed := by
  rw [create] at h
  split at h
  · cases h
  next hne =>
    cases h
    have hperm := List.perm_insertionSort (· ≤ ·) addresses
    have hsorted : (addresses.insertionSort (· ≤ ·)).Pairwise (· < ·) :=
      ((List.pairwise_insertionSort (· ≤ ·) addresses).and (hperm.nodup_iff.mpr hnodup)).imp
        fun ⟨hle, hne⟩ => Nat.lt_of_le_of_ne hle hne
    refine ⟨?_, List.pairwise_map.mpr hsorted, Nat.zero_le _, List.nodup_nil, fun i => ?_, ?_⟩
    · simpa [List.length_pos_iff] using hne
    · constructor
      · rintro ⟨⟩
      · rintro ⟨record, hrecord, fault⟩
        rw [List.getElem?_map, Option.map_eq_some_iff] at hrecord
        obtain ⟨node, -, rfl⟩ := hrecord
        cases fault
    · simp

/-- A call on a node collection. -/
inductive Call
  | chooseOneNode
  | reportFailure (node : Nat)
  | reportSuccess (node : Nat)
  deriving DecidableEq, Repr

/-- The state after a call; a call that throws has none. -/
def call (c : NodeCollectionImpl) : Call → Option NodeCollectionImpl
  | .chooseOneNode => c.chooseOneNode.toOption.map (·.2)
  | .reportFailure node => (c.reportFailure node).toOption
  | .reportSuccess node => (c.reportSuccess node).toOption

/-- A collection created over distinct objects and driven by calls in any order. -/
def system : Math.TransitionSystem NodeCollectionImpl Call where
  start c := ∃ addresses : List Nat, addresses.Nodup ∧ create addresses = .ok c
  step := call

/-- A report that did not throw was about a managed node. -/
theorem exists_nodeAt_of_getNodeRecord (h : c.getNodeRecord node = some i) :
    c.nodeAt i = some node := by
  rw [getNodeRecord] at h
  split at h
  next record hrecord =>
    split at h
    next heq =>
      cases h
      rw [nodeAt, hrecord, Option.map_some, heq]
    · cases h
  · cases h

theorem exists_nodeAt_of_reportFailure (h : c.reportFailure node = .ok next) :
    ∃ i, c.nodeAt i = some node := by
  rw [reportFailure] at h
  split at h
  · cases h
  next index hindex => exact ⟨index, exists_nodeAt_of_getNodeRecord hindex⟩

theorem exists_nodeAt_of_reportSuccess (h : c.reportSuccess node = .ok next) :
    ∃ i, c.nodeAt i = some node := by
  rw [reportSuccess] at h
  split at h
  · cases h
  next index hindex => exact ⟨index, exists_nodeAt_of_getNodeRecord hindex⟩

theorem ChooseStep.nodeAt_eq (h : c.ChooseStep i next) : next.nodeAt j = c.nodeAt j := by
  rw [nodeAt, nodeAt, h.allNodes_eq]

theorem FailureStep.nodeAt_eq (h : c.FailureStep i next) : next.nodeAt j = c.nodeAt j := by
  cases h with
  | known => rfl
  | marked => exact nodeAt_setFault true

theorem SuccessStep.nodeAt_eq (h : c.SuccessStep i next) : next.nodeAt j = c.nodeAt j := by
  cases h with
  | known => rfl
  | cleared => exact nodeAt_setFault false

theorem ChooseStep.getNodesCount_eq (h : c.ChooseStep i next) :
    next.getNodesCount = c.getNodesCount := by
  rw [getNodesCount, getNodesCount, h.allNodes_eq]

theorem FailureStep.getNodesCount_eq (h : c.FailureStep i next) :
    next.getNodesCount = c.getNodesCount := by
  cases h with
  | known => rfl
  | marked => exact length_setFault true

theorem SuccessStep.getNodesCount_eq (h : c.SuccessStep i next) :
    next.getNodesCount = c.getNodesCount := by
  cases h with
  | known => rfl
  | cleared => exact length_setFault false

/-- Every call keeps the collection well formed and manages the same nodes. -/
theorem call_spec (request : Call) (h : c.WellFormed) (hcall : c.call request = some next) :
    next.WellFormed ∧ ∀ j, next.nodeAt j = c.nodeAt j := by
  cases request with
  | chooseOneNode =>
    obtain ⟨i, node, chosen, -, hchoose, hstep⟩ := chooseOneNode_spec h
    rw [call, hchoose] at hcall
    cases hcall
    exact ⟨hstep.wellFormed h, fun j => hstep.nodeAt_eq⟩
  | reportFailure node =>
    rw [call] at hcall
    cases hreport : c.reportFailure node with
    | error ex =>
      rw [hreport] at hcall
      cases hcall
    | ok after =>
      obtain ⟨i, hnode⟩ := exists_nodeAt_of_reportFailure hreport
      obtain ⟨marked, hmarked, hstep⟩ := reportFailure_spec h hnode
      rw [hmarked] at hcall
      cases hcall
      exact ⟨hstep.wellFormed h, fun j => hstep.nodeAt_eq⟩
  | reportSuccess node =>
    rw [call] at hcall
    cases hreport : c.reportSuccess node with
    | error ex =>
      rw [hreport] at hcall
      cases hcall
    | ok after =>
      obtain ⟨i, hnode⟩ := exists_nodeAt_of_reportSuccess hreport
      obtain ⟨cleared, hcleared, hstep⟩ := reportSuccess_spec h hnode
      rw [hcleared] at hcall
      cases hcall
      exact ⟨hstep.wellFormed h, fun j => hstep.nodeAt_eq⟩

/-- No call adds or removes a node. -/
theorem getNodesCount_of_call {request : Call} (h : c.WellFormed)
    (hcall : c.call request = some next) : next.getNodesCount = c.getNodesCount := by
  have hnodes := (call_spec request h hcall).2
  rw [getNodesCount, getNodesCount]
  apply Nat.le_antisymm
  · by_contra hmore
    obtain ⟨node, hnode⟩ := exists_nodeAt (c := next) (Nat.lt_of_not_le hmore)
    rw [hnodes] at hnode
    exact absurd (lt_of_nodeAt hnode) (Nat.lt_irrefl _)
  · by_contra hmore
    obtain ⟨node, hnode⟩ := exists_nodeAt (c := c) (Nat.lt_of_not_le hmore)
    rw [← hnodes] at hnode
    exact absurd (lt_of_nodeAt hnode) (Nat.lt_irrefl _)

/-- Every sequence of calls keeps the collection well formed. -/
theorem wellFormed_of_reachable (h : system.Reachable c) : c.WellFormed := by
  refine Math.TransitionSystem.Reachable.invariant WellFormed ?_ ?_ h
  · rintro c ⟨addresses, hnodup, hcreate⟩
    exact create_wellFormed hnodup hcreate
  · exact fun c request next hc hcall => (call_spec request hc hcall).1

/-! ## Pushes

Each operation is stated again with how long the queue is whenever it pushes; what it returns is the
same.
-/

/-- `pickNode`, with the pushes of what it goes on with. -/
def pickNodeTraced (c : NodeCollectionImpl)
    (on : NodeCollectionImpl → List Nat × Except Exception (Nat × NodeCollectionImpl)) :
    List Nat × Except Exception (Nat × NodeCollectionImpl) :=
  match c.allNodes[c.nextIndex]? with
  | some record =>
    let next := { c with nextIndex := c.nextIndex + 1 }
    if record.isFault then on next else ([], .ok (record.node, next))
  | none => ([], .error (logicException "choose one node failed"))

/-- `chooseOneNodeLoop` with its pushes. -/
def chooseOneNodeTraced :
    Nat → NodeCollectionImpl → List Nat × Except Exception (Nat × NodeCollectionImpl)
  | 0, _ => ([], .error (logicException "choose one node failed"))
  | k + 1, c =>
    if c.allNodes.length ≤ c.nextIndex then
      match c.faultNodeIndexes with
      | faultNodeIndex :: rest =>
        match c.allNodes[faultNodeIndex]? with
        | some record =>
          ([rest.length], .ok (record.node,
            { c with nextIndex := 0, faultNodeIndexes := rest }.pushFault faultNodeIndex))
        | none => ([], .error (logicException "vector::at"))
      | [] => { c with nextIndex := 0 }.pickNodeTraced (chooseOneNodeTraced k)
    else
      c.pickNodeTraced (chooseOneNodeTraced k)

/-- `dropFaultIndex` with its pushes. -/
def dropFaultIndexTraced (index : Nat) : Nat → List Nat → List Nat × List Nat
  | 0, queue => ([], queue)
  | _ + 1, [] => ([], [])
  | k + 1, faultNodeIndex :: rest =>
    if faultNodeIndex ≠ index then
      let later := dropFaultIndexTraced index k (rest ++ [faultNodeIndex])
      (rest.length :: later.1, later.2)
    else
      dropFaultIndexTraced index k rest

/-- A call with its pushes. -/
def callTraced (c : NodeCollectionImpl) : Call → List Nat × Option NodeCollectionImpl
  | .chooseOneNode =>
    let chosen := chooseOneNodeTraced (c.allNodes.length + 1) c
    (chosen.1, chosen.2.toOption.map (·.2))
  | .reportFailure node =>
    match c.getNodeRecord node with
    | some index =>
      match c.allNodes[index]? with
      | some record =>
        if record.isFault then ([], some c)
        else ([c.faultNodeIndexes.length], some ((c.setFault index true).pushFault index))
      | none => ([], none)
    | none => ([], none)
  | .reportSuccess node =>
    match c.getNodeRecord node with
    | some index =>
      match c.allNodes[index]? with
      | some record =>
        if record.isFault then
          let dropped := dropFaultIndexTraced index c.faultNodeIndexes.length c.faultNodeIndexes
          (dropped.1, some { c.setFault index false with faultNodeIndexes := dropped.2 })
        else ([], some c)
      | none => ([], none)
    | none => ([], none)

/-- How long the queue is at each push of a call. -/
def pushes (c : NodeCollectionImpl) (request : Call) : List Nat := (c.callTraced request).1

theorem pickNodeTraced_value
    {traced : NodeCollectionImpl → List Nat × Except Exception (Nat × NodeCollectionImpl)}
    {on : NodeCollectionImpl → Except Exception (Nat × NodeCollectionImpl)}
    (h : ∀ next, (traced next).2 = on next) : (c.pickNodeTraced traced).2 = c.pickNode on := by
  rw [pickNodeTraced, pickNode]
  split
  next record hrecord =>
    dsimp only
    split
    · exact h _
    · rfl
  · rfl

theorem chooseOneNodeTraced_value (k : Nat) (c : NodeCollectionImpl) :
    (chooseOneNodeTraced k c).2 = chooseOneNodeLoop k c := by
  induction k generalizing c with
  | zero => rfl
  | succ k ih =>
    rw [chooseOneNodeTraced, chooseOneNodeLoop]
    split
    · split
      next faultNodeIndex rest hqueue =>
        cases c.allNodes[faultNodeIndex]? with
        | some record => rfl
        | none => rfl
      · exact pickNodeTraced_value ih
    · exact pickNodeTraced_value ih

theorem dropFaultIndexTraced_value (index k : Nat) (queue : List Nat) :
    (dropFaultIndexTraced index k queue).2 = dropFaultIndex index k queue := by
  induction k generalizing queue with
  | zero => rfl
  | succ k ih =>
    cases queue with
    | nil => rfl
    | cons first rest =>
      rw [dropFaultIndexTraced, dropFaultIndex]
      split
      · exact ih _
      · exact ih _

/-- The pushes are those of the calls. -/
theorem callTraced_value (c : NodeCollectionImpl) (request : Call) :
    (c.callTraced request).2 = c.call request := by
  cases request with
  | chooseOneNode =>
    show (chooseOneNodeTraced _ c).2.toOption.map (·.2) = _
    rw [chooseOneNodeTraced_value]
    rfl
  | reportFailure node =>
    rw [callTraced, call, reportFailure]
    cases c.getNodeRecord node with
    | none => rfl
    | some index =>
      dsimp only
      cases c.allNodes[index]? with
      | none => rfl
      | some record =>
        dsimp only
        split
        · rfl
        · rfl
  | reportSuccess node =>
    rw [callTraced, call, reportSuccess]
    cases c.getNodeRecord node with
    | none => rfl
    | some index =>
      dsimp only
      cases c.allNodes[index]? with
      | none => rfl
      | some record =>
        dsimp only
        split
        · rw [dropFaultIndexTraced_value]
          rfl
        · rfl

theorem lt_of_mem_pickNodeTraced {n bound : Nat}
    {traced : NodeCollectionImpl → List Nat × Except Exception (Nat × NodeCollectionImpl)}
    (htraced : ∀ next : NodeCollectionImpl, next.faultNodeIndexes = c.faultNodeIndexes →
      n ∈ (traced next).1 → n < bound) (hn : n ∈ (c.pickNodeTraced traced).1) : n < bound := by
  rw [pickNodeTraced] at hn
  split at hn
  · dsimp only at hn
    split at hn
    -- the walk goes on with the same queue
    · exact htraced { c with nextIndex := c.nextIndex + 1 } rfl hn
    · cases hn
  · cases hn

theorem lt_of_mem_chooseOneNodeTraced {k n bound : Nat}
    (hlength : c.faultNodeIndexes.length ≤ bound) (hn : n ∈ (chooseOneNodeTraced k c).1) :
    n < bound := by
  induction k generalizing c with
  | zero => cases hn
  | succ k ih =>
    have hlater : ∀ next : NodeCollectionImpl, next.faultNodeIndexes = c.faultNodeIndexes →
        n ∈ (chooseOneNodeTraced k next).1 → n < bound := fun next hsame hnext =>
      ih (hsame ▸ hlength) hnext
    rw [chooseOneNodeTraced] at hn
    split at hn
    · split at hn
      next q rest hqueue =>
        rw [hqueue, List.length_cons] at hlength
        split at hn
        · rw [List.mem_singleton.mp hn]
          exact hlength
        · cases hn
      · exact lt_of_mem_pickNodeTraced (c := { c with nextIndex := 0 }) hlater hn
    · exact lt_of_mem_pickNodeTraced hlater hn

theorem lt_of_mem_dropFaultIndexTraced {index k n bound : Nat} {queue : List Nat}
    (hlength : queue.length ≤ bound) (hn : n ∈ (dropFaultIndexTraced index k queue).1) :
    n < bound := by
  induction k generalizing queue with
  | zero => cases hn
  | succ k ih =>
    cases queue with
    | nil => cases hn
    | cons first rest =>
      rw [List.length_cons] at hlength
      rw [dropFaultIndexTraced] at hn
      split at hn
      · rcases List.mem_cons.mp hn with rfl | hlater
        · exact hlength
        · exact ih (by simpa using hlength) hlater
      · exact ih (Nat.le_of_succ_le hlength) hn

/-- Every push finds room in the queue. -/
theorem WellFormed.lt_of_mem_pushes (h : c.WellFormed) {request : Call} {n : Nat}
    (hn : n ∈ c.pushes request) : n < c.faultCapacity := by
  cases request with
  | chooseOneNode => exact lt_of_mem_chooseOneNodeTraced h.length_fault_le hn
  | reportFailure node =>
    rw [pushes, callTraced] at hn
    split at hn
    next index hindex =>
      split at hn
      next record hrecord =>
        split at hn
        · cases hn
        next healthy =>
          -- the healthy node itself is not in the queue
          rw [List.mem_singleton.mp hn]
          exact h.length_fault_lt ⟨record, hrecord, Bool.eq_false_iff.mpr healthy⟩
      · cases hn
    · cases hn
  | reportSuccess node =>
    rw [pushes, callTraced] at hn
    split at hn
    · split at hn
      · split at hn
        · exact lt_of_mem_dropFaultIndexTraced h.length_fault_le hn
        · cases hn
      · cases hn
    · cases hn

/-! ## Sequences of calls -/

/-- A report is about one of the nodes. -/
def Call.IsAbout (addresses : List Nat) : Call → Prop
  | .chooseOneNode => True
  | .reportFailure node => node ∈ addresses
  | .reportSuccess node => node ∈ addresses

/-- Flags, queue and index of a collection over the nodes agree, and the next call does what
it should. -/
structure Sound (addresses : List Nat) (c : NodeCollectionImpl) : Prop where
  mem_fault : ∀ i, i ∈ c.faultNodeIndexes ↔ c.FaultAt i
  fault_nodup : c.faultNodeIndexes.Nodup
  nextIndex_le : c.nextIndex ≤ c.getNodesCount
  pushes_fit : ∀ request, ∀ n ∈ c.pushes request, n < c.faultCapacity
  keeps_order : ∀ i node next, c.nodeAt i = some node → c.reportSuccess node = .ok next →
    next.faultNodeIndexes = c.faultNodeIndexes.filter (· ≠ i)
  chooses : ∃ node next, c.chooseOneNode = .ok (node, next) ∧ node ∈ addresses

/-- The collection manages exactly these nodes. -/
def Manages (addresses : List Nat) (c : NodeCollectionImpl) : Prop :=
  ∀ node, node ∈ addresses ↔ ∃ i, c.nodeAt i = some node

theorem create_manages {addresses : List Nat} (h : create addresses = .ok c) :
    c.Manages addresses := by
  intro node
  rw [create] at h
  split at h
  · cases h
  · cases h
    rw [← List.mem_insertionSort (· ≤ ·), List.mem_iff_getElem?]
    simp [nodeAt]

theorem WellFormed.sound {addresses : List Nat} (h : c.WellFormed) (hmanages : c.Manages addresses) :
    c.Sound addresses where
  mem_fault := h.mem_fault
  fault_nodup := h.fault_nodup
  nextIndex_le := h.nextIndex_le
  pushes_fit := fun _ _ hn => h.lt_of_mem_pushes hn
  keeps_order := by
    intro i node next hnode hreport
    obtain ⟨cleared, hcleared, hstep⟩ := reportSuccess_spec h hnode
    obtain rfl : cleared = next := Except.ok.inj (hcleared.symm.trans hreport)
    cases hstep with
    | cleared => rfl
    | known is_healthy =>
      -- a healthy node is not in the queue
      refine (List.filter_eq_self.mpr fun j hj => decide_eq_true ?_).symm
      rintro rfl
      exact is_healthy.not_faultAt ((h.mem_fault j).mp hj)
  chooses := by
    obtain ⟨i, node, next, hnode, hchoose, -⟩ := chooseOneNode_spec h
    exact ⟨node, next, hchoose, (hmanages node).mpr ⟨i, hnode⟩⟩

/-- A call about managed nodes does not throw. -/
theorem WellFormed.exists_call {addresses : List Nat} (h : c.WellFormed)
    (hmanages : c.Manages addresses) {request : Call} (habout : request.IsAbout addresses) :
    ∃ next, c.call request = some next := by
  cases request with
  | chooseOneNode =>
    obtain ⟨i, node, next, -, hchoose, -⟩ := chooseOneNode_spec h
    exact ⟨next, by rw [call, hchoose]; rfl⟩
  | reportFailure node =>
    obtain ⟨i, hnode⟩ := (hmanages node).mp habout
    obtain ⟨next, hreport, -⟩ := reportFailure_spec h hnode
    exact ⟨next, by rw [call, hreport]; rfl⟩
  | reportSuccess node =>
    obtain ⟨i, hnode⟩ := (hmanages node).mp habout
    obtain ⟨next, hreport, -⟩ := reportSuccess_spec h hnode
    exact ⟨next, by rw [call, hreport]; rfl⟩

theorem WellFormed.exists_run {addresses : List Nat} (h : c.WellFormed)
    (hmanages : c.Manages addresses) {requests : List Call}
    (habout : ∀ request ∈ requests, request.IsAbout addresses) :
    ∃ t, system.run c requests = some t ∧ t.WellFormed ∧ t.Manages addresses := by
  induction requests generalizing c with
  | nil => exact ⟨c, rfl, h, hmanages⟩
  | cons request rest ih =>
    obtain ⟨next, hcall⟩ := h.exists_call hmanages (habout request List.mem_cons_self)
    obtain ⟨hnext, hnodes⟩ := call_spec request h hcall
    have hsame : next.Manages addresses := fun node => by simpa only [hnodes] using hmanages node
    obtain ⟨t, hrun, ht⟩ := ih hnext hsame fun other hother =>
      habout other (List.mem_cons_of_mem _ hother)
    refine ⟨t, ?_, ht⟩
    show (system.step c request).bind _ = _
    rw [show system.step c request = some next from hcall]
    exact hrun

/-- From any nodes, every sequence of calls about them runs to its end and leaves a sound
collection. -/
theorem sound_of_calls {addresses : List Nat} (hne : addresses ≠ []) (hnodup : addresses.Nodup)
    (requests : List Call) (habout : ∀ request ∈ requests, request.IsAbout addresses) :
    ∃ c t, create addresses = .ok c ∧ system.run c requests = some t ∧ t.Sound addresses := by
  obtain ⟨c, hcreate⟩ : ∃ c, create addresses = .ok c :=
    ⟨_, by rw [create, if_neg (by simpa using hne)]⟩
  obtain ⟨t, hrun, ht, hmanages⟩ :=
    (create_wellFormed hnodup hcreate).exists_run (create_manages hcreate) habout
  exact ⟨c, t, hcreate, hrun, ht.sound hmanages⟩

theorem sound_of_calls_two :
    ∃ c t, create [7, 3] = .ok c ∧
      system.run c [.reportFailure 7, .chooseOneNode, .chooseOneNode, .reportSuccess 7] = some t ∧
      t.Sound [7, 3] :=
  sound_of_calls (List.cons_ne_nil _ _) (by decide) _ (by simp [Call.IsAbout])

end NodeCollectionImpl

end CqlDriver
