import Mathlib.Data.Finset.Card
import CqlDriver.Common.NodeCollection

/-!
# Trying the nodes one after another

A spawn loop chooses a node, reports it when it cannot be reached, and chooses
again, at most as often as there are nodes. Whether this tries every node depends
on where the walk stands when the loop starts. A walk that starts in the middle
without any fault node returns to its first node at the wrap-around, because that
one has become the front of the fault queue, and so misses the node just before
its start.

## Main definitions

* `NodeCollectionImpl.attempts` — one of the next attempts reaches a node
* `NodeCollectionImpl.Visits` — the invariant of a loop that never repeats a node
* `NodeCollectionImpl.StartsInside` — the start that repeats one

## Main results

* `NodeCollectionImpl.attempts_of_visits` — without a repetition, some attempt
  reaches every reachable node
* `NodeCollectionImpl.attempts_iff` — for a reachable node, exactly when as many
  attempts as there are nodes succeed
-/

namespace CqlDriver.NodeCollectionImpl

variable {c next failed : NodeCollectionImpl} {i j k : Nat} {reachable : Nat → Bool}

/-- One of the next `k` attempts of a spawn loop that runs alone reaches a node. -/
def attempts (reachable : Nat → Bool) : Nat → NodeCollectionImpl → Bool
  | 0, _ => false
  | k + 1, c =>
    match c.chooseOneNode with
    | .ok (node, next) =>
      if reachable node then
        true
      else
        match next.reportFailure node with
        | .ok failed => attempts reachable k failed
        | .error _ => false
    | .error _ => false

/-- The node at an index can be reached. -/
def ReachableAt (c : NodeCollectionImpl) (reachable : Nat → Bool) (i : Nat) : Prop :=
  ∃ node, c.nodeAt i = some node ∧ reachable node = true

/-- What an attempt about the node at index `i` leaves when it fails: the walk has
found the node healthy and marked it, or a fault node was retried and stays. -/
inductive FailedAttempt (c : NodeCollectionImpl) (i : Nat) (failed : NodeCollectionImpl) : Prop
  | marked (is_healthy : c.HealthyAt i)
      (queue : failed.faultNodeIndexes = c.faultNodeIndexes ++ [i])
      (index : failed.nextIndex = i + 1) (fault : ∀ j, failed.FaultAt j ↔ i = j ∨ c.FaultAt j)
      (walk : (c.nextIndex ≤ i ∧ ∀ j, c.nextIndex ≤ j → j < i → c.FaultAt j) ∨
        (c.faultNodeIndexes = [] ∧ c.nextIndex = c.allNodes.length ∧ i = 0))
  | rotated {rest : List Nat} (front : c.faultNodeIndexes = i :: rest)
      (queue : failed.faultNodeIndexes = rest ++ [i]) (index : failed.nextIndex = 0)
      (fault : ∀ j, failed.FaultAt j ↔ c.FaultAt j)
      (passed : ∀ j, c.nextIndex ≤ j → j < c.allNodes.length → c.FaultAt j)

/-- Choosing a node and reporting its failure is a failed attempt. -/
theorem ChooseStep.failedAttempt (hchoose : c.ChooseStep i next) (h : c.WellFormed)
    (hreport : next.FailureStep i failed) : c.FailedAttempt i failed := by
  cases hchoose with
  | healthy from_next is_healthy passed =>
    cases hreport with
    | known hfault => exact absurd hfault is_healthy.not_faultAt
    | marked _ =>
      refine .marked is_healthy rfl rfl (fun j => ?_) (.inl ⟨from_next, passed⟩)
      refine (faultAt_setFault true (by exact is_healthy.lt)).trans ?_
      by_cases heq : i = j
      · simp [heq]
      · simp only [heq, if_false, false_or]
        rfl
  | restart queue at_end is_healthy =>
    cases hreport with
    | known hfault => exact absurd hfault is_healthy.not_faultAt
    | marked _ =>
      refine .marked is_healthy rfl rfl (fun j => ?_) (.inr ⟨queue, at_end, rfl⟩)
      refine (faultAt_setFault true (by exact is_healthy.lt)).trans ?_
      by_cases heq : 0 = j
      · simp [heq]
      · simp only [heq, if_false, false_or]
        rfl
  | retry queue passed =>
    have hfault : c.FaultAt i := (h.mem_fault i).mp (by rw [queue]; exact List.mem_cons_self)
    cases hreport with
    | known _ => exact .rotated queue rfl rfl (fun j => Iff.rfl) passed
    | marked is_healthy => exact absurd hfault is_healthy.not_faultAt

theorem ReachableAt.lt (h : c.ReachableAt reachable i) : i < c.allNodes.length := by
  obtain ⟨node, hnode, -⟩ := h
  exact lt_of_nodeAt hnode

/-- A collection after a failed attempt, as the next attempt finds it. -/
structure AfterAttempt (c failed : NodeCollectionImpl) : Prop where
  wellFormed : failed.WellFormed
  nodes : ∀ i, failed.nodeAt i = c.nodeAt i
  length : failed.allNodes.length = c.allNodes.length

theorem AfterAttempt.reachableAt_iff (h : c.AfterAttempt failed) :
    failed.ReachableAt reachable i ↔ c.ReachableAt reachable i := by
  simp only [ReachableAt, h.nodes]

/-- One attempt: it reaches the chosen node, or it fails and leaves the rest to the
attempts after it. -/
theorem attempts_succ (h : c.WellFormed) (reachable : Nat → Bool) (k : Nat) :
    ∃ i failed, i < c.allNodes.length ∧ c.FailedAttempt i failed ∧ c.AfterAttempt failed ∧
      (c.ReachableAt reachable i ∧ attempts reachable (k + 1) c = true ∨
        ¬ c.ReachableAt reachable i ∧
          attempts reachable (k + 1) c = attempts reachable k failed) := by
  obtain ⟨i, node, next, hnode, hchoose, hstep⟩ := chooseOneNode_spec h
  have hnext := hstep.wellFormed h
  obtain ⟨failed, hreport, hfailure⟩ := reportFailure_spec hnext (hstep.nodeAt_eq.trans hnode)
  have hlength : failed.allNodes.length = c.allNodes.length :=
    hfailure.getNodesCount_eq.trans hstep.getNodesCount_eq
  refine ⟨i, failed, lt_of_nodeAt hnode, hstep.failedAttempt h hfailure,
    ⟨hfailure.wellFormed hnext, fun j => hfailure.nodeAt_eq.trans hstep.nodeAt_eq, hlength⟩, ?_⟩
  rw [attempts, hchoose]
  by_cases hreach : reachable node = true
  · left
    exact ⟨⟨node, hnode, hreach⟩, if_pos hreach⟩
  · right
    constructor
    · rintro ⟨node', hnode', hreach'⟩
      rw [hnode, Option.some.injEq] at hnode'
      rw [hnode'] at hreach
      exact hreach hreach'
    · simp only [hreach, Bool.false_eq_true, if_false, hreport]

/-! ## Loops that never repeat a node -/

/-- `visited` are the nodes a loop has tried so far. All of them are marked; in the
queue they stand behind those not tried yet; and the walk either has such a node at
the front of the queue, or has all healthy nodes ahead of it, or starts over. -/
structure Visits (c : NodeCollectionImpl) (visited : Finset Nat) : Prop where
  wellFormed : c.WellFormed
  marked : ∀ i ∈ visited, c.FaultAt i
  ahead : ∃ fresh tried, c.faultNodeIndexes = fresh ++ tried ∧ (∀ i ∈ fresh, i ∉ visited) ∧
    (∀ i ∈ tried, i ∈ visited) ∧
      (fresh ≠ [] ∨ (∀ i, c.HealthyAt i → c.nextIndex ≤ i) ∨
        (c.faultNodeIndexes = [] ∧ c.nextIndex = c.allNodes.length))

/-- Tried nodes are nodes of the collection. -/
theorem Visits.subset {visited : Finset Nat} (h : c.Visits visited) :
    visited ⊆ Finset.range c.allNodes.length :=
  fun i hi => Finset.mem_range.mpr (h.marked i hi).lt

/-- As long as a node is left, the next attempt is about a node not tried before. -/
theorem Visits.attempt {visited : Finset Nat} (h : c.Visits visited)
    (hleft : ∃ j < c.allNodes.length, j ∉ visited) (hattempt : c.FailedAttempt i failed)
    (hafter : c.AfterAttempt failed) : i ∉ visited ∧ failed.Visits (insert i visited) := by
  obtain ⟨fresh, tried, hqueue, hfresh, htried, hahead⟩ := h.ahead
  cases hattempt with
  | marked is_healthy queue index fault walk =>
    have hnot : i ∉ visited := fun hmem => is_healthy.not_faultAt (h.marked i hmem)
    refine ⟨hnot, hafter.wellFormed, ?_, fresh, tried ++ [i], ?_, ?_, ?_, ?_⟩
    · intro j hj
      rw [fault]
      rcases Finset.mem_insert.mp hj with rfl | hj
      · exact .inl rfl
      · exact .inr (h.marked j hj)
    · rw [queue, hqueue, List.append_assoc]
    · intro j hj hmem
      rcases Finset.mem_insert.mp hmem with rfl | hmem
      · -- a node in the queue is not healthy
        have hfault := (h.wellFormed.mem_fault j).mp (by rw [hqueue]; exact List.mem_append_left _ hj)
        exact is_healthy.not_faultAt hfault
      · exact hfresh j hj hmem
    · intro j hj
      rcases List.mem_append.mp hj with hj | hj
      · exact Finset.mem_insert_of_mem (htried j hj)
      · rw [List.mem_singleton.mp hj]
        exact Finset.mem_insert_self _ _
    · by_cases hnil : fresh = []
      · refine .inr (.inl fun j hj => ?_)
        rw [index]
        rw [healthyAt_iff, hafter.length, fault, not_or] at hj
        obtain ⟨hlt, hne, hnotfault⟩ := hj
        have hj : c.HealthyAt j := healthyAt_iff.mpr ⟨hlt, hnotfault⟩
        rcases walk with ⟨hle, hpassed⟩ | ⟨-, -, hzero⟩
        · have hge : c.nextIndex ≤ j := by
            rcases hahead with hne' | hge | ⟨-, hend⟩
            · exact absurd hnil hne'
            · exact hge j hj
            · exact absurd is_healthy.lt (by omega)
          by_contra hlt'
          exact hnotfault (hpassed j hge (by omega))
        · omega
      · exact .inl hnil
  | @rotated rest front queue index fault passed =>
    have hfaults : ∀ j, failed.HealthyAt j → c.HealthyAt j := by
      intro j hj
      rw [healthyAt_iff, hafter.length, fault] at hj
      exact healthyAt_iff.mpr hj
    cases fresh with
    | cons head fresh =>
      rw [hqueue, List.cons_append, List.cons.injEq] at front
      obtain ⟨rfl, hrest⟩ := front
      refine ⟨hfresh head List.mem_cons_self, hafter.wellFormed, ?_, fresh, tried ++ [head], ?_,
        ?_, ?_, .inr (.inl fun j _ => ?_)⟩
      · intro j hj
        rw [fault]
        rcases Finset.mem_insert.mp hj with rfl | hj
        · exact (h.wellFormed.mem_fault j).mp (by rw [hqueue]; exact List.mem_cons_self)
        · exact h.marked j hj
      · rw [queue, ← hrest, List.append_assoc]
      · intro j hj hmem
        rcases Finset.mem_insert.mp hmem with rfl | hmem
        · have hnodup := h.wellFormed.fault_nodup
          rw [hqueue, List.cons_append] at hnodup
          exact (List.nodup_cons.mp hnodup).1 (List.mem_append_left _ hj)
        · exact hfresh j (List.mem_cons_of_mem _ hj) hmem
      · intro j hj
        rcases List.mem_append.mp hj with hj | hj
        · exact Finset.mem_insert_of_mem (htried j hj)
        · rw [List.mem_singleton.mp hj]
          exact Finset.mem_insert_self _ _
      · rw [index]
        exact Nat.zero_le _
    | nil =>
      -- every node is marked, and every marked node was tried
      exfalso
      obtain ⟨j, hlt, hj⟩ := hleft
      refine hj (htried j ?_)
      rw [List.nil_append] at hqueue
      rw [← hqueue, h.wellFormed.mem_fault]
      by_contra hhealthy
      have hj : c.HealthyAt j := healthyAt_iff.mpr ⟨hlt, hhealthy⟩
      rcases hahead with hnil | hge | ⟨hempty, -⟩
      · exact hnil rfl
      · exact hhealthy (passed j (hge j hj) hlt)
      · rw [front] at hempty
        cases hempty

/-- A loop that never repeats a node reaches every reachable node that it has not
tried yet, if it has an attempt for each. -/
theorem attempts_of_visits {visited : Finset Nat} (h : c.Visits visited)
    (hcount : c.allNodes.length ≤ visited.card + k) (hj : c.ReachableAt reachable j)
    (hleft : j ∉ visited) : attempts reachable k c = true := by
  induction k generalizing c visited with
  | zero =>
    have hall : visited = Finset.range c.allNodes.length :=
      Finset.eq_of_subset_of_card_le h.subset (by rw [Finset.card_range]; exact hcount)
    rw [hall, Finset.mem_range] at hleft
    exact absurd hj.lt hleft
  | succ k ih =>
    obtain ⟨i, failed, -, hattempt, hafter, hcase⟩ := attempts_succ h.wellFormed reachable k
    obtain ⟨hfresh, hvisits⟩ := h.attempt ⟨j, hj.lt, hleft⟩ hattempt hafter
    rcases hcase with ⟨-, hsuccess⟩ | ⟨hunreachable, heq⟩
    · exact hsuccess
    · rw [heq]
      refine ih hvisits ?_ (hafter.reachableAt_iff.mpr hj) ?_
      · rw [hafter.length, Finset.card_insert_of_notMem hfresh]
        omega
      · rw [Finset.mem_insert, not_or]
        refine ⟨?_, hleft⟩
        rintro rfl
        exact hunreachable hj

/-! ## The start that repeats a node -/

/-- No node is marked, and the walk stands between the first node and the end. -/
def StartsInside (c : NodeCollectionImpl) : Prop :=
  c.faultNodeIndexes = [] ∧ 0 < c.nextIndex ∧ c.nextIndex < c.allNodes.length

/-- Every other start begins a loop that does not repeat a node. -/
theorem WellFormed.visits (h : c.WellFormed) (hstart : ¬ c.StartsInside) : c.Visits ∅ := by
  refine ⟨h, by simp, c.faultNodeIndexes, [], by simp, by simp, by simp, ?_⟩
  by_cases hqueue : c.faultNodeIndexes = []
  · right
    rcases Nat.eq_zero_or_pos c.nextIndex with hzero | hpos
    · left
      intro i _
      rw [hzero]
      exact Nat.zero_le i
    · right
      refine ⟨hqueue, Nat.le_antisymm h.nextIndex_le ?_⟩
      by_contra hlt
      exact hstart ⟨hqueue, hpos, Nat.lt_of_not_le hlt⟩
  · exact .inl hqueue

/-- A failed attempt with a healthy node at the walk's index is about that node. -/
theorem FailedAttempt.of_healthy (h : c.FailedAttempt i failed) (hnext : c.HealthyAt c.nextIndex) :
    i = c.nextIndex ∧ failed.nextIndex = i + 1 ∧
      failed.faultNodeIndexes = c.faultNodeIndexes ++ [i] ∧
        ∀ j, failed.FaultAt j ↔ i = j ∨ c.FaultAt j := by
  cases h with
  | marked is_healthy queue index fault walk =>
    refine ⟨?_, index, queue, fault⟩
    rcases walk with ⟨hle, hpassed⟩ | ⟨-, hend, -⟩
    · rcases Nat.eq_or_lt_of_le hle with heq | hlt
      · exact heq.symm
      · exact absurd (hpassed _ le_rfl hlt) hnext.not_faultAt
    · exact absurd hnext.lt (by omega)
  | rotated front queue index fault passed =>
    exact absurd (passed _ le_rfl hnext.lt) hnext.not_faultAt

/-- A walk over `l` healthy nodes from index `m` tries them one by one: it reaches
one of them, or marks them all and goes on behind them. -/
theorem attempts_walk {m l : Nat} (h : c.WellFormed) (hm : c.nextIndex = m)
    (hhealthy : ∀ j, m ≤ j → j < m + l → c.HealthyAt j) (reachable : Nat → Bool) (k : Nat) :
    ((∃ j, m ≤ j ∧ j < m + l ∧ c.ReachableAt reachable j) ∧
        attempts reachable (l + k) c = true) ∨
      ((∀ j, m ≤ j → j < m + l → ¬ c.ReachableAt reachable j) ∧
        ∃ walked, c.AfterAttempt walked ∧ walked.nextIndex = m + l ∧
          walked.faultNodeIndexes = c.faultNodeIndexes ++ List.range' m l ∧
            (∀ j, walked.FaultAt j ↔ (m ≤ j ∧ j < m + l) ∨ c.FaultAt j) ∧
              attempts reachable (l + k) c = attempts reachable k walked) := by
  induction l generalizing c m with
  | zero =>
    right
    refine ⟨fun j hle hlt => absurd hlt (by omega), c, ⟨h, fun _ => rfl, rfl⟩, hm, by simp, ?_, ?_⟩
    · intro j
      constructor
      · exact .inr
      · rintro (⟨hle, hlt⟩ | hfault)
        · omega
        · exact hfault
    · rw [Nat.zero_add]
  | succ l ih =>
    have hcount : l + 1 + k = l + k + 1 := by omega
    obtain ⟨i, failed, -, hattempt, hafter, hcase⟩ := attempts_succ h reachable (l + k)
    obtain ⟨hi, hindex, hqueue, hfault⟩ :=
      hattempt.of_healthy (hm ▸ hhealthy m le_rfl (by omega))
    rw [hm] at hi
    subst hi
    rw [hcount]
    rcases hcase with ⟨hreach, hsuccess⟩ | ⟨hunreachable, heq⟩
    · exact .inl ⟨⟨i, le_rfl, by omega, hreach⟩, hsuccess⟩
    · have hrest : ∀ j, i + 1 ≤ j → j < i + 1 + l → failed.HealthyAt j := by
        intro j hle hlt
        have hj := healthyAt_iff.mp (hhealthy j (by omega) (by omega))
        rw [healthyAt_iff, hafter.length, hfault, not_or]
        exact ⟨hj.1, by omega, hj.2⟩
      rw [heq]
      rcases ih hafter.wellFormed hindex hrest with ⟨⟨j, hle, hlt, hreach⟩, hsuccess⟩ | hfailed
      · left
        exact ⟨⟨j, by omega, by omega, hafter.reachableAt_iff.mp hreach⟩, hsuccess⟩
      · right
        obtain ⟨hnone, walked, hwalked, hindex', hqueue', hfault', hattempts⟩ := hfailed
        refine ⟨?_, walked, ?_, by omega, ?_, ?_, hattempts⟩
        · intro j hle hlt
          rcases Nat.eq_or_lt_of_le hle with rfl | hlt'
          · exact hunreachable
          · rw [← hafter.reachableAt_iff]
            exact hnone j hlt' (by omega)
        · exact ⟨hwalked.wellFormed, fun j => (hwalked.nodes j).trans (hafter.nodes j),
            hwalked.length.trans hafter.length⟩
        · rw [hqueue', hqueue, List.range'_succ, List.append_assoc, List.singleton_append]
        · intro j
          rw [hfault', hfault]
          constructor
          · rintro (⟨hle, hlt⟩ | rfl | hold)
            · exact .inl ⟨by omega, by omega⟩
            · exact .inl ⟨le_rfl, by omega⟩
            · exact .inr hold
          · rintro (⟨hle, hlt⟩ | hold)
            · rcases Nat.eq_or_lt_of_le hle with rfl | hlt'
              · exact .inr (.inl rfl)
              · exact .inl ⟨hlt', by omega⟩
            · exact .inr (.inr hold)

/-- Starting inside, the loop tries every node but the one before its start. -/
theorem StartsInside.attempts_iff (hstart : c.StartsInside) (h : c.WellFormed)
    (reachable : Nat → Bool) :
    attempts reachable c.allNodes.length c = true ↔
      ∃ j, c.ReachableAt reachable j ∧ j + 1 ≠ c.nextIndex := by
  obtain ⟨hqueue, hpos, hlt⟩ := hstart
  have hnofault : ∀ j, ¬ c.FaultAt j := by
    intro j hj
    have hmem := (h.mem_fault j).mpr hj
    rw [hqueue] at hmem
    cases hmem
  -- from the start to the end, then the start again, then from the first node on
  have hsplit : c.allNodes.length =
      (c.allNodes.length - c.nextIndex) + (c.nextIndex - 1 + 1) := by omega
  rw [hsplit]
  rcases attempts_walk h rfl (l := c.allNodes.length - c.nextIndex)
    (fun j _ hj => healthyAt_iff.mpr ⟨by omega, hnofault j⟩) reachable (c.nextIndex - 1 + 1) with
    ⟨⟨j, hle, -, hreach⟩, hsuccess⟩ | ⟨hnone, walked, hwalked, hindex, hqueue', hfault, hattempts⟩
  · exact iff_of_true hsuccess ⟨j, hreach, by omega⟩
  rw [hattempts]
  obtain ⟨i, failed, hi, hattempt, hafter, hcase⟩ :=
    attempts_succ hwalked.wellFormed reachable (c.nextIndex - 1)
  have hfront : walked.faultNodeIndexes = c.nextIndex ::
      List.range' (c.nextIndex + 1) (c.allNodes.length - c.nextIndex - 1) := by
    obtain ⟨d, hd⟩ : ∃ d, c.allNodes.length - c.nextIndex = d + 1 :=
      ⟨c.allNodes.length - c.nextIndex - 1, by omega⟩
    rw [hqueue', hqueue, hd, List.range'_succ]
    rfl
  have hlength := hwalked.length
  cases hattempt with
  | marked is_healthy queue index fault walk =>
    rcases walk with ⟨hle, -⟩ | ⟨hempty, -, -⟩
    · omega
    · rw [hfront] at hempty
      cases hempty
  | rotated front queue index fault passed =>
    rw [hfront, List.cons.injEq] at front
    obtain ⟨rfl, -⟩ := front
    have hstartnone := hnone c.nextIndex le_rfl (by omega)
    rcases hcase with ⟨hreach, -⟩ | ⟨-, heq⟩
    · exact absurd (hwalked.reachableAt_iff.mp hreach) hstartnone
    rw [heq]
    have hhealthy : ∀ j, 0 ≤ j → j < 0 + (c.nextIndex - 1) → failed.HealthyAt j := by
      intro j _ hj
      rw [healthyAt_iff, hafter.length, hlength, fault, hfault, not_or]
      exact ⟨by omega, by omega, hnofault j⟩
    have hreachable : ∀ j, failed.ReachableAt reachable j ↔ c.ReachableAt reachable j := fun j =>
      hafter.reachableAt_iff.trans hwalked.reachableAt_iff
    rcases attempts_walk hafter.wellFormed index hhealthy reachable 0 with
      ⟨⟨j, -, hj, hreach⟩, hsuccess⟩ | ⟨hnone', _, -, -, -, -, hfailed⟩
    · exact iff_of_true hsuccess ⟨j, (hreachable j).mp hreach, by omega⟩
    · refine iff_of_false (by rw [Nat.add_zero] at hfailed; rw [hfailed]; exact Bool.false_ne_true) ?_
      rintro ⟨j, hreach, hne⟩
      by_cases hj : c.nextIndex ≤ j
      · exact hnone j hj (by have := hreach.lt; omega) hreach
      · exact hnone' j (Nat.zero_le j) (by omega) ((hreachable j).mpr hreach)

/-- With some node reachable, as many attempts as there are nodes reach one, unless
the loop starts inside and the node before its start is the only reachable one. -/
theorem attempts_iff (h : c.WellFormed) (hreach : ∃ j, c.ReachableAt reachable j) :
    attempts reachable c.allNodes.length c = true ↔
      ¬ (c.StartsInside ∧ ∀ j, c.ReachableAt reachable j → j + 1 = c.nextIndex) := by
  obtain ⟨j, hj⟩ := hreach
  by_cases hstart : c.StartsInside
  · rw [hstart.attempts_iff h]
    constructor
    · rintro ⟨i, hi, hne⟩ ⟨-, hall⟩
      exact hne (hall i hi)
    · intro hnot
      by_contra hnone
      refine hnot ⟨hstart, fun i hi => ?_⟩
      by_contra hne
      exact hnone ⟨i, hi, hne⟩
  · refine iff_of_true ?_ fun hboth => hstart hboth.1
    exact attempts_of_visits (h.visits hstart) (by simp) hj (by simp)

end CqlDriver.NodeCollectionImpl
