import CqlDriver.Common.NodeCollection

/-!
# How often each node is chosen

Without reports in between, the choices of a collection are periodic. A lap is a walk over all
healthy nodes and then one fault node, the front of the queue. From any index on, the walk first
completes a lap that has begun. The rest of that lap comes at the end of the period, so a period
holds each part of a lap as often as there are fault nodes.

## Main definitions

* `NodeCollectionImpl.chooseNodes` — consecutive choices
* `NodeCollectionImpl.period` — how many choices belong to a period
* `NodeCollectionImpl.Fair` — how often each node is chosen, and the order of the fault nodes

## Main results

* `NodeCollectionImpl.chooses_lap` — one lap
* `NodeCollectionImpl.fair_of_reachable` — every period is fair
-/

namespace CqlDriver.NodeCollectionImpl

variable {c next mid : NodeCollectionImpl} {i j node start : Nat} {is js queue : List Nat}

/-- Consecutive calls of `chooseOneNode`, with the nodes they return. -/
def chooseNodes : Nat → NodeCollectionImpl → Except Exception (List Nat × NodeCollectionImpl)
  | 0, c => .ok ([], c)
  | k + 1, c =>
    match c.chooseOneNode with
    | .ok (node, mid) =>
      match chooseNodes k mid with
      | .ok (nodes, next) => .ok (node :: nodes, next)
      | .error ex => .error ex
    | .error ex => .error ex

/-- How many nodes are not marked as fault. -/
def healthyCount (c : NodeCollectionImpl) : Nat := c.allNodes.countP fun record => !record.isFault

/-- How many nodes are marked as fault. -/
def faultCount (c : NodeCollectionImpl) : Nat := c.allNodes.countP (·.isFault)

/-- As many laps as there are fault nodes, or one walk if there is none. -/
def period (c : NodeCollectionImpl) : Nat :=
  if c.faultCount = 0 then c.healthyCount else c.faultCount * (c.healthyCount + 1)

/-- The node is marked as fault. -/
def isFaultNode (c : NodeCollectionImpl) (node : Nat) : Bool :=
  c.allNodes.any fun record => record.node == node && record.isFault

/-- Every fault node was chosen once, in the order of the queue, and every healthy node as often
as there are fault nodes, or once if there is none. -/
structure Fair (c : NodeCollectionImpl) (chosen : List Nat) : Prop where
  fault : ∀ i node, c.nodeAt i = some node → c.FaultAt i → chosen.count node = 1
  healthy : ∀ i node, c.nodeAt i = some node → c.HealthyAt i →
    chosen.count node = if c.faultCount = 0 then 1 else c.faultCount
  rotating : chosen.filter c.isFaultNode = c.faultNodeIndexes.filterMap c.nodeAt

/-! ## Healthy indexes -/

/-- The record at the index is not marked as fault. -/
def isHealthyAt (c : NodeCollectionImpl) (i : Nat) : Bool :=
  (c.allNodes[i]?).any fun record => !record.isFault

/-- The healthy indexes from one index on. -/
def healthyFrom (c : NodeCollectionImpl) (start : Nat) : List Nat :=
  (List.range' start (c.allNodes.length - start)).filter c.isHealthyAt

/-- The healthy indexes before an index. -/
def healthyBelow (c : NodeCollectionImpl) (start : Nat) : List Nat :=
  (List.range' 0 start).filter c.isHealthyAt

@[simp] theorem isHealthyAt_iff : c.isHealthyAt i = true ↔ c.HealthyAt i := by
  simp [isHealthyAt, HealthyAt, Option.any_eq_true]

theorem mem_healthyFrom : i ∈ c.healthyFrom start ↔ start ≤ i ∧ c.HealthyAt i := by
  rw [healthyFrom, List.mem_filter, List.mem_range'_1, isHealthyAt_iff]
  constructor
  · rintro ⟨⟨hle, -⟩, hhealthy⟩
    exact ⟨hle, hhealthy⟩
  · rintro ⟨hle, hhealthy⟩
    have hlt := hhealthy.lt
    exact ⟨⟨hle, by omega⟩, hhealthy⟩

theorem healthyBelow_append (hstart : start ≤ c.allNodes.length) :
    c.healthyBelow start ++ c.healthyFrom start = c.healthyFrom 0 := by
  rw [healthyBelow, healthyFrom, healthyFrom, ← List.filter_append]
  congr 1
  have happend := @List.range'_append_1 0 start (c.allNodes.length - start)
  rw [Nat.zero_add] at happend
  rw [happend]
  congr 1
  omega

/-- The walk goes on behind its first healthy index. -/
theorem healthyFrom_eq_cons (from_start : start ≤ i) (is_healthy : c.HealthyAt i)
    (passed : ∀ j, start ≤ j → j < i → c.FaultAt j) :
    c.healthyFrom start = i :: c.healthyFrom (i + 1) := by
  have hlt := is_healthy.lt
  have hsplit : List.range' start (c.allNodes.length - start) =
      List.range' start (i - start) ++ i :: List.range' (i + 1) (c.allNodes.length - (i + 1)) := by
    have happend := @List.range'_append_1 start (i - start) (c.allNodes.length - i)
    have hi : start + (i - start) = i := by omega
    have hlength : c.allNodes.length - start = i - start + (c.allNodes.length - i) := by omega
    have hrest : c.allNodes.length - i = c.allNodes.length - (i + 1) + 1 := by omega
    rw [hlength, ← happend, hi, hrest, List.range'_succ]
  have hnone : (List.range' start (i - start)).filter c.isHealthyAt = [] := by
    refine List.filter_eq_nil_iff.mpr fun j hj => ?_
    obtain ⟨hle, hji⟩ := List.mem_range'_1.mp hj
    rw [isHealthyAt_iff]
    exact fun hhealthy => hhealthy.not_faultAt (passed j hle (by omega))
  rw [healthyFrom, hsplit, List.filter_append, hnone, List.nil_append,
    List.filter_cons_of_pos (isHealthyAt_iff.mpr is_healthy), healthyFrom]

theorem healthyFrom_eq_nil (passed : ∀ j, start ≤ j → j < c.allNodes.length → c.FaultAt j) :
    c.healthyFrom start = [] := by
  refine List.eq_nil_iff_forall_not_mem.mpr fun j hj => ?_
  obtain ⟨hle, hhealthy⟩ := mem_healthyFrom.mp hj
  exact hhealthy.not_faultAt (passed j hle hhealthy.lt)

/-- Nothing healthy is left at the end of a walk. -/
theorem not_healthyAt_of_eq_nil (hnil : c.healthyFrom start = []) (hle : start ≤ i) :
    ¬ c.HealthyAt i := by
  intro hhealthy
  have hmem : i ∈ c.healthyFrom start := mem_healthyFrom.mpr ⟨hle, hhealthy⟩
  rw [hnil] at hmem
  cases hmem

theorem nodup_healthyFrom : (c.healthyFrom start).Nodup :=
  List.Nodup.filter _ List.nodup_range'

/-- The record at every index of the range. -/
theorem countP_eq_length_filter {p : NodeRecord → Bool} :
    c.allNodes.countP p =
      ((List.range c.allNodes.length).filter fun i => (c.allNodes[i]?).any p).length := by
  have hrecords : c.allNodes.map some = (List.range c.allNodes.length).map (c.allNodes[·]?) := by
    ext i record
    by_cases hi : i < c.allNodes.length
    · simp [hi]
    · simp [hi]
  calc c.allNodes.countP p = (c.allNodes.map some).countP (Option.any p) := by
        rw [List.countP_map]
        rfl
    _ = ((List.range c.allNodes.length).map (c.allNodes[·]?)).countP (Option.any p) := by
        rw [hrecords]
    _ = _ := by
        rw [List.countP_map, List.countP_eq_length_filter]
        rfl

theorem length_healthyFrom_zero : (c.healthyFrom 0).length = c.healthyCount := by
  rw [healthyCount, countP_eq_length_filter, healthyFrom, Nat.sub_zero, List.range_eq_range']
  rfl

theorem WellFormed.length_fault_eq (h : c.WellFormed) :
    c.faultNodeIndexes.length = c.faultCount := by
  rw [faultCount, countP_eq_length_filter]
  refine List.Perm.length_eq ?_
  refine (List.perm_ext_iff_of_nodup h.fault_nodup (List.nodup_range.filter _)).mpr fun i => ?_
  rw [h.mem_fault, List.mem_filter, List.mem_range, Option.any_eq_true]
  exact ⟨fun hfault => ⟨hfault.lt, hfault⟩, fun hi => hi.2⟩

/-! ## Consecutive choices -/

/-- The collection with another index and queue. -/
def place (c : NodeCollectionImpl) (start : Nat) (queue : List Nat) : NodeCollectionImpl :=
  { c with nextIndex := start, faultNodeIndexes := queue }

theorem WellFormed.place (h : c.WellFormed) (hstart : start ≤ c.allNodes.length)
    (hqueue : queue.Perm c.faultNodeIndexes) : (c.place start queue).WellFormed :=
  { h with
    nextIndex_le := hstart
    fault_nodup := hqueue.nodup_iff.mpr h.fault_nodup
    mem_fault := fun i => hqueue.mem_iff.trans (h.mem_fault i) }

/-- Consecutive choices, with the indexes of the nodes. -/
inductive Chooses : NodeCollectionImpl → List Nat → NodeCollectionImpl → Prop
  | nil (c : NodeCollectionImpl) : Chooses c [] c
  | cons {c mid next : NodeCollectionImpl} {i node : Nat} {is : List Nat}
      (node_eq : c.nodeAt i = some node) (choose : c.chooseOneNode = .ok (node, mid))
      (same : mid.allNodes = c.allNodes) (later : Chooses mid is next) : Chooses c (i :: is) next

theorem Chooses.append (h : c.Chooses is mid) (h' : mid.Chooses js next) :
    c.Chooses (is ++ js) next := by
  induction h with
  | nil => exact h'
  | cons node_eq choose same _ ih => exact .cons node_eq choose same (ih h')

theorem Chooses.exists_of_append (h : c.Chooses (is ++ js) next) :
    ∃ mid, c.Chooses is mid ∧ mid.Chooses js next := by
  induction is generalizing c with
  | nil => exact ⟨c, .nil c, h⟩
  | cons i is ih =>
    cases h with
    | cons node_eq choose same later =>
      obtain ⟨mid, hfirst, hsecond⟩ := ih later
      exact ⟨mid, .cons node_eq choose same hfirst, hsecond⟩

/-- The calls return the nodes at these indexes. -/
theorem Chooses.chooseNodes_eq (h : c.Chooses is next) :
    c.chooseNodes is.length = .ok (is.filterMap c.nodeAt, next) := by
  induction h with
  | nil => rfl
  | @cons c mid next i node is node_eq choose same later ih =>
    have hnodes : mid.nodeAt = c.nodeAt := by
      funext k
      rw [nodeAt, nodeAt, same]
    rw [hnodes] at ih
    rw [List.length_cons, chooseNodes, choose]
    dsimp only
    rw [ih, List.filterMap_cons_some node_eq]

/-! ## Laps -/

/-- The walk over the healthy indexes behind the start. -/
theorem chooses_walk (h : c.WellFormed) (hqueue : queue.Perm c.faultNodeIndexes)
    (hstart : start ≤ c.allNodes.length) :
    ∃ stop, stop ≤ c.allNodes.length ∧ c.healthyFrom stop = [] ∧
      (c.place start queue).Chooses (c.healthyFrom start) (c.place stop queue) := by
  induction hleft : c.allNodes.length - start using Nat.strong_induction_on generalizing start with
  | _ left ih =>
    obtain ⟨i, node, next, hnode, hchoose, hstep⟩ := chooseOneNode_spec (h.place hstart hqueue)
    have hsame := hstep.allNodes_eq
    cases hstep with
    | healthy from_start is_healthy passed =>
      have hle : start ≤ i := from_start
      have hhealthy : c.HealthyAt i := is_healthy
      have hlt := hhealthy.lt
      have hpassed : ∀ j, start ≤ j → j < i → c.FaultAt j := passed
      obtain ⟨stop, hstop, hnil, hchooses⟩ := ih (c.allNodes.length - (i + 1)) (by omega) hlt rfl
      refine ⟨stop, hstop, hnil, ?_⟩
      rw [healthyFrom_eq_cons hle hhealthy hpassed]
      exact .cons hnode hchoose hsame hchooses
    | retry front passed =>
      -- nothing healthy is left
      have hnil : c.healthyFrom start = [] := healthyFrom_eq_nil passed
      rw [hnil]
      exact ⟨start, hstart, hnil, .nil _⟩
    | restart empty at_end is_healthy =>
      have hend : start = c.allNodes.length := at_end
      have hnil : c.healthyFrom start = [] :=
        healthyFrom_eq_nil fun j hj hjn => absurd hjn (by omega)
      rw [hnil]
      exact ⟨start, hstart, hnil, .nil _⟩

/-- The healthy indexes behind the start, then the front of the queue. -/
theorem chooses_lap (h : c.WellFormed) (hqueue : (i :: queue).Perm c.faultNodeIndexes)
    (hstart : start ≤ c.allNodes.length) :
    (c.place start (i :: queue)).Chooses (c.healthyFrom start ++ [i])
      (c.place 0 (queue ++ [i])) := by
  obtain ⟨stop, hstop, hnil, hwalk⟩ := chooses_walk h hqueue hstart
  refine hwalk.append ?_
  obtain ⟨j, node, next, hnode, hchoose, hstep⟩ := chooseOneNode_spec (h.place hstop hqueue)
  have hsame := hstep.allNodes_eq
  cases hstep with
  | healthy from_stop is_healthy _ =>
    exact absurd is_healthy (not_healthyAt_of_eq_nil hnil from_stop)
  | retry front passed =>
    cases front
    exact .cons hnode hchoose hsame (.nil _)
  | restart empty _ _ => cases empty

/-- A lap for every index of the first part of the queue. -/
theorem chooses_laps (h : c.WellFormed) (hqueue : (is ++ queue).Perm c.faultNodeIndexes) :
    (c.place 0 (is ++ queue)).Chooses (is.flatMap fun i => c.healthyFrom 0 ++ [i])
      (c.place 0 (queue ++ is)) := by
  induction is generalizing queue with
  | nil =>
    rw [List.append_nil]
    exact .nil _
  | cons i is ih =>
    have hrotated : (is ++ (queue ++ [i])).Perm c.faultNodeIndexes := by
      rw [← List.append_assoc]
      exact (List.perm_append_singleton i (is ++ queue)).trans hqueue
    have hlater := ih hrotated
    rw [List.append_assoc, List.singleton_append] at hlater
    rw [List.flatMap_cons]
    have hlap := chooses_lap h (by simpa using hqueue) (Nat.zero_le c.allNodes.length)
    rw [List.append_assoc] at hlap
    exact hlap.append hlater

/-- A period: the lap that has begun, the laps for the rest of the queue, and what was missing in
front of the first. -/
theorem chooses_period (h : c.WellFormed) (hqueue : c.faultNodeIndexes = i :: queue) :
    ∃ next, c.Chooses (c.healthyFrom c.nextIndex ++ [i] ++
      (queue.flatMap fun i => c.healthyFrom 0 ++ [i]) ++ c.healthyBelow c.nextIndex) next := by
  have hfirst := chooses_lap h (List.Perm.of_eq hqueue.symm) h.nextIndex_le
  have hrotated : (queue ++ [i]).Perm c.faultNodeIndexes := by
    rw [hqueue]
    exact List.perm_append_singleton i queue
  have hlaps := chooses_laps h hrotated
  obtain ⟨stop, -, -, hwalk⟩ :=
    chooses_walk h (List.Perm.of_eq hqueue.symm) (Nat.zero_le c.allNodes.length)
  rw [← healthyBelow_append h.nextIndex_le] at hwalk
  obtain ⟨next, hbelow, -⟩ := hwalk.exists_of_append
  have hhere : c.place c.nextIndex (i :: queue) = c := by rw [← hqueue]; rfl
  rw [hhere] at hfirst
  exact ⟨next, (hfirst.append hlaps).append hbelow⟩

/-- A period of a collection without fault nodes. -/
theorem chooses_period_of_nil (h : c.WellFormed) (hqueue : c.faultNodeIndexes = []) :
    ∃ next, c.Chooses (c.healthyFrom c.nextIndex ++ c.healthyBelow c.nextIndex) next := by
  have hperm : [].Perm c.faultNodeIndexes := List.Perm.of_eq hqueue.symm
  obtain ⟨stop, hstop, hnil, hwalk⟩ := chooses_walk h hperm h.nextIndex_le
  have hhere : c.place c.nextIndex [] = c := by rw [← hqueue]; rfl
  rw [hhere] at hwalk
  obtain ⟨j, node, next, hnode, hchoose, hstep⟩ := chooseOneNode_spec (h.place hstop hperm)
  have hsame := hstep.allNodes_eq
  cases hstep with
  | healthy from_stop is_healthy _ =>
    exact absurd is_healthy (not_healthyAt_of_eq_nil hnil from_stop)
  | retry front _ => cases front
  | restart empty at_end is_healthy =>
    -- the walk starts over at the first node
    obtain ⟨last, -, -, hover⟩ := chooses_walk h hperm (show 1 ≤ c.allNodes.length from h.nonempty)
    have hall : (c.place stop []).Chooses (0 :: c.healthyFrom 1) (c.place last []) :=
      .cons hnode hchoose hsame hover
    have hzero : c.HealthyAt 0 := is_healthy
    rw [← healthyFrom_eq_cons (le_refl 0) hzero fun j _ hj => absurd hj (Nat.not_lt_zero j),
      ← healthyBelow_append h.nextIndex_le] at hall
    obtain ⟨wrapped, hbelow, -⟩ := hall.exists_of_append
    exact ⟨wrapped, hwalk.append hbelow⟩

/-! ## Counting -/

theorem count_healthyFrom (hhealthy : c.HealthyAt i) : (c.healthyFrom 0).count i = 1 :=
  List.count_eq_one_of_mem nodup_healthyFrom (mem_healthyFrom.mpr ⟨Nat.zero_le i, hhealthy⟩)

theorem count_healthyFrom_of_faultAt (hfault : c.FaultAt i) : (c.healthyFrom 0).count i = 0 :=
  List.count_eq_zero.mpr fun hmem => (mem_healthyFrom.mp hmem).2.not_faultAt hfault

theorem count_laps : (queue.flatMap fun i => is ++ [i]).count j =
    queue.length * is.count j + queue.count j := by
  induction queue with
  | nil => simp
  | cons i queue ih =>
    simp only [List.flatMap_cons, List.count_append, ih, List.length_cons, List.count_cons,
      List.count_nil, Nat.succ_mul]
    omega

theorem WellFormed.nodeAt_inj (h : c.WellFormed) (hi : c.nodeAt i = some node)
    (hj : c.nodeAt j = some node) : i = j :=
  Option.some.inj ((h.getNodeRecord_eq hi).symm.trans (h.getNodeRecord_eq hj))

/-- A node is as often among the nodes as its index among the indexes. -/
theorem WellFormed.count_filterMap (h : c.WellFormed) (hnode : c.nodeAt i = some node) :
    (is.filterMap c.nodeAt).count node = is.count i := by
  induction is with
  | nil => rfl
  | cons j is ih =>
    by_cases hji : j = i
    · subst hji
      rw [List.filterMap_cons_some hnode, List.count_cons_self, List.count_cons_self, ih]
    · rw [List.count_cons_of_ne hji]
      cases hother : c.nodeAt j with
      | none => rw [List.filterMap_cons_none hother, ih]
      | some other =>
        have hne : other ≠ node := by
          rintro rfl
          exact hji (h.nodeAt_inj hother hnode)
        rw [List.filterMap_cons_some hother, List.count_cons_of_ne hne, ih]

theorem WellFormed.isFaultNode_iff (h : c.WellFormed) (hnode : c.nodeAt i = some node) :
    c.isFaultNode node = true ↔ c.FaultAt i := by
  rw [isFaultNode, List.any_eq_true]
  constructor
  · rintro ⟨record, hrecord, hfault⟩
    rw [Bool.and_eq_true, beq_iff_eq] at hfault
    obtain ⟨j, hj⟩ := List.mem_iff_getElem?.mp hrecord
    have hnode' : c.nodeAt j = some node := by rw [nodeAt, hj, Option.map_some, hfault.1]
    rw [h.nodeAt_inj hnode hnode']
    exact ⟨record, hj, hfault.2⟩
  · rintro ⟨record, hrecord, hfault⟩
    rw [nodeAt, hrecord, Option.map_some, Option.some.injEq] at hnode
    exact ⟨record, List.mem_of_getElem? hrecord, by simp [hnode, hfault]⟩

/-- The fault nodes are those of the indexes that are not healthy. -/
theorem WellFormed.filter_filterMap (h : c.WellFormed) (hin : ∀ i ∈ is, i < c.allNodes.length) :
    (is.filterMap c.nodeAt).filter c.isFaultNode =
      (is.filter fun i => !c.isHealthyAt i).filterMap c.nodeAt := by
  induction is with
  | nil => rfl
  | cons i is ih =>
    have hlt := hin i List.mem_cons_self
    have hlater := ih fun j hj => hin j (List.mem_cons_of_mem i hj)
    obtain ⟨node, hnode⟩ := exists_nodeAt hlt
    rw [List.filterMap_cons_some hnode]
    rcases healthyAt_or_faultAt hlt with hhealthy | hfault
    · have hnot : ¬ c.isFaultNode node = true := fun hf =>
        hhealthy.not_faultAt ((h.isFaultNode_iff hnode).mp hf)
      rw [List.filter_cons_of_neg hnot, List.filter_cons_of_neg (by simpa using hhealthy), hlater]
    · have hnot : ¬ c.HealthyAt i := fun hhealthy => hhealthy.not_faultAt hfault
      rw [List.filter_cons_of_pos ((h.isFaultNode_iff hnode).mpr hfault),
        List.filter_cons_of_pos (by simpa [Bool.eq_false_iff] using hnot), List.filterMap_cons_some hnode, hlater]

theorem filter_healthyFrom : (c.healthyFrom start).filter (fun i => !c.isHealthyAt i) = [] := by
  refine List.filter_eq_nil_iff.mpr fun i hi => ?_
  simpa using (mem_healthyFrom.mp hi).2

theorem filter_healthyBelow : (c.healthyBelow start).filter (fun i => !c.isHealthyAt i) = [] := by
  refine List.filter_eq_nil_iff.mpr fun i hi => ?_
  simpa using (List.mem_filter.mp hi).2

theorem filter_fault (hfault : ∀ i ∈ queue, c.FaultAt i) :
    queue.filter (fun i => !c.isHealthyAt i) = queue := by
  refine List.filter_eq_self.mpr fun i hi => ?_
  have hnot : ¬ c.HealthyAt i := fun hhealthy => hhealthy.not_faultAt (hfault i hi)
  simpa [Bool.eq_false_iff] using hnot

theorem filter_laps (hfault : ∀ i ∈ queue, c.FaultAt i) :
    (queue.flatMap fun i => c.healthyFrom 0 ++ [i]).filter (fun i => !c.isHealthyAt i) = queue := by
  induction queue with
  | nil => rfl
  | cons i queue ih =>
    rw [List.flatMap_cons, List.filter_append, List.filter_append, filter_healthyFrom,
      filter_fault (show ∀ j ∈ [i], c.FaultAt j from fun j hj =>
        hfault j (List.mem_singleton.mp hj ▸ List.mem_cons_self)),
      ih fun j hj => hfault j (List.mem_cons_of_mem i hj)]
    rfl

theorem length_laps : (queue.flatMap fun i => is ++ [i]).length = queue.length * (is.length + 1) := by
  induction queue with
  | nil => simp
  | cons i queue ih =>
    simp only [List.flatMap_cons, List.length_append, ih, List.length_cons, List.length_nil,
      Nat.succ_mul]
    omega

/-! ## Periods -/

theorem Chooses.lt_of_mem (h : c.Chooses is next) (hi : i ∈ is) : i < c.allNodes.length := by
  induction h with
  | nil => cases hi
  | cons node_eq choose same later ih =>
    rcases List.mem_cons.mp hi with rfl | hlater
    · exact lt_of_nodeAt node_eq
    · rw [← same]
      exact ih hlater

/-- Fairness, seen at the indexes. -/
theorem WellFormed.fair (h : c.WellFormed) (hchooses : c.Chooses is next)
    (hfault : ∀ i, c.FaultAt i → is.count i = 1)
    (hhealthy : ∀ i, c.HealthyAt i → is.count i = if c.faultCount = 0 then 1 else c.faultCount)
    (hrotating : is.filter (fun i => !c.isHealthyAt i) = c.faultNodeIndexes) :
    c.Fair (is.filterMap c.nodeAt) where
  fault i node hnode hi := by rw [h.count_filterMap hnode, hfault i hi]
  healthy i node hnode hi := by rw [h.count_filterMap hnode, hhealthy i hi]
  rotating := by rw [h.filter_filterMap fun i hi => hchooses.lt_of_mem hi, hrotating]

/-- A period without fault nodes is a walk over all nodes. -/
theorem WellFormed.fair_of_nil (h : c.WellFormed) (hqueue : c.faultNodeIndexes = []) :
    ∃ chosen next, c.chooseNodes c.period = .ok (chosen, next) ∧ c.Fair chosen := by
  obtain ⟨next, hchooses⟩ := chooses_period_of_nil h hqueue
  have hcount : c.faultCount = 0 := by rw [← h.length_fault_eq, hqueue, List.length_nil]
  have hwalk : (c.healthyFrom c.nextIndex ++ c.healthyBelow c.nextIndex).Perm (c.healthyFrom 0) := by
    rw [← healthyBelow_append h.nextIndex_le]
    exact List.perm_append_comm
  refine ⟨_, next, ?_, h.fair hchooses (fun i hi => ?_) (fun i hi => ?_) ?_⟩
  · rw [period, if_pos hcount, ← length_healthyFrom_zero, ← hwalk.length_eq]
    exact hchooses.chooseNodes_eq
  · -- a fault node would be in the queue
    have hmem := (h.mem_fault i).mpr hi
    rw [hqueue] at hmem
    cases hmem
  · rw [hwalk.count_eq, count_healthyFrom hi, if_pos hcount]
  · rw [List.filter_append, filter_healthyFrom, filter_healthyBelow, hqueue]
    rfl

/-- A period with fault nodes. -/
theorem WellFormed.fair_of_cons (h : c.WellFormed) (hqueue : c.faultNodeIndexes = i :: queue) :
    ∃ chosen next, c.chooseNodes c.period = .ok (chosen, next) ∧ c.Fair chosen := by
  obtain ⟨next, hchooses⟩ := chooses_period h hqueue
  have hcount : c.faultCount = queue.length + 1 := by
    rw [← h.length_fault_eq, hqueue, List.length_cons]
  have hpositive : c.faultCount ≠ 0 := by omega
  have hnodup : (i :: queue).Nodup := hqueue ▸ h.fault_nodup
  have hall : ∀ j ∈ i :: queue, c.FaultAt j := fun j hj => (h.mem_fault j).mp (hqueue ▸ hj)
  -- the parts of the first lap are one walk
  have hwalk := healthyBelow_append h.nextIndex_le
  have hcounts : ∀ j, (c.healthyFrom c.nextIndex ++ [i] ++
      (queue.flatMap fun i => c.healthyFrom 0 ++ [i]) ++ c.healthyBelow c.nextIndex).count j =
        c.faultCount * (c.healthyFrom 0).count j + (i :: queue).count j := by
    intro j
    have hj : (c.healthyBelow c.nextIndex).count j + (c.healthyFrom c.nextIndex).count j =
        (c.healthyFrom 0).count j := by
      rw [← hwalk, List.count_append]
    rw [List.count_append, List.count_append, List.count_append, count_laps, hcount, Nat.succ_mul,
      ← hj, List.count_cons, List.count_cons, List.count_nil]
    omega
  refine ⟨_, next, ?_, h.fair hchooses (fun j hj => ?_) (fun j hj => ?_) ?_⟩
  · have hlength : (c.healthyBelow c.nextIndex).length + (c.healthyFrom c.nextIndex).length =
        c.healthyCount := by
      rw [← length_healthyFrom_zero, ← hwalk, List.length_append]
    have hperiod : c.period = (c.healthyFrom c.nextIndex ++ [i] ++
        (queue.flatMap fun i => c.healthyFrom 0 ++ [i]) ++ c.healthyBelow c.nextIndex).length := by
      rw [period, if_neg hpositive, hcount, List.length_append, List.length_append,
        List.length_append, length_laps, length_healthyFrom_zero, List.length_singleton,
        Nat.succ_mul]
      omega
    rw [hperiod]
    exact hchooses.chooseNodes_eq
  · have hmem : j ∈ i :: queue := hqueue ▸ (h.mem_fault j).mpr hj
    rw [hcounts, count_healthyFrom_of_faultAt hj, List.count_eq_one_of_mem hnodup hmem]
    omega
  · have hnot : j ∉ i :: queue := fun hmem => hj.not_faultAt (hall j hmem)
    rw [hcounts, count_healthyFrom hj, List.count_eq_zero.mpr hnot, if_neg hpositive]
    omega
  · rw [List.filter_append, List.filter_append, List.filter_append, filter_healthyFrom,
      filter_healthyBelow, filter_laps fun j hj => hall j (List.mem_cons_of_mem i hj),
      filter_fault (show ∀ j ∈ [i], c.FaultAt j from fun j hj =>
        hall j (List.mem_singleton.mp hj ▸ List.mem_cons_self)),
      hqueue]
    simp

/-- From every state, a period of choices returns every fault node once, in the order of the
queue, and every healthy node as often as there are fault nodes. -/
theorem fair_of_reachable (h : system.Reachable c) :
    ∃ chosen next, c.chooseNodes c.period = .ok (chosen, next) ∧ c.Fair chosen := by
  have hwell := wellFormed_of_reachable h
  cases hqueue : c.faultNodeIndexes with
  | nil => exact hwell.fair_of_nil hqueue
  | cons i queue => exact hwell.fair_of_cons hqueue

/-- Four nodes, two of them fault. -/
theorem fair_of_reachable_four : ∃ c, system.Reachable c ∧ c.period = 6 ∧
    ∃ chosen next, c.chooseNodes c.period = .ok (chosen, next) ∧ c.Fair chosen := by
  have hrun : (system.run ⟨[⟨1, false⟩, ⟨2, false⟩, ⟨3, false⟩, ⟨4, false⟩], 0, [], 4⟩
      [.chooseOneNode, .reportFailure 3, .reportFailure 1]).map period = some 6 := by decide
  obtain ⟨c, hc, hperiod⟩ := Option.map_eq_some_iff.mp hrun
  have hreachable : system.Reachable c :=
    Math.TransitionSystem.reachable_of_run ⟨[1, 2, 3, 4], by decide, by decide⟩ hc
  exact ⟨c, hreachable, hperiod, fair_of_reachable hreachable⟩

end CqlDriver.NodeCollectionImpl
