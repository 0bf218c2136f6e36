import CqlDriver.Pool.Streams

/-!
# Dropping idle connections

A tick of the timer removes the closed connections and, while more than `minPoolSize` seem to be
left, the ready ones whose streams are all free. The count that this is compared with starts
with all connections of the pool, so a closed connection counts as long as the pass has not
come to it, and an idle one in front of it may be dropped in its place.

## Main definitions

* `ConnectionPool.isIdle`, `ConnectionPool.isBusy` — ready connections without and with streams
  in use
* `ConnectionPool.SweepsWell` — no busy connection is removed and enough ready ones are left
* `ConnectionPool.ClosedInFront` — not too many closed connections stand behind the idle ones

## Main results

* `ConnectionPool.countP_removeIdle_iff` — how many connections a pass removes
* `ConnectionPool.sweepsWell_iff` — when a tick leaves enough ready connections
-/

namespace CqlDriver.ConnectionPool

variable (nodeConfiguration : Nat → NodeConfiguration) (config : SessionConfiguration)

/-- How many streams of a connection are in use, stream zero excepted. -/
def streamsInUse (p : ConnectionPool) (id : Nat) : Nat :=
  match p.connections[id]? with
  | some connection =>
    (nodeConfiguration connection.node).maxStreams - 1 - connection.getFreeStreamsCount
  | none => 0

/-- The connection is ready and has a stream in use. -/
def isBusy (p : ConnectionPool) (id : Nat) : Bool :=
  p.isReady id && decide (0 < p.streamsInUse nodeConfiguration id)

/-- The connection is ready and all its streams are free. -/
def isIdle (p : ConnectionPool) (id : Nat) : Bool :=
  p.isReady id && p.isAllStreamsFree nodeConfiguration id

/-- The connection is closed. -/
def isClosed (p : ConnectionPool) (id : Nat) : Bool := !p.isReady id

/-- How many connections of the pool are ready. -/
def readyCount (p : ConnectionPool) : Nat := p.allConnections.countP p.isReady

/-- No ready connection with a stream in use is removed, and as many ready connections as the
pool should have are left, if there were so many. -/
structure SweepsWell (p q : ConnectionPool) : Prop where
  busy : q.allConnections.filter (p.isBusy nodeConfiguration) =
    p.allConnections.filter (p.isBusy nodeConfiguration)
  enough : min config.minPoolSize p.readyCount ≤ q.readyCount

/-- Behind the idle connections that should stay, there are no more closed ones than the pool
has ready ones too few. -/
def ClosedInFront (p : ConnectionPool) : Prop :=
  ∀ before id after, p.allConnections = before ++ id :: after →
    p.isIdle nodeConfiguration id = true →
    p.readyCount - config.minPoolSize ≤ before.countP (p.isIdle nodeConfiguration) →
    after.countP p.isClosed ≤ config.minPoolSize - p.readyCount

variable {nodeConfiguration config} {p : ConnectionPool} {id existCount : Nat} {pool : List Nat}

theorem isAllStreamsFree_of_isBusy (h : p.isBusy nodeConfiguration id = true) :
    p.isAllStreamsFree nodeConfiguration id = false := by
  rw [isBusy, Bool.and_eq_true, decide_eq_true_eq] at h
  obtain ⟨-, hused⟩ := h
  rw [isAllStreamsFree]
  cases hconnection : p.connections[id]? with
  | none => rfl
  | some connection =>
    simp only [streamsInUse, hconnection, Connection.getFreeStreamsCount] at hused
    simp only [Connection.isAllStreamsFree, decide_eq_false_iff_not]
    omega

/-! ## One connection of a pass -/

theorem isIdle_of_ready (h : p.isReady id = true) :
    p.isIdle nodeConfiguration id = p.isAllStreamsFree nodeConfiguration id := by
  rw [isIdle, h, Bool.true_and]

theorem removeIdle_of_closed (h : p.isReady id = false) :
    (removeIdle nodeConfiguration config p existCount (id :: pool)).1 =
      (removeIdle nodeConfiguration config p (existCount - 1) pool).1 := by
  rw [removeIdle, h]
  rfl

theorem removeIdle_of_idle (h : p.isIdle nodeConfiguration id = true)
    (hover : config.minPoolSize < existCount) :
    (removeIdle nodeConfiguration config p existCount (id :: pool)).1 =
      (removeIdle nodeConfiguration config p (existCount - 1) pool).1 := by
  rw [isIdle, Bool.and_eq_true] at h
  rw [removeIdle, h.2, decide_eq_true hover, Bool.and_self, Bool.or_true]
  rfl

theorem removeIdle_of_kept (h : p.isReady id = true)
    (hkept : p.isIdle nodeConfiguration id = true → existCount ≤ config.minPoolSize) :
    (removeIdle nodeConfiguration config p existCount (id :: pool)).1 =
      id :: (removeIdle nodeConfiguration config p existCount pool).1 := by
  have hnot : (decide (config.minPoolSize < existCount) &&
      p.isAllStreamsFree nodeConfiguration id) = false := by
    rw [← isIdle_of_ready h, Bool.and_eq_false_iff, decide_eq_false_iff_not]
    cases hidle : p.isIdle nodeConfiguration id with
    | true => exact .inl (Nat.not_lt.mpr (hkept hidle))
    | false => exact .inr rfl
  rw [removeIdle, h, hnot]
  rfl

/-- A pass keeps the connections with a stream in use. -/
theorem filter_removeIdle (existCount : Nat) (pool : List Nat) :
    (removeIdle nodeConfiguration config p existCount pool).1.filter (p.isBusy nodeConfiguration) =
      pool.filter (p.isBusy nodeConfiguration) := by
  induction pool generalizing existCount with
  | nil => rfl
  | cons id pool ih =>
    cases hready : p.isReady id with
    | false =>
      have hnot : ¬ p.isBusy nodeConfiguration id = true := by simp [isBusy, hready]
      rw [removeIdle_of_closed hready, ih, List.filter_cons_of_neg hnot]
    | true =>
      by_cases hdropped : p.isIdle nodeConfiguration id = true ∧ config.minPoolSize < existCount
      · have hnot : ¬ p.isBusy nodeConfiguration id = true := by
          intro hbusy
          have hfree := isIdle_of_ready hready ▸ hdropped.1
          rw [isAllStreamsFree_of_isBusy hbusy] at hfree
          cases hfree
        rw [removeIdle_of_idle hdropped.1 hdropped.2, ih, List.filter_cons_of_neg hnot]
      · have hkept := fun hidle => Nat.not_lt.mp fun hover => hdropped ⟨hidle, hover⟩
        rw [removeIdle_of_kept hready hkept, List.filter_cons, List.filter_cons, ih]

/-- A pass that starts at the limit removes closed connections only. -/
theorem countP_removeIdle_of_le (h : existCount ≤ config.minPoolSize) :
    (removeIdle nodeConfiguration config p existCount pool).1.countP p.isReady =
      pool.countP p.isReady := by
  induction pool generalizing existCount with
  | nil => rfl
  | cons id pool ih =>
    cases hready : p.isReady id with
    | false =>
      rw [removeIdle_of_closed hready, ih ((Nat.sub_le _ _).trans h),
        List.countP_cons_of_neg (by simp [hready])]
    | true =>
      rw [removeIdle_of_kept hready fun _ => h, List.countP_cons_of_pos hready,
        List.countP_cons_of_pos hready, ih h]

/-- A pass with enough connections at hand removes at most `spare` idle ones exactly if it is at
the limit whenever it comes to a further one. -/
theorem countP_removeIdle_iff {spare : Nat} (hlength : pool.length ≤ existCount)
    (hspare : spare = 0 ∨
      config.minPoolSize + spare + pool.countP p.isClosed ≤ existCount) :
    pool.countP p.isReady ≤
        spare + (removeIdle nodeConfiguration config p existCount pool).1.countP p.isReady ↔
      ∀ before id after, pool = before ++ id :: after → p.isIdle nodeConfiguration id = true →
        spare ≤ before.countP (p.isIdle nodeConfiguration) →
        existCount ≤ config.minPoolSize + spare + before.countP p.isClosed := by
  induction pool generalizing existCount spare with
  | nil => simp [removeIdle]
  | cons first pool ih =>
    rw [List.length_cons] at hlength
    rw [List.countP_cons] at hspare
    rw [Math.forall_append_cons_iff]
    simp only [List.countP_nil, List.countP_cons]
    cases hready : p.isReady first with
    | false =>
      have hclosed : p.isClosed first = true := by simp [isClosed, hready]
      have hnot : p.isIdle nodeConfiguration first = false := by simp [isIdle, hready]
      rw [hclosed, if_pos rfl] at hspare
      have hlater := @ih (existCount - 1) spare (by omega) (by omega)
      rw [removeIdle_of_closed hready]
      simp only [hclosed, hnot, Bool.false_eq_true, if_false, if_true, false_imp_iff, true_and,
        Nat.add_zero, hlater]
      exact forall₃_congr fun before id after => forall₃_congr fun _ _ _ => by omega
    | true =>
      have hopen : p.isClosed first = false := by simp [isClosed, hready]
      rw [hopen, if_neg Bool.false_ne_true, Nat.add_zero] at hspare
      cases hidle : p.isIdle nodeConfiguration first with
      | false =>
        have hlater := @ih existCount spare (by omega) hspare
        rw [removeIdle_of_kept hready fun h => absurd (hidle ▸ h) Bool.false_ne_true,
          List.countP_cons_of_pos hready]
        simp only [hopen, Bool.false_eq_true, if_false, if_true, false_imp_iff, true_and,
          Nat.add_zero, ← hlater]
        omega
      | true =>
        by_cases hover : config.minPoolSize < existCount
        · rw [removeIdle_of_idle hidle hover]
          simp only [hopen, Bool.false_eq_true, if_false, if_true, Nat.add_zero, true_imp_iff]
          cases spare with
          | zero =>
            -- this one is one too many
            have hsublist :
                (removeIdle nodeConfiguration config p (existCount - 1) pool).1.Sublist pool :=
              removeIdle_sublist _ _
            have hle : _ ≤ pool.countP p.isReady := hsublist.countP_le
            constructor
            · intro h
              omega
            · intro h
              have := h.1 (Nat.le_refl 0)
              omega
          | succ spare =>
            have hlater := @ih (existCount - 1) spare (by omega) (by omega)
            have hcount : pool.countP p.isReady + 1 ≤ spare + 1 +
                (removeIdle nodeConfiguration config p (existCount - 1) pool).1.countP p.isReady ↔
                pool.countP p.isReady ≤ spare +
                  (removeIdle nodeConfiguration config p (existCount - 1) pool).1.countP p.isReady := by
              omega
            rw [hcount, hlater]
            constructor
            · intro h
              refine ⟨fun hle => absurd hle (by omega), fun before id after hpool hid hle => ?_⟩
              have := h before id after hpool hid (by omega)
              omega
            · rintro ⟨-, h⟩ before id after hpool hid hle
              have := h before id after hpool hid (by omega)
              omega
        · -- the limit is reached, and nothing idle is removed any more
          have hle := Nat.not_lt.mp hover
          rw [removeIdle_of_kept hready fun _ => hle, List.countP_cons_of_pos hready,
            countP_removeIdle_of_le hle]
          constructor
          · exact fun _ => ⟨fun _ _ => by omega, fun _ _ _ _ _ _ => by omega⟩
          · intro _
            rw [if_pos rfl]
            omega

/-! ## A tick -/

theorem dropIdleTick_allConnections : (p.dropIdleTick nodeConfiguration config).allConnections =
    if p.allConnections.length ≤ config.minPoolSize then p.allConnections
    else (removeIdle nodeConfiguration config p p.allConnections.length p.allConnections).1 := by
  rw [dropIdleTick]
  dsimp only
  split
  · rfl
  · rfl

theorem dropIdleTick_readyCount : (p.dropIdleTick nodeConfiguration config).readyCount =
    (p.dropIdleTick nodeConfiguration config).allConnections.countP p.isReady := by
  rw [readyCount]
  congr 1
  funext id
  rw [dropIdleTick]
  dsimp only
  split
  · rfl
  · rfl

theorem readyCount_add_closed : p.readyCount + p.allConnections.countP p.isClosed =
    p.allConnections.length := by
  have hclosed : p.isClosed = fun id => decide ¬ p.isReady id = true := by
    funext id
    cases hready : p.isReady id with
    | false => simp [isClosed, hready]
    | true => simp [isClosed, hready]
  rw [readyCount, hclosed]
  exact (List.length_eq_countP_add_countP p.isReady).symm

/-- A tick leaves enough ready connections exactly if not too many closed ones stand behind the
idle ones that should stay. -/
theorem sweepsWell_iff (nodeConfiguration : Nat → NodeConfiguration) (config : SessionConfiguration)
    (p : ConnectionPool) :
    p.SweepsWell nodeConfiguration config (p.dropIdleTick nodeConfiguration config) ↔
      p.ClosedInFront nodeConfiguration config := by
  have htotal := @readyCount_add_closed p
  have hbusy : (p.dropIdleTick nodeConfiguration config).allConnections.filter
      (p.isBusy nodeConfiguration) = p.allConnections.filter (p.isBusy nodeConfiguration) := by
    rw [dropIdleTick_allConnections]
    split
    · rfl
    · exact filter_removeIdle _ _
  have hsplit : ∀ before id after, p.allConnections = before ++ id :: after →
      p.isIdle nodeConfiguration id = true →
        p.allConnections.countP p.isClosed = before.countP p.isClosed + after.countP p.isClosed := by
    intro before id after hpool hidle
    have hopen : ¬ p.isClosed id = true := by
      rw [isIdle, Bool.and_eq_true] at hidle
      simp [isClosed, hidle.1]
    rw [hpool, List.countP_append, List.countP_cons_of_neg hopen]
  by_cases hsmall : p.allConnections.length ≤ config.minPoolSize
  · -- nothing is removed, and the pool has as few connections as that
    refine iff_of_true ⟨hbusy, ?_⟩ fun before id after hpool hidle _ => ?_
    · rw [dropIdleTick_readyCount, dropIdleTick_allConnections, if_pos hsmall]
      exact min_le_right _ _
    · have := hsplit before id after hpool hidle
      omega
  · have hremoved := @countP_removeIdle_iff nodeConfiguration config p p.allConnections.length
      p.allConnections (p.readyCount - config.minPoolSize) (Nat.le_refl _) (by omega)
    have henough : min config.minPoolSize p.readyCount ≤
        (p.dropIdleTick nodeConfiguration config).readyCount ↔
        p.allConnections.countP p.isReady ≤ p.readyCount - config.minPoolSize +
          (removeIdle nodeConfiguration config p p.allConnections.length
            p.allConnections).1.countP p.isReady := by
      rw [dropIdleTick_readyCount, dropIdleTick_allConnections, if_neg hsmall,
        show p.allConnections.countP p.isReady = p.readyCount from rfl]
      omega
    have hwell : p.SweepsWell nodeConfiguration config (p.dropIdleTick nodeConfiguration config) ↔
        min config.minPoolSize p.readyCount ≤
          (p.dropIdleTick nodeConfiguration config).readyCount :=
      ⟨fun h => h.enough, fun h => ⟨hbusy, h⟩⟩
    rw [hwell, henough, hremoved]
    refine forall₃_congr fun before id after => forall₂_congr fun hpool hidle => ?_
    have := hsplit before id after hpool hidle
    exact imp_congr_right fun _ => by omega

/-- An idle connection in front of a closed one. -/
theorem not_sweepsWell_idleFirst : ¬ ∀ (nodeConfiguration : Nat → NodeConfiguration)
    (config : SessionConfiguration) (p : ConnectionPool),
      p.SweepsWell nodeConfiguration config (p.dropIdleTick nodeConfiguration config) := by
  intro hall
  have hwell := hall oneStream ⟨1, 2, 100⟩
    { create oneNode with connections := [⟨0, true, [1]⟩, ⟨0, false, [1]⟩], allConnections := [0, 1] }
  exact absurd hwell.enough (by decide)

end CqlDriver.ConnectionPool
