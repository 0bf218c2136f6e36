import CqlDriver.Pool.Progress

/-!
# What the pool hands out in one step

Every stream that a step of the pool hands out is recorded among its deliveries and
among the streams in use, so whoever follows the deliveries knows all the streams that
are out. A returned connection goes to at most one waiter.

## Main definitions

* `ConnectionPool.HandsOut` — the deliveries of a step are the streams it adds to those
  in use
* `ConnectionPool.ServesOne` — at most one waiter is served

## Main results

* `ConnectionPool.getConnection_handsOut`, `ConnectionPool.step_handsOut`,
  `ConnectionPool.returnConnection_handsOut`
-/

namespace CqlDriver

/-- The stream that was handed out. -/
def Delivery.pair (delivery : Delivery) : Nat × Nat := (delivery.connection, delivery.stream)

namespace ConnectionPool

variable {nodeConfiguration : Nat → NodeConfiguration} {config : SessionConfiguration}
  {p q r : ConnectionPool} {id stream caller : Nat}

/-- From one state to the next some deliveries were made, and the streams in use are
those before and the ones of these deliveries. -/
def HandsOut (p q : ConnectionPool) : Prop :=
  ∃ new, q.deliveries = new ++ p.deliveries ∧ q.held = new.map Delivery.pair ++ p.held

namespace HandsOut

theorem of_eq (hdeliveries : q.deliveries = p.deliveries)
    (hheld : q.held = p.held) : p.HandsOut q :=
  ⟨[], hdeliveries, hheld⟩

theorem trans (h : p.HandsOut q) (h' : q.HandsOut r) : p.HandsOut r := by
  obtain ⟨first, hdeliveries, hheld⟩ := h
  obtain ⟨second, hdeliveries', hheld'⟩ := h'
  refine ⟨second ++ first, ?_, ?_⟩
  · rw [hdeliveries', hdeliveries, List.append_assoc]
  · rw [hheld', hheld, List.map_append, List.append_assoc]

theorem deliver (p : ConnectionPool) (caller id stream : Nat) :
    p.HandsOut (p.deliver caller id stream) :=
  ⟨[_], rfl, rfl⟩

end HandsOut

theorem Lookup.handsOut {result : Option (Nat × Nat) × ConnectionPool} (h : p.Lookup result) :
    p.HandsOut result.2 := by
  cases h with
  | found => exact .of_eq rfl rfl
  | missing => exact .of_eq rfl rfl

theorem feedWaiters_handsOut (p : ConnectionPool) : p.HandsOut p.feedWaiters := by
  refine feedWaiters_induction (fun q => p.HandsOut q) ?_ ?_ (.of_eq rfl rfl)
  · exact fun r q h hlookup => h.trans hlookup.handsOut
  · intro r q caller rest id stream h _ hlookup
    exact (h.trans hlookup.handsOut).trans (.deliver { q with waiters := rest } caller id stream)

theorem chooseNode_handsOut (p : ConnectionPool) (i count : Nat) :
    p.HandsOut (p.chooseNode nodeConfiguration i count) := by
  rw [chooseNode]
  split
  · exact .of_eq rfl rfl
  · exact .of_eq rfl rfl

theorem spawnConnection_handsOut (p : ConnectionPool) :
    p.HandsOut (p.spawnConnection nodeConfiguration) :=
  .trans (.of_eq rfl rfl) (chooseNode_handsOut _ _ _)

theorem addWaiter_handsOut (p : ConnectionPool) (caller : Nat) :
    p.HandsOut (p.addWaiter caller) := by
  rw [addWaiter]
  split
  · exact .of_eq rfl rfl
  · exact .of_eq rfl rfl

theorem findIdleConnectionTimer_handsOut (p : ConnectionPool) :
    p.HandsOut p.findIdleConnectionTimer := by
  rw [findIdleConnectionTimer]
  split
  · exact .of_eq rfl rfl
  · exact .of_eq rfl rfl

theorem dropIdleConnectionTimer_handsOut (p : ConnectionPool) :
    p.HandsOut p.dropIdleConnectionTimer := by
  rw [dropIdleConnectionTimer]
  split
  · exact .of_eq rfl rfl
  · exact .of_eq rfl rfl

theorem connectFailed_handsOut (p : ConnectionPool) (i count node : Nat) (ex : Exception) :
    p.HandsOut (p.connectFailed i count node ex) := by
  rw [connectFailed]
  split
  · split
    · exact .of_eq rfl rfl
    · exact .of_eq rfl rfl
  · exact .of_eq rfl rfl

theorem connected_handsOut (p : ConnectionPool) (i count node id : Nat) :
    p.HandsOut (p.connected i count node id) := by
  rw [connected]
  split
  · exact .trans (.of_eq rfl rfl) (feedWaiters_handsOut _)
  · exact .trans (.of_eq rfl rfl) (connectFailed_handsOut _ _ _ _ _)

theorem getConnection_handsOut (p : ConnectionPool) :
    p.HandsOut (p.getConnection nodeConfiguration config) := by
  simp only [getConnection]
  split
  · have hwaiting : p.HandsOut
        (({ p with nextCaller := p.nextCaller + 1 } : ConnectionPool).addWaiter p.nextCaller) :=
      .trans (.of_eq rfl rfl) (addWaiter_handsOut _ _)
    split
    · exact hwaiting.trans (spawnConnection_handsOut _)
    · exact hwaiting.trans (findIdleConnectionTimer_handsOut _)
  · have hlookup := tryGetConnection_spec { p with nextCaller := p.nextCaller + 1 }
    split
    next id stream found hfound =>
      rw [hfound] at hlookup
      exact .trans (.trans (.of_eq rfl rfl) hlookup.handsOut) (.deliver _ _ _ _)
    next searched hsearched =>
      rw [hsearched] at hlookup
      have hsearch : p.HandsOut searched := .trans (.of_eq rfl rfl) hlookup.handsOut
      split
      · exact hsearch.trans (.of_eq rfl rfl)
      · have hwaiting := hsearch.trans (addWaiter_handsOut searched p.nextCaller)
        split
        · exact (hwaiting.trans (spawnConnection_handsOut _)).trans
            (dropIdleConnectionTimer_handsOut _)
        · exact hwaiting.trans (findIdleConnectionTimer_handsOut _)

theorem findIdleTick_handsOut (p : ConnectionPool) :
    p.HandsOut (p.findIdleTick nodeConfiguration config) := by
  have hfed := feedWaiters_handsOut p
  simp only [findIdleTick]
  split
  · exact hfed.trans (.of_eq rfl rfl)
  · split
    · exact hfed.trans (spawnConnection_handsOut _)
    · exact hfed

theorem findIdleFinally_handsOut (p : ConnectionPool) : p.HandsOut p.findIdleFinally := by
  simp only [findIdleFinally]
  split
  · exact .of_eq rfl rfl
  · exact .trans (.of_eq rfl rfl) (findIdleConnectionTimer_handsOut _)

theorem dropIdleTick_handsOut (p : ConnectionPool) :
    p.HandsOut (p.dropIdleTick nodeConfiguration config) := by
  simp only [dropIdleTick]
  split
  · exact .of_eq rfl rfl
  · exact .of_eq rfl rfl

/-! ## Steps -/

/-- The steps that no caller of the pool takes part in. -/
def Event.IsInternal : Event → Prop
  | .getConnection | .returnConnection _ _ | .releaseStream _ _ => False
  | .closeConnection _ | .spawnChoose _ | .spawnConnected _ | .spawnConnectFailed _ _
  | .spawnFinally _ | .findIdleTick | .findIdleFinally | .dropIdleTick | .dropIdleFinally
  | .otherPool _ => True

instance : DecidablePred Event.IsInternal
  | .getConnection | .returnConnection _ _ | .releaseStream _ _ =>
    inferInstanceAs (Decidable False)
  | .closeConnection _ | .spawnChoose _ | .spawnConnected _ | .spawnConnectFailed _ _
  | .spawnFinally _ | .findIdleTick | .findIdleFinally | .dropIdleTick | .dropIdleFinally
  | .otherPool _ => inferInstanceAs (Decidable True)

/-- What an internal step adds to the streams in use was delivered. -/
theorem step_handsOut {event : Event} (hinternal : event.IsInternal)
    (hstep : ConnectionPool.step nodeConfiguration config p event = some q) : p.HandsOut q := by
  cases stepTo hstep with
  | getConnection => exact hinternal.elim
  | returnConnection held => exact hinternal.elim
  | releaseStream held => exact hinternal.elim
  | closeConnection => exact .of_eq rfl rfl
  | spawnChoose spawn => exact chooseNode_handsOut _ _ _
  | spawnConnected spawn => exact connected_handsOut _ _ _ _ _
  | spawnConnectFailed spawn => exact connectFailed_handsOut _ _ _ _ _
  | spawnFinally spawn => exact .of_eq rfl rfl
  | findIdleTick sleeping => exact findIdleTick_handsOut _
  | findIdleFinally stopping => exact findIdleFinally_handsOut _
  | dropIdleTick sleeping => exact dropIdleTick_handsOut _
  | dropIdleFinally stopping => exact .of_eq rfl rfl
  | otherPool called => exact .of_eq rfl rfl

/-! ## Returned connections -/

/-- No waiter was served, or the first one was: with the connection, or with an
exception. -/
def ServesOne (p q : ConnectionPool) (id : Nat) : Prop :=
  (q.waiters = p.waiters ∧ q.deliveries = p.deliveries ∧ q.failures = p.failures) ∨
    ∃ caller, p.waiters = caller :: q.waiters ∧
      ((∃ delivery, delivery.caller = caller ∧ delivery.connection = id ∧
          q.deliveries = delivery :: p.deliveries ∧ q.failures = p.failures) ∨
        ∃ ex, q.deliveries = p.deliveries ∧ q.failures = (caller, ex) :: p.failures)

/-- The stream is closed, and one stream of the connection may be handed out. -/
theorem returnConnection_handsOut (p : ConnectionPool) (id stream : Nat) :
    (p.closeStream id stream).HandsOut (p.returnConnection id stream) ∧
      p.ServesOne (p.returnConnection id stream) id := by
  simp only [returnConnection]
  split
  next hwaiters => exact ⟨.of_eq rfl rfl, .inl ⟨rfl, rfl, rfl⟩⟩
  next caller rest hwaiters =>
    -- opening the stream changes nothing but the connection
    have hopened : ∀ r : ConnectionPool, (r.openStream id).2.waiters = r.waiters ∧
        (r.openStream id).2.deliveries = r.deliveries ∧ (r.openStream id).2.held = r.held ∧
          (r.openStream id).2.failures = r.failures := by
      intro r
      rw [openStream]
      split
      · exact ⟨rfl, rfl, rfl, rfl⟩
      · exact ⟨rfl, rfl, rfl, rfl⟩
    obtain ⟨hrest, hdeliveries, hheld, hfailures⟩ :=
      hopened { p.closeStream id stream with waiters := rest }
    have hpopped : p.waiters = caller :: rest := hwaiters
    split
    next opened heq =>
      rw [heq] at hrest hdeliveries hheld hfailures
      simp only at hrest hdeliveries hheld hfailures
      refine ⟨.trans (.of_eq hdeliveries hheld) (.deliver _ _ _ _), .inr ⟨caller, ?_, .inl ?_⟩⟩
      · rw [deliver, hrest, hpopped]
      · exact ⟨_, rfl, rfl, congrArg _ hdeliveries, hfailures⟩
    next opened heq =>
      rw [heq] at hrest hdeliveries hheld hfailures
      simp only at hrest hdeliveries hheld hfailures
      refine ⟨.of_eq hdeliveries hheld, .inr ⟨caller, ?_, .inr ?_⟩⟩
      · rw [fail, hrest, hpopped]
      · exact ⟨_, hdeliveries, congrArg ((caller, _) :: ·) hfailures⟩

end ConnectionPool

end CqlDriver
