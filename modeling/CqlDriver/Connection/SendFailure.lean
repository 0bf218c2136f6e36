import CqlDriver.Connection.SendOrder

/-!
# A message that cannot be encoded

Encoding happens inside the chain of the sends, and the one handler of exceptions
does not tell an exception of `encodeMessage` from one of the socket. Nothing of the
message is written and its caller gets an exception, but the handler also closes the
connection: every waiter of every stream fails, and so does every later send.

## Main definitions

* `SendSide.ConnectionLost` — closed for good
* `SendSide.AfterThrow` — the states after a call has thrown

## Main results

* `SendSide.encode_failure_closes` — what a message that cannot be encoded does to
  its connection
* `SendSide.not_failsAlone` — a run in which another stream loses its waiter
-/

namespace CqlDriver.SendSide

variable {ω μ : Type*} {compress : Bytes → Appended} {s t u : SendSide ω μ}
  {j k maxStreams maxPendingMessages : Nat} {call : SendCall} {ex : Exception}

/-- The connection is closed, and `ready()` will not open it again. -/
structure ConnectionLost (s : SendSide ω μ) : Prop where
  notReady : s.isReady = false
  noCompressor : s.hasCompressor = false
  disconnected : s.receiver.isConnected = false

/-- The states after call `k` has thrown `ex`, up to the handler and behind it. -/
structure AfterThrow (compress : Bytes → Appended) (k : Nat) (call : SendCall) (ex : Exception)
    (written : Bytes) (s : SendSide ω μ) : Prop where
  chained : s.Chained compress
  initialized : s.isInitializing = false
  written_eq : s.written = written
  status : s.calls[k]? = some { call with status := .throwing ex } ∨
    (s.calls[k]? = some { call with status := .failed ex } ∧ s.ConnectionLost)

/-- The call whose turn has ended without success. -/
theorem AfterThrow.exists_call {written : Bytes} (h : s.AfterThrow compress k call ex written) :
    ∃ ended, s.calls[k]? = some ended ∧ ended.status ≠ .sent ∧ ended.status ≠ .queued := by
  rcases h.status with hcall | ⟨hcall, -⟩
  · exact ⟨_, hcall, SendStatus.noConfusion, SendStatus.noConfusion⟩
  · exact ⟨_, hcall, SendStatus.noConfusion, SendStatus.noConfusion⟩

/-- After a failure no call gets its turn. -/
theorem Chained.no_turn {ended other : SendCall} (h : s.Chained compress)
    (hcall : s.calls[k]? = some ended) (hsent : ended.status ≠ .sent)
    (hstarted : ended.status ≠ .queued) (hother : s.calls[j]? = some other)
    (hqueued : other.status = .queued) : s.previous j ≠ some .sent := by
  intro hprevious
  rcases Nat.lt_trichotomy j k with hlt | rfl | hgt
  · exact SendCall.not_settled_of_queued hqueued (h.order j k other ended hlt hother hcall hstarted)
  · rw [hcall] at hother
    cases hother
    exact hstarted hqueued
  · exact hsent (h.earlier_sent hprevious hgt hcall)

/-- After a failure no other call is on its way. -/
theorem Chained.no_other {ended other : SendCall} (h : s.Chained compress)
    (hcall : s.calls[k]? = some ended) (hsent : ended.status ≠ .sent)
    (hstarted : ended.status ≠ .queued) (hother : s.calls[j]? = some other)
    (hopen : ¬ other.IsSettled) (hnotQueued : other.status ≠ .queued) : j = k := by
  rcases Nat.lt_trichotomy j k with hlt | heq | hgt
  · exact absurd (h.order j k other ended hlt hother hcall hstarted) hopen
  · exact heq
  · rcases (h.behind hgt hcall hother hsent).2 with hqueued | hfailed
    · exact absurd hqueued hnotQueued
    · exact absurd (.inr hfailed) hopen

theorem AfterThrow.step {written : Bytes} (h : s.AfterThrow compress k call ex written)
    (hstep : s.StepTo compress t) : t.AfterThrow compress k call ex written := by
  have hchained := h.chained.step hstep
  obtain ⟨ended, hcall, hsent, hstarted⟩ := h.exists_call
  have hwriting : ∀ {i : Nat} {other : SendCall}, s.calls[i]? = some other →
      ¬ other.IsWriting := by
    intro i other hother hwriting
    have hnotQueued : other.status ≠ .queued := by
      rcases hwriting with hstatus | hstatus <;> rw [hstatus] <;> exact SendStatus.noConfusion
    obtain rfl := h.chained.no_other hcall hsent hstarted hother hwriting.not_settled hnotQueued
    rcases h.status with hthrown | ⟨hfailed, -⟩
    · rw [hthrown] at hother
      cases hother
      rcases hwriting with hstatus | hstatus <;> cases hstatus
    · rw [hfailed] at hother
      cases hother
      rcases hwriting with hstatus | hstatus <;> cases hstatus
  cases hstep with
  | called =>
    refine ⟨hchained, h.initialized, h.written_eq, ?_⟩
    rcases h.status with hthrown | ⟨hfailed, hlost⟩
    · exact .inl (Math.getElem?_append_of_some _ hthrown)
    · exact .inr ⟨Math.getElem?_append_of_some _ hfailed, hlost.1, hlost.2, hlost.3⟩
  | started hother hqueued hprevious _ =>
    exact absurd hprevious (h.chained.no_turn hcall hsent hstarted hother hqueued)
  | threw hother hqueued hprevious =>
    exact absurd hprevious (h.chained.no_turn hcall hsent hstarted hother hqueued)
  | flushing hother hstatus => exact absurd hstatus (hwriting hother)
  | finished hother hstatus => exact absurd hstatus (hwriting hother)
  | broke hother hstatus => exact absurd hstatus (hwriting hother)
  | @forwarded j other ex' hother hqueued _ =>
    refine ⟨hchained, h.initialized, h.written_eq, ?_⟩
    have hne : j ≠ k := by
      rintro rfl
      rw [hcall] at hother
      cases hother
      exact hstarted hqueued
    have hkept : (s.handleException j other ex').calls[k]? = s.calls[k]? :=
      List.getElem?_set_ne hne
    rw [hkept]
    exact h.status.imp_right fun hfailed => ⟨hfailed.1, rfl, rfl, rfl⟩
  | @handled j other ex' hother hthrowing =>
    refine ⟨hchained, h.initialized, h.written_eq, .inr ⟨?_, rfl, rfl, rfl⟩⟩
    have hnotQueued : other.status ≠ .queued := by
      rw [hthrowing]
      exact SendStatus.noConfusion
    obtain rfl := h.chained.no_other hcall hsent hstarted hother
      (SendCall.not_settled_of_throwing hthrowing) hnotQueued
    have hset : (s.handleException j other ex').calls[j]? =
        some { other with status := .failed ex' } :=
      List.getElem?_set_self (List.getElem?_eq_some_iff.mp hother).1
    rw [hset]
    rcases h.status with hthrown | ⟨hfailed, -⟩
    · rw [hthrown] at hother
      cases hother
      cases hthrowing
      rfl
    · rw [hfailed] at hother
      cases hother
      cases hthrowing
  | other keeps =>
    refine ⟨hchained, keeps.initialized h.initialized, keeps.written.trans h.written_eq, ?_⟩
    rw [keeps.calls]
    refine h.status.imp_right fun ⟨hfailed, hlost⟩ => ⟨hfailed, ?_⟩
    exact ⟨keeps.notReady h.initialized hlost.notReady,
      keeps.noCompressor h.initialized hlost.noCompressor, keeps.disconnected hlost.disconnected⟩

theorem Initialized.step (h : s.Initialized) (hstep : s.StepTo compress t) : t.Initialized := by
  cases hstep with
  | called | started | threw | flushing | finished | broke => exact h
  | forwarded | handled => exact fun hready => Bool.noConfusion hready
  | other keeps => exact keeps.ready h

/-- Closing fails every waiter. -/
theorem close_fails_waiters {stream : Nat} {waiter : ω}
    (hslot : s.receiver.slot stream = some waiter) :
    ⟨stream, waiter, .failed⟩ ∈ s.close.receiver.resolved ∧
      s.close.receiver.slot stream = none := by
  refine ⟨?_, Receiver.slot_close⟩
  apply List.mem_append_right
  exact List.mem_map_of_mem (Receiver.mem_waiting.mpr hslot)

/-- What a call that has thrown leaves its caller, the other users of the connection
and the later sends. -/
structure FailsWithConnection [DecidableEq ω] [DecidableEq μ] (compress : Bytes → Appended)
    (k : Nat) (call : SendCall) (ex : Exception) (written : Bytes) (s : SendSide ω μ) : Prop where
  /-- No byte is written any more. -/
  written_eq : s.written = written
  /-- Until the handler has run, it can run; then every waiter fails. -/
  pending : s.calls[k]? = some { call with status := .throwing ex } →
    ∃ t, s.step compress (.handleException k) = some t ∧
      t.calls[k]? = some { call with status := .failed ex } ∧
      ∀ stream waiter, s.receiver.slot stream = some waiter →
        ⟨stream, waiter, .failed⟩ ∈ t.receiver.resolved ∧ t.receiver.slot stream = none
  /-- Behind the handler the caller has an exception and the connection is lost. -/
  handled : s.calls[k]? = some { call with status := .throwing ex } ∨
    (s.calls[k]? = some { call with status := .failed ex } ∧
      ({ call with status := .failed ex } : SendCall).result =
        some (.error ⟨.network, "send message to failed:"⟩) ∧ s.ConnectionLost)
  /-- No later call is sent. -/
  later : ∀ (j : Nat) (other : SendCall), k < j → s.calls[j]? = some other →
    other.frame = none ∧ (other.status = .queued ∨ ∃ ex, other.status = .failed ex)

theorem AfterThrow.failsWithConnection [DecidableEq ω] [DecidableEq μ] {written : Bytes}
    (h : s.AfterThrow compress k call ex written) :
    s.FailsWithConnection compress k call ex written := by
  obtain ⟨ended, hcall, hsent, -⟩ := h.exists_call
  constructor
  · exact h.written_eq
  · intro hthrown
    refine ⟨s.handleException k { call with status := .throwing ex } ex, ?_, ?_, ?_⟩
    · simp only [SendSide.step, hthrown]
    · exact List.getElem?_set_self (List.getElem?_eq_some_iff.mp hthrown).1
    · intro stream waiter hslot
      exact close_fails_waiters
        (s := s.setCall k { call with status := .failed ex }) hslot
  · exact h.status.imp_right fun hfailed => ⟨hfailed.1, rfl, hfailed.2⟩
  · exact fun j other hj hother => h.chained.behind hj hcall hother hsent

/-- A message of a ready connection whose encoding throws: no byte of it is written and
its caller gets an exception, and the handler closes the connection for good, fails
every waiter and every later send. -/
theorem encode_failure_closes [DecidableEq ω] [DecidableEq μ]
    (hreach : (system compress maxStreams maxPendingMessages).Reachable s)
    (hready : s.isReady = true) (hcall : s.calls[k]? = some call) (hqueued : call.status = .queued)
    (hturn : s.previous k = some .sent)
    (hthrows : (Connection.encodeMessage compress (s.isReady && s.hasCompressor)
      call.message).2 = some ex) :
    ∃ t, s.step compress (.resume k) = some t ∧
      t.calls[k]? = some { call with status := .throwing ex } ∧ t.receiver = s.receiver ∧
      ∀ u, ((system compress maxStreams maxPendingMessages).startingFrom t).Reachable u →
        u.FailsWithConnection compress k call ex s.written := by
  have hinit : s.isInitializing = false := by
    have hall : s.Initialized := by
      refine hreach.invariant _ ?_ fun s event t hs hstep => hs.step (stepTo hstep)
      rintro _ rfl hready
      cases hready
    exact hall hready
  obtain ⟨message, status, frame⟩ := call
  obtain rfl : status = .queued := hqueued
  have hstarted : s.startSending compress k ⟨message, .queued, frame⟩ =
      { s.setCall k ⟨message, .throwing ex, frame⟩ with
        sendingBuffer := (Connection.encodeMessage compress (s.isReady && s.hasCompressor)
          message).1 } := by
    rw [startSending]
    split
    next hencoded =>
      rw [hencoded] at hthrows ⊢
      cases hthrows
      rfl
    next hencoded =>
      rw [hencoded] at hthrows
      cases hthrows
  have hstep : s.step compress (.resume k) =
      some (s.startSending compress k ⟨message, .queued, frame⟩) := by
    simp only [SendSide.step, hcall, resume, hturn]
  have hset : (s.startSending compress k ⟨message, .queued, frame⟩).calls[k]? =
      some ⟨message, .throwing ex, frame⟩ := by
    rw [hstarted]
    exact List.getElem?_set_self (List.getElem?_eq_some_iff.mp hcall).1
  refine ⟨_, hstep, hset, by rw [hstarted]; rfl, fun u hu => ?_⟩
  apply AfterThrow.failsWithConnection
  refine hu.invariant _ ?_ fun s event t hs hstep => hs.step (stepTo hstep)
  rintro _ rfl
  refine ⟨(chained_of_reachable hreach).step (stepTo hstep), ?_, ?_, .inl hset⟩
  · rw [hstarted]
    exact hinit
  · rw [hstarted]
    rfl

/-- A message that fails while another stream waits. -/
def failingRun : List (Event Nat Nat) :=
  [.finishReady, .receive (.wait 1 7),
    .sendMessage ⟨0, 0, 13, ([0], some (logicException "too many queries"))⟩ (.create 2 0)]

theorem encode_failure_closes_run :
    ∃ (s : SendSide Nat Nat) (call : SendCall) (ex : Exception) (t : SendSide Nat Nat),
      s.step (fun bytes => (bytes, none)) (.resume 0) = some t ∧
      ∀ u, ((system (fun bytes => (bytes, none)) 4 4).startingFrom t).Reachable u →
        u.FailsWithConnection (fun bytes => (bytes, none)) 0 call ex s.written := by
  have hrun : ((system (fun bytes => (bytes, none)) 4 4).run (create 4 4) failingRun).map
      (fun s => ((s.isReady, s.hasCompressor), s.calls)) = some ((true, false),
        [⟨⟨0, 2, 13, ([0], some (logicException "too many queries"))⟩, .queued, none⟩]) := by
    decide
  obtain ⟨s, hs, hview⟩ := Option.map_eq_some_iff.mp hrun
  simp only [Prod.mk.injEq] at hview
  obtain ⟨⟨hready, hcompressor⟩, hcalls⟩ := hview
  have hcall : s.calls[0]? =
      some ⟨⟨0, 2, 13, ([0], some (logicException "too many queries"))⟩, .queued, none⟩ := by
    rw [hcalls]
    rfl
  obtain ⟨t, hstep, -, -, hall⟩ := encode_failure_closes
    (Math.TransitionSystem.reachable_of_run rfl hs) hready hcall rfl rfl
    (RequestMessage.encodeMessage_of_throws rfl)
  exact ⟨s, _, _, t, hstep, hall⟩

/-- A message that cannot be encoded does not fail alone: the connection is closed and
the waiter of another stream is gone. -/
theorem not_failsAlone :
    ¬ ∀ (s t u : SendSide Nat Nat) (k : Nat) (call : SendCall) (ex : Exception),
      (system (fun bytes => (bytes, none)) 4 4).Reachable s → s.isReady = true →
      s.calls[k]? = some call → call.status = .queued →
      (Connection.encodeMessage (fun bytes => (bytes, none)) (s.isReady && s.hasCompressor)
        call.message).2 = some ex →
      s.step (fun bytes => (bytes, none)) (.resume k) = some t →
      t.step (fun bytes => (bytes, none)) (.handleException k) = some u →
        u.written = s.written ∧ u.isReady = true ∧
          ∀ stream, u.receiver.slot stream = s.receiver.slot stream := by
  intro hall
  have hrun : ((system (fun bytes => (bytes, none)) 4 4).run (create 4 4) failingRun).map
      (fun s => ((s.isReady, s.hasCompressor), s.calls,
        ((s.step (fun bytes => (bytes, none)) (.resume 0)).bind fun t =>
          t.step (fun bytes => (bytes, none)) (.handleException 0)).map SendSide.isReady)) =
      some ((true, false),
        [⟨⟨0, 2, 13, ([0], some (logicException "too many queries"))⟩, .queued, none⟩],
        some false) := by
    decide
  obtain ⟨s, hs, hview⟩ := Option.map_eq_some_iff.mp hrun
  simp only [Prod.mk.injEq] at hview
  obtain ⟨⟨hready, hcompressor⟩, hcalls, hlost⟩ := hview
  obtain ⟨u, hu, hnotReady⟩ := Option.map_eq_some_iff.mp hlost
  obtain ⟨t, ht, hu⟩ := Option.bind_eq_some_iff.mp hu
  have hcall : s.calls[0]? =
      some ⟨⟨0, 2, 13, ([0], some (logicException "too many queries"))⟩, .queued, none⟩ := by
    rw [hcalls]
    rfl
  obtain ⟨-, hstays, -⟩ := hall s t u 0 _ _ (Math.TransitionSystem.reachable_of_run rfl hs) hready
    hcall rfl (RequestMessage.encodeMessage_of_throws rfl) ht hu
  rw [hnotReady] at hstays
  cases hstays

end CqlDriver.SendSide
