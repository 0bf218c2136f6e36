import CqlDriver.Math.Runs
import CqlDriver.Session.ClientTurns

/-!
# Nothing that a flow calls stays pending

What the flows have called ends without anything new: the continuations of the calls run, the
socket writes or fails, and the reads of the loop come back or fail. Each of these tasks uses up
something that the connection has left, and as long as a call of `sendMessage` or of
`waitNextMessage` is pending there is one of them.

## Main definitions

* `ClientConnection.Event.Works` — the tasks that need no new call
* `ClientConnection.work` — how many of them there can be

## Main results

* `SendSide.exists_task`, `ByteReceiver.exists_task` — what is pending has a task
* `ClientConnection.calls_end` — only so many tasks, and nothing pending behind them
* `ClientConnection.calls_succeed` — what comes of the calls if the connection is still open then
-/

namespace CqlDriver

/-! ## Sends -/

namespace SendSide

variable {ω μ : Type*} [DecidableEq ω] [DecidableEq μ] {compress : Bytes → Appended}
  {s t : SendSide ω μ}

/-- The tasks that the calls have in front of them at most. -/
def tasks (s : SendSide ω μ) : Nat := (s.calls.map SendCall.tasks).sum

omit [DecidableEq ω] [DecidableEq μ] in
theorem MovesCall.sum_lt {k : Nat} {old new : SendCall} (h : s.MovesCall t k old new) :
    t.tasks < s.tasks := by
  have hsum := Math.sum_map_set_add SendCall.tasks new h.old_eq
  have hlt := h.tasks_lt
  rw [tasks, tasks, h.calls]
  omega

/-- A call that has had its turn has a task until it ends. -/
theorem exists_task_of_turn {k : Nat} {call : SendCall} (hcall : s.calls[k]? = some call)
    (hpending : call.result = none) (hturn : call.status ≠ .queued) :
    ∃ event : Event ω μ, event.isOfCall = true ∧ s.step compress event ≠ none := by
  obtain ⟨message, status, frame⟩ := call
  cases status with
  | queued => exact absurd rfl hturn
  | putting => exact ⟨.putDone k, rfl, by simp [step, hcall]⟩
  | flushing => exact ⟨.flushDone k, rfl, by simp [step, hcall]⟩
  | throwing ex => exact ⟨.handleException k, rfl, by simp [step, hcall]⟩
  | sent | failed => cases hpending

/-- The turn of a call comes when the call before has ended. -/
theorem resume_ne_none {k : Nat} {call : SendCall} (hcall : s.calls[k]? = some call)
    (hqueued : call.status = .queued) {status : SendStatus}
    (hprevious : s.previous k = some status) (hended : status = .sent ∨ ∃ ex, status = .failed ex) :
    s.step compress (.resume k) ≠ none := by
  obtain ⟨message, _, frame⟩ := call
  cases hqueued
  rcases hended with rfl | ⟨ex, rfl⟩
  · simp [step, hcall, resume, hprevious]
  · simp [step, hcall, resume, hprevious]

/-- A call that is pending has a task, or is behind a call that has one. -/
theorem exists_task {k : Nat} {call : SendCall} (hcall : s.calls[k]? = some call)
    (hpending : call.result = none) :
    ∃ event : Event ω μ, event.isOfCall = true ∧ s.step compress event ≠ none := by
  induction k generalizing call with
  | zero =>
    by_cases hqueued : call.status = .queued
    · exact ⟨.resume 0, rfl, resume_ne_none hcall hqueued rfl (.inl rfl)⟩
    · exact exists_task_of_turn hcall hpending hqueued
  | succ k ih =>
    by_cases hqueued : call.status = .queued
    · have hlt := (List.getElem?_eq_some_iff.mp hcall).1
      obtain ⟨before, hbefore⟩ : ∃ before, s.calls[k]? = some before :=
        ⟨_, List.getElem?_eq_getElem (Nat.lt_of_succ_lt hlt)⟩
      cases hresult : before.result with
      | none => exact ih hbefore hresult
      | some result =>
        have hprevious : s.previous (k + 1) = some before.status := by
          rw [previous, hbefore, Option.map_some]
        refine ⟨.resume (k + 1), rfl, resume_ne_none hcall hqueued hprevious ?_⟩
        cases hstatus : before.status with
        | sent => exact .inl rfl
        | failed ex => exact .inr ⟨ex, rfl⟩
        | queued | putting | flushing | throwing => simp [SendCall.result, hstatus] at hresult
    · exact exists_task_of_turn hcall hpending hqueued

end SendSide

/-! ## Waits -/

/-- Reads of the loop, and exceptions of loops that are to be handled. -/
def Receiver.tasks {ω μ : Type*} (r : Receiver ω μ) : Nat :=
  (match r.loop with
    | .stopped => 0
    | .readingHeader => 1
    | .readingBody _ _ => 2) + r.brokenLoops

namespace Receiver

variable {ω μ : Type*} {r : Receiver ω μ} {stream : Nat} {message : μ}

theorem tasks_readingHeader (h : r.loop = .readingHeader) : r.tasks = 1 + r.brokenLoops := by
  rw [tasks, h]

theorem tasks_readingBody (h : r.loop = .readingBody stream message) :
    r.tasks = 2 + r.brokenLoops := by
  rw [tasks, h]

theorem tasks_closeLoop : r.closeLoop.tasks = r.brokenLoops := Nat.zero_add _

/-- A loop that runs has a task. -/
theorem brokenLoops_lt_tasks (hrunning : r.loop ≠ .stopped) : r.brokenLoops < r.tasks := by
  cases hloop : r.loop with
  | stopped => exact absurd hloop hrunning
  | readingHeader =>
    rw [tasks_readingHeader hloop]
    omega
  | readingBody stream message =>
    rw [tasks_readingBody hloop]
    omega

theorem tasks_endIteration : r.endIteration.tasks ≤ r.brokenLoops + 1 := by
  rw [endIteration]
  split
  · show 0 + r.brokenLoops ≤ r.brokenLoops + 1
    omega
  · show 1 + r.brokenLoops ≤ r.brokenLoops + 1
    omega

theorem tasks_receiveBody : (r.receiveBody stream message).tasks ≤ r.brokenLoops + 1 := by
  have hclosed : r.closeLoop.tasks ≤ r.brokenLoops + 1 := by
    rw [tasks_closeLoop]
    exact Nat.le_succ _
  rw [receiveBody]
  split
  · exact hclosed
  · split
    next holder hslot =>
      dsimp only
      split
      · exact Nat.le_trans (Nat.le_of_eq tasks_closeLoop) (Nat.le_succ _)
      · exact tasks_endIteration
    next hslot =>
      split
      · exact tasks_endIteration
      · exact hclosed

end Receiver

namespace ByteReceiver

variable {s t : ByteReceiver} {event : Event}

/-- The loop reads bytes, or is at a read already. -/
def tasks (s : ByteReceiver) : Nat := 2 * s.unread.length + s.side.receiver.tasks

/-- The loop ends. -/
theorem tasks_closeLoop (hrunning : s.side.receiver.loop ≠ .stopped) :
    s.closeLoop.tasks < s.tasks := by
  show 2 * s.unread.length + s.side.receiver.closeLoop.tasks < _
  rw [Receiver.tasks_closeLoop]
  exact Nat.add_lt_add_left (Receiver.brokenLoops_lt_tasks hrunning) _

theorem tasks_lt (hloop : event.isOfLoop = true) (hclose : event ≠ .close)
    (h : s.step event = some t) : t.tasks < s.tasks := by
  cases event with
  | wait => cases hloop
  | close => exact absurd rfl hclose
  | readHeader =>
    simp only [step] at h
    split at h
    next hconnected hreading =>
      split at h
      next header bodyLength haccept =>
        cases h
        -- the header is nine bytes, and the read of a body is two tasks
        have hlength := (acceptHeader_ok haccept).1
        rw [List.length_take, Connection.headerSize] at hlength
        show 2 * ((s.unread.drop 9).drop bodyLength).length + (2 + s.side.receiver.brokenLoops) <
          2 * s.unread.length + s.side.receiver.tasks
        rw [List.length_drop, List.length_drop, Receiver.tasks_readingHeader hreading]
        omega
      · cases h
        refine Nat.lt_of_lt_of_le (tasks_closeLoop (by rw [afterRead, hreading]; rintro ⟨⟩)) ?_
        show 2 * (s.unread.drop Connection.headerSize).length + s.side.receiver.tasks ≤ s.tasks
        rw [tasks, List.length_drop]
        omega
    · cases h
  | readBody compressor used memory =>
    simp only [step] at h
    split at h
    next stream frame hreading =>
      have hrunning : (s.afterRead frame.IsCut).side.receiver.loop ≠ .stopped := by
        rw [afterRead, hreading]
        rintro ⟨⟩
      split at h
      next message hdecode =>
        obtain ⟨receiver, hreceiver, rfl⟩ := exists_of_stepSide h
        cases Receiver.stepTo hreceiver with
        | @receiveBody place other hbody =>
          have htasks := @Receiver.tasks_receiveBody _ _ s.side.receiver place other
          show 2 * s.unread.length + (s.side.receiver.receiveBody place other).tasks <
            2 * s.unread.length + s.side.receiver.tasks
          rw [Receiver.tasks_readingBody hreading]
          omega
      · cases h
        exact tasks_closeLoop hrunning
      · cases h
    · cases h
  | readFailed =>
    obtain ⟨receiver, hreceiver, rfl⟩ := exists_of_stepSide h
    cases Receiver.stepTo hreceiver with
    | receiveError running => exact tasks_closeLoop running
  | startError =>
    obtain ⟨receiver, hreceiver, rfl⟩ := exists_of_stepSide h
    cases Receiver.stepTo hreceiver with
    | startError broken =>
      rw [tasks, tasks, Receiver.tasks, Receiver.tasks]
      exact Nat.add_lt_add_left (Nat.add_lt_add_left (Nat.sub_one_lt_of_lt broken) _) _

/-- As long as a loop is to go on, it has a task. -/
theorem exists_task (h : s.side.receiver.IsReceiving) :
    ∃ event : Event, event.isOfLoop = true ∧ event ≠ .close ∧ s.step event ≠ none := by
  rcases h with hrunning | hbroken
  · refine ⟨.readFailed, rfl, by rintro ⟨⟩, ?_⟩
    simp [step, stepSide, ReceiveSide.step, ReceiveSide.number,
      Receiver.step_receiveError hrunning]
  · refine ⟨.startError, rfl, by rintro ⟨⟩, ?_⟩
    simp [step, stepSide, ReceiveSide.step, ReceiveSide.number, Receiver.step, hbroken]

end ByteReceiver

/-! ## Flows -/

namespace ClientConnection

variable {compress : Bytes → Appended} {c d : ClientConnection} {event : Event} {f : Nat}
  {maxStreams : MaxStreams} {maxPendingMessages : Nat} {bytes : Bytes} {order : IterationOrder}

/-- The tasks of calls and loops; nobody calls anything, or closes the connection from outside. -/
def Event.Works : Event → Prop
  | .send _ => True
  | .receive event => event ≠ .close
  | .openStream | .callSend _ _ | .callWait _ | .release _ => False

/-- How many of these tasks there can be. -/
def work (c : ClientConnection) : Nat := c.sender.tasks + c.receiver.tasks

theorem work_lt (hworks : event.Works) (hstep : c.StepTo compress event d) : d.work < c.work := by
  cases hstep with
  | openStream | callSend | callWait | release => exact hworks.elim
  | @send event sender isOfCall step =>
    obtain ⟨k, old, new, hmoves⟩ := SendSide.exists_movesCall isOfCall step
    -- an exception closes the connection, and the loop finds out later
    have hreceiver : sender.receiver.tasks = c.sender.receiver.tasks := by
      rcases hmoves.settles with ⟨hsame, -⟩ | ⟨hclosed, -⟩
      · rw [hsame]
      · rw [hclosed]
        rfl
    show sender.tasks + (2 * c.unread.length + sender.receiver.tasks) < c.work
    rw [hreceiver]
    exact Nat.add_lt_add_right hmoves.sum_lt _
  | receive isOfLoop step =>
    exact Nat.add_lt_add_left (ByteReceiver.tasks_lt isOfLoop hworks step) _

/-- Where no such task is left, nothing is pending. -/
theorem isIdle_of_done (hsound : c.sender.receiver.Sound)
    (hdone : ∀ event : Event, event.Works → c.step compress event = none) : c.IsIdle f := by
  refine ⟨fun call hcall => ?_, ?_⟩
  · obtain ⟨k, -, hget⟩ := exists_of_mem_callsOf hcall
    cases hresult : call.result with
    | some result => rfl
    | none =>
      obtain ⟨event, hisOfCall, hstep⟩ : ∃ event : SendSide.Event Nat ReceivedFrame,
        event.isOfCall = true ∧ c.sender.step compress event ≠ none :=
          SendSide.exists_task hget hresult
      have hnone := hdone (.send event) trivial
      rw [step, if_pos hisOfCall, Option.map_eq_none_iff] at hnone
      exact absurd hnone hstep
  · rintro ⟨entry, hentry, -⟩
    have hreceiving := hsound.active (hsound.slots.count_pos (Receiver.mem_waiting.mp hentry))
    obtain ⟨event, hisOfLoop, hclose, hstep⟩ : ∃ event : ByteReceiver.Event,
      event.isOfLoop = true ∧ event ≠ .close ∧ c.receiver.step event ≠ none :=
        ByteReceiver.exists_task hreceiving
    have hnone := hdone (.receive event) hclose
    rw [step, if_pos hisOfLoop, Option.map_eq_none_iff] at hnone
    exact absurd hnone hstep

/-- From every state that is reached only so many tasks can follow before something new is called,
and where none is left no call of a flow is pending. -/
theorem calls_end {events : List Event}
    (h : (system compress maxStreams maxPendingMessages bytes).Reachable c)
    (hworks : ∀ event ∈ events, event.Works)
    (hrun : (system compress maxStreams maxPendingMessages bytes).run c events = some d) :
    events.length + d.work ≤ c.work ∧
      ((∀ event : Event, event.Works → d.step compress event = none) → ∀ f, d.IsIdle f) := by
  refine ⟨Math.TransitionSystem.length_add_measure_le_of_forall_mem work Event.Works
    (fun _ _ _ hevent hstep => work_lt hevent (stepTo hstep)) hworks hrun, fun hdone f => ?_⟩
  have hreached := Math.TransitionSystem.ReachableWhen.of_runWhen h hrun
  have hsound := (ReceiveSide.sound_and_numbered_of_reachable
    (ByteReceiver.receives (receiver_reachable hreached))).1
  exact isIdle_of_done hsound hdone

/-- A flow waits, and the request of another one is queued. -/
theorem calls_end_run : ∃ c d : ClientConnection,
    (5 + d.work ≤ c.work ∧
      ((∀ event : Event, event.Works → d.step (LZ4Compressor.compressed .literals) event = none) →
        ∀ f, d.IsIdle f)) ∧
      c.IsWaiting 0 ∧ ¬ c.IsIdle 1 ∧ d.IsIdle 0 ∧ d.IsIdle 1 := by
  let events : List Event := [.send (.resume 1), .receive .readHeader, .send (.putDone 1),
    .receive (.readBody none .create .create), .send (.flushDone 1)]
  let bytes : Bytes := ((Exchange.twoAnswers 2).map Prod.snd).flatMap ReceivedFrame.bytes
  let streams : MaxStreams := ⟨3, by decide, by decide⟩
  let system := system (LZ4Compressor.compressed .literals) streams 10 bytes
  have hstart : (system.run (create streams 10 false bytes)
      [.openStream, .openStream, .callSend 0 Exchange.hundredRowsMessage, .send (.resume 0),
        .send (.putDone 0), .send (.flushDone 0), .callWait 0,
        .callSend 1 Exchange.prepareMessage]).map (fun c => (decide (c.IsWaiting 0 ∧ ¬ c.IsIdle 1),
          (system.run c events).map fun d => decide (d.IsIdle 0 ∧ d.IsIdle 1))) =
            some (true, some true) := by decide
  obtain ⟨c, hc, hview⟩ := Option.map_eq_some_iff.mp hstart
  obtain ⟨hpending, hrest⟩ := Prod.mk.inj hview
  obtain ⟨d, hd, hidle⟩ := Option.map_eq_some_iff.mp hrest
  obtain ⟨hwaiting, hqueued⟩ := of_decide_eq_true hpending
  have hworks : ∀ event ∈ events, event.Works := by
    simp [events, Event.Works]
  have hcreate : system.start (create streams 10 false bytes) := ⟨false, rfl⟩
  have hreach := Math.TransitionSystem.reachable_of_run hcreate hc
  exact ⟨c, d, calls_end hreach hworks hd, hwaiting, hqueued, of_decide_eq_true hidle⟩

/-! ## Connections that stay open -/

/-- Where nothing is left to use up, no task is left. -/
theorem step_eq_none_of_work_eq_zero (hwork : c.work = 0) (hworks : event.Works) :
    c.step compress event = none := by
  cases hstep : c.step compress event with
  | none => rfl
  | some d =>
    have hlt := work_lt hworks (stepTo hstep)
    rw [hwork] at hlt
    exact absurd hlt (Nat.not_lt_zero _)

/-- If the connection is still open when no task is left, each request was sent, and each wait has
got a message. -/
theorem calls_succeed
    (h : (system compress maxStreams maxPendingMessages bytes).Reachable c)
    (hconnected : c.sender.receiver.isConnected = true)
    (hdone : ∀ event : Event, event.Works → c.step compress event = none) :
    ∀ f, (∀ call ∈ c.callsOf f, call.status = .sent) ∧
      (c.receivedBy f).length = c.waiters.count f := by
  intro f
  obtain ⟨hrecorded, hturn⟩ := inTurn_of_reachable h
  obtain ⟨hsound, hnumbered⟩ := ReceiveSide.sound_and_numbered_of_reachable
    (ByteReceiver.receives (receiver_reachable h))
  have hidle : ∀ g, c.IsIdle g := fun g => isIdle_of_done hsound hdone
  have hgoOn : c.CanGoOn f := ⟨hidle f, hturn.not_hasFailed hconnected⟩
  refine ⟨fun call hcall => hgoOn.sent hcall, ?_⟩
  refine hrecorded.length_receivedBy hnumbered ?_ (hturn.answers hconnected)
  -- a wait that is pending would be one of a flow
  rw [List.eq_nil_iff_forall_not_mem]
  rintro ⟨place, w⟩ hwaiting
  obtain ⟨g, stream, hwaiter, -⟩ := hturn.slot place w (Receiver.mem_waiting.mp hwaiting)
  exact (hidle g).2 ⟨(place, w), hwaiting, hwaiter⟩

/-- One flow has sent a request and got a message. -/
theorem calls_succeed_run : ∃ c : ClientConnection,
    (∀ f, (∀ call ∈ c.callsOf f, call.status = .sent) ∧
      (c.receivedBy f).length = c.waiters.count f) ∧
      (c.callsOf 0).length = 1 ∧ c.waiters.count 0 = 1 := by
  let events : List Event :=
    [.openStream, .callSend 0 Exchange.hundredRowsMessage, .send (.resume 0), .send (.putDone 0),
      .send (.flushDone 0), .callWait 0, .receive .readHeader,
      .receive (.readBody none .create .create)]
  let bytes : Bytes := ReceivedFrame.bytes ⟨⟨0x80, 0, 1, 8, 4⟩, [0, 0, 0, 1]⟩
  let streams : MaxStreams := ⟨2, Nat.le_refl 2, by decide⟩
  let system := system (LZ4Compressor.compressed .literals) streams 10 bytes
  have hrun : (system.run (create streams 10 false bytes) events).map (fun c =>
      (c.work, c.sender.receiver.isConnected, (c.callsOf 0).length, c.waiters.count 0)) =
        some (0, true, 1, 1) := by decide
  obtain ⟨c, hc, hview⟩ := Option.map_eq_some_iff.mp hrun
  obtain ⟨hwork, hrest⟩ := Prod.mk.inj hview
  obtain ⟨hconnected, hcounts⟩ := Prod.mk.inj hrest
  have hcreate : system.start (create streams 10 false bytes) := ⟨false, rfl⟩
  have hreach := Math.TransitionSystem.reachable_of_run hcreate hc
  exact ⟨c, calls_succeed hreach hconnected fun event => step_eq_none_of_work_eq_zero hwork,
    Prod.mk.inj hcounts⟩

end ClientConnection

end CqlDriver
