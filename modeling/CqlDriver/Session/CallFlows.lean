import CqlDriver.Session.Correlation
import CqlDriver.Session.FlowMoves
import CqlDriver.Session.StreamLeases

/-!
# Session calls on a shared connection

Each attempt of a call that gets the connection is one flow on it. The attempt calls `sendMessage`
and `waitNextMessage` as its phase says, goes on when what it has called is resolved, and gives the
stream back in its `finally`, whatever has happened. Nothing tells it to balance its stream: it does
so because a response is awaited for each PREPARE message before any of them is handled, and because
every other way out of an attempt comes before its first send, or from a send or a wait that has
failed.

The pool may give any attempt another connection; what it does there is not seen here.

## Main definitions

* `CallFlows` — calls, and a connection that attempts of theirs use
* `CallFlows.step` — one task of a call or of the connection
* `CallFlows.Follows` — how far the flow of an attempt has come in each phase

## Main results

* `CallFlows.readyFor_of_step`, `CallFlows.follows_operate` — a task of a call uses its flow as it
  may
* `CallFlows.linked_of_reachable` — the connection is one that flows share
* `CallFlows.calls_correlated` — every message answers the request at its place, and attempts end
  with their streams balanced
-/

namespace CqlDriver

/-- A call with the flow of its attempt, if the attempt is on the connection. -/
structure ClientCall (κ : Type) where
  call : SessionCall κ
  flow : Option Nat
  deriving DecidableEq, Repr

/-- The calls of sessions, and a connection that attempts of theirs use. -/
structure CallFlows (κ : Type) where
  connection : SharedConnection
  /-- All calls so far; a call is named by its index. -/
  calls : List (ClientCall κ)
  /-- The flows of the promises that are resolved and whose continuations are pending. -/
  ready : List Nat
  deriving DecidableEq, Repr

namespace CallFlows

variable {κ : Type}

/-- A connection that has just become ready, and no calls. -/
def create (maxStreams maxPendingMessages : Nat) : CallFlows κ :=
  ⟨.create maxStreams maxPendingMessages, [], []⟩

/-- What an attempt calls on its connection when it has come to a phase. -/
def operate (connection : SharedConnection) (f : Nat) : CallPhase → SharedConnection
  | .prepareSending _ | .sending => connection.sendMessage f
  | .prepareWaiting _ _ | .waiting => connection.waitNextMessage f
  | .starting | .connecting | .preparing | .finishing _ | .resolved _ => connection

/-- What an attempt has called on its connection has succeeded. -/
def hasSucceeded (connection : SharedConnection) (f : Nat) (phase : CallPhase) : Bool :=
  match connection.flows[f]? with
  | some flow =>
    match phase with
    | .prepareSending _ | .sending => decide (flow.status = .idle)
    | .prepareWaiting _ _ | .waiting =>
      decide (connection.receiver.slot flow.stream ≠ some f ∧ ¬ connection.WaitFailed f)
    | .starting | .connecting | .preparing | .finishing _ | .resolved _ => true
  | none => false

/-- What an attempt has called on its connection has failed. -/
def hasFailed (connection : SharedConnection) (f : Nat) (phase : CallPhase) : Bool :=
  match connection.flows[f]? with
  | some flow =>
    match phase with
    | .prepareSending _ | .sending => decide (flow.status = .failed)
    | .prepareWaiting _ _ | .waiting => decide (connection.WaitFailed f)
    | .starting | .connecting | .preparing | .finishing _ | .resolved _ => true
  | none => false

/-- A call goes on when what it waits for has come about. -/
def isAllowed (connection : SharedConnection) (c : ClientCall κ) : SessionCall.Event κ → Bool
  | .attempt | .prepare _ => true
  | .sent | .received _ => c.flow.all fun f => hasSucceeded connection f c.call.phase
  | .failed _ => c.flow.all fun f => hasFailed connection f c.call.phase
  | .connected _ _ | .finished _ => false

/-- What can happen next. -/
inductive Event (κ : Type)
  | query (prepareAllQueries : Bool) (command : Option (Query × Nat))
  | execute (prepareAllQueries : Bool) (command : Option (Query × Nat))
  | batchExecute (prepareAllQueries : Bool) (command : Option CommandData)
  /-- The pool opens a stream and resolves a promise with it. -/
  | opened
  /-- The continuation of a `getConnection` whose promise was resolved with a stream. -/
  | connected (i f : Nat)
  /-- The same with a stream of another connection. -/
  | connectedElsewhere (i : Nat) (connection : κ) (stream : Nat)
  /-- A call starts an attempt, or goes on with one. -/
  | proceed (i : Nat) (event : SessionCall.Event κ)
  /-- The `finally` of an attempt; `moved` tells that the connection went to a waiter. -/
  | finished (i : Nat) (moved : Bool)
  /-- A step of the connection that no call takes part in. -/
  | internal (event : SharedConnection.Event)

/-- The stream of an attempt is closed. -/
def giveBack (connection : SharedConnection) : Option Nat → SharedConnection
  | some f => connection.closeStream f
  | none => connection

/-- One event-loop task; `here` is the name of the connection. -/
def step [DecidableEq κ] (here : κ) (s : CallFlows κ) : Event κ → Option (CallFlows κ)
  | .query prepareAllQueries command =>
    some { s with calls := s.calls ++ [⟨Session.query prepareAllQueries command, none⟩] }
  | .execute prepareAllQueries command =>
    some { s with calls := s.calls ++ [⟨Session.execute prepareAllQueries command, none⟩] }
  | .batchExecute prepareAllQueries command =>
    some { s with calls := s.calls ++ [⟨Session.batchExecute prepareAllQueries command, none⟩] }
  | .opened =>
    (s.connection.step .openStream).map fun connection =>
      { s with connection, ready := s.ready ++ [s.connection.flows.length] }
  | .connected i f =>
    match s.calls[i]?, s.connection.flows[f]? with
    | some c, some flow =>
      if f ∈ s.ready then
        (c.call.step (.connected here flow.stream)).map fun result =>
          -- the move assignment closes a stream that is still valid
          ⟨giveBack s.connection c.flow, s.calls.set i ⟨result.1, some f⟩, s.ready.erase f⟩
      else
        none
    | _, _ => none
  | .connectedElsewhere i connection stream =>
    match s.calls[i]? with
    | some c =>
      if connection = here then
        none
      else
        (c.call.step (.connected connection stream)).map fun result =>
          ⟨giveBack s.connection c.flow, s.calls.set i ⟨result.1, none⟩, s.ready⟩
    | none => none
  | .proceed i event =>
    match s.calls[i]? with
    | some c =>
      if isAllowed s.connection c event then
        (c.call.step event).map fun result =>
          ⟨match c.flow with
            | some f => operate s.connection f result.1.phase
            | none => s.connection, s.calls.set i { c with call := result.1 }, s.ready⟩
      else
        none
    | none => none
  | .finished i moved =>
    match s.calls[i]? with
    | some c =>
      (c.call.step (.finished moved)).map fun result =>
        if c.call.connection.isSome && c.call.stream.isSome then
          ⟨giveBack s.connection c.flow, s.calls.set i ⟨result.1, none⟩, s.ready⟩
        else
          { s with calls := s.calls.set i { c with call := result.1 } }
    | none => none
  | .internal event =>
    if event.IsInternal then
      (s.connection.step event).map fun connection => { s with connection }
    else
      none

/-- A ready connection, and sessions that use it among others. -/
def system [DecidableEq κ] (here : κ) (maxStreams maxPendingMessages : Nat) :
    Math.TransitionSystem (CallFlows κ) (Event κ) where
  start s := s = create maxStreams maxPendingMessages
  step := step here

/-! ## A task of a call -/

open SharedConnection (Rests Sends Waits Ended)

variable {connection : SharedConnection} {call next : SessionCall κ} {f stream n r : Nat}
  {writes : SessionCall.CacheWrites}

/-- The attempt has used its flow as its phase says. -/
def Follows (connection : SharedConnection) (f stream : Nat) (call : SessionCall κ) : Prop :=
  match call.phase with
  | .preparing => connection.Rests f stream 0 0
  | .prepareSending left =>
    ∃ k, k + left.length = call.prepareIndexes.length ∧ connection.Sends f stream k 0
  | .prepareWaiting left results =>
    (left ≠ [] ∧ results.length + left.length = call.prepareIndexes.length) ∧
      connection.Waits f stream call.prepareIndexes.length results.length
  | .sending =>
    connection.Sends f stream call.prepareIndexes.length call.prepareIndexes.length
  | .waiting =>
    connection.Waits f stream (call.prepareIndexes.length + 1) call.prepareIndexes.length
  | .finishing _ => connection.Ended f stream
  | .starting | .connecting | .resolved _ => False

/-- The flow is as the attempt needs it for the call that the phase begins with. -/
def ReadyFor (connection : SharedConnection) (f stream : Nat) (call : SessionCall κ) : Prop :=
  match call.phase with
  | .prepareSending left =>
    ∃ k, k + left.length = call.prepareIndexes.length ∧ connection.Rests f stream k 0
  | .prepareWaiting left results =>
    (left ≠ [] ∧ results.length + left.length = call.prepareIndexes.length) ∧
      connection.Rests f stream call.prepareIndexes.length results.length
  | .sending =>
    connection.Rests f stream call.prepareIndexes.length call.prepareIndexes.length
  | .waiting =>
    connection.Rests f stream (call.prepareIndexes.length + 1) call.prepareIndexes.length
  | .finishing _ => connection.Ended f stream
  | .starting | .connecting | .preparing | .resolved _ => False

/-- A send that has succeeded. -/
theorem rests_of_sends (h : connection.Sends f stream n r) {flow : Flow}
    (hflow : connection.flows[f]? = some flow) (hidle : flow.status = .idle) :
    connection.Rests f stream (n + 1) r := by
  cases h with
  | pending quiet before | failed quiet before =>
    cases hflow.symm.trans before
    cases hidle
  | done rests => exact rests

theorem ended_of_sends (h : connection.Sends f stream n r) {flow : Flow}
    (hflow : connection.flows[f]? = some flow) (hfailed : flow.status = .failed) :
    connection.Ended f stream := by
  cases h with
  | pending quiet before =>
    cases hflow.symm.trans before
    cases hfailed
  | failed quiet before => exact ⟨_, before, rfl, .inl rfl⟩
  | done rests =>
    cases hflow.symm.trans rests.flow
    cases hfailed

/-- A wait that has got a message. -/
theorem rests_of_waits (h : connection.Waits f stream n r) (hcalls : connection.Calls)
    {flow : Flow} (hflow : connection.flows[f]? = some flow)
    (hslot : connection.receiver.slot flow.stream ≠ some f)
    (hunfailed : ¬ connection.WaitFailed f) :
    connection.Rests f stream n (r + 1) := by
  cases h with
  | pending before received waiting =>
    exact absurd ((SharedConnection.isWaiting_iff hcalls hflow).mp waiting) hslot
  | failed before waiting failed => exact absurd failed hunfailed
  | done rests => exact rests

theorem ended_of_waits (h : connection.Waits f stream n r) (hfailed : connection.WaitFailed f) :
    connection.Ended f stream := by
  cases h with
  | pending before received waiting unfailed => exact absurd hfailed unfailed
  | failed before waiting failed =>
    exact ⟨_, before, rfl, .inr ⟨rfl, fun hslot => waiting ⟨stream, hslot⟩, .inl failed⟩⟩
  | done rests => exact absurd hfailed rests.unfailed

/-- The results are handled at once: the request is sent, or the attempt ends. -/
theorem handleResults_spec (call : SessionCall κ) (results : List (Nat × Answer)) :
    (call.handleResults results).1.prepareIndexes = call.prepareIndexes ∧
      ((call.handleResults results).1.phase = .sending ∨
        ∃ outcome, (call.handleResults results).1.phase = .finishing outcome) := by
  induction results generalizing call with
  | nil => exact ⟨rfl, .inl rfl⟩
  | cons first rest ih =>
    obtain ⟨i, answer⟩ := first
    cases answer with
    | result kind preparedQueryId =>
      rw [SessionCall.handleResults]
      split
      · exact ih _
      · exact ⟨rfl, .inr ⟨_, rfl⟩⟩
    | error errorCode errorMessage => exact ⟨rfl, .inr ⟨_, rfl⟩⟩
    | other opCode => exact ⟨rfl, .inr ⟨_, rfl⟩⟩

/-- An attempt that ends may give its stream back. -/
theorem readyFor_of_ended {outcome : Option (Except CallError Unit)}
    (h : connection.Ended f stream) (hphase : next.phase = .finishing outcome) :
    ReadyFor connection f stream next := by
  rw [ReadyFor, hphase]
  exact h

/-- The next PREPARE message is sent, or all of them were sent and the first wait begins. -/
theorem readyFor_sendPrepares {left : List Nat} {k : Nat} (h : connection.Rests f stream k 0)
    (hk : k + left.length = call.prepareIndexes.length) (hpos : 0 < k) :
    ReadyFor connection f stream (call.sendPrepares left) := by
  cases left with
  | nil =>
    have hall : k = call.prepareIndexes.length := hk
    refine ⟨⟨List.ne_nil_of_length_pos (hall ▸ hpos), Nat.zero_add _⟩, ?_⟩
    show connection.Rests f stream call.prepareIndexes.length 0
    rw [← hall]
    exact h
  | cons i left => exact ⟨k, hk, h⟩

/-- Nothing was sent before the queries are prepared. -/
theorem readyFor_prepareQueries (cached : Bytes → Bytes) (h : connection.Rests f stream 0 0) :
    ReadyFor connection f stream (call.prepareQueries cached) := by
  simp only [SessionCall.prepareQueries]
  split
  next hnone =>
    show connection.Rests f stream (List.length _) (List.length _)
    rw [hnone]
    exact h
  next first left hsome =>
    refine ⟨0, ?_, h⟩
    show 0 + (first :: left).length = List.length _
    rw [hsome, Nat.zero_add]
    rfl

/-- All PREPARE messages have their responses before the first of them is handled, so every way out
leaves the stream balanced. -/
theorem readyFor_handleResults {results : List (Nat × Answer)}
    (h : connection.Rests f stream call.prepareIndexes.length call.prepareIndexes.length) :
    ReadyFor connection f stream (call.handleResults results).1 := by
  obtain ⟨hindexes, hsends | ⟨outcome, hends⟩⟩ := handleResults_spec call results
  · rw [ReadyFor, hsends, hindexes]
    exact h
  · exact readyFor_of_ended h.ended hends

theorem exists_finishing_handleResponse (call : SessionCall κ) (answer : Answer) :
    ∃ outcome, (call.handleResponse answer).1.phase = .finishing outcome := by
  cases answer with
  | result kind preparedQueryId => exact ⟨_, rfl⟩
  | error errorCode errorMessage => exact ⟨_, rfl⟩
  | other opCode => exact ⟨_, rfl⟩

/-- A send or a wait that has failed ends the attempt, and so does an exception before the first. -/
theorem ended_of_hasFailed (h : Follows connection f stream call)
    (hfailed : hasFailed connection f call.phase = true) (hopen : call.phase.IsOpen) :
    connection.Ended f stream := by
  rw [hasFailed] at hfailed
  split at hfailed
  next flow hflow =>
    rw [Follows] at h
    cases hphase : call.phase with
    | starting | connecting | finishing | resolved =>
      rw [hphase] at hopen
      exact hopen.elim
    | preparing =>
      rw [hphase] at h
      exact h.ended
    | prepareSending left =>
      rw [hphase] at h hfailed
      obtain ⟨k, -, hsends⟩ := h
      exact ended_of_sends hsends hflow (of_decide_eq_true hfailed)
    | sending =>
      rw [hphase] at h hfailed
      exact ended_of_sends h hflow (of_decide_eq_true hfailed)
    | prepareWaiting left results =>
      rw [hphase] at h hfailed
      exact ended_of_waits h.2 (of_decide_eq_true hfailed)
    | waiting =>
      rw [hphase] at h hfailed
      exact ended_of_waits h (of_decide_eq_true hfailed)
  · cases hfailed

/-- A send has succeeded: the next one begins, or the first wait, or the wait for the response. -/
theorem readyFor_sent (h : Follows connection f stream call)
    (hsucceeded : hasSucceeded connection f call.phase = true)
    (hstep : call.step .sent = some (next, writes)) :
    call.phase.IsOpen ∧ ReadyFor connection f stream next := by
  rw [hasSucceeded] at hsucceeded
  split at hsucceeded
  next flow hflow =>
    simp only [SessionCall.step] at hstep
    split at hstep
    next i left hphase =>
      cases hstep
      rw [Follows, hphase] at h
      rw [hphase] at hsucceeded
      obtain ⟨k, hk, hsends⟩ := h
      refine ⟨by rw [hphase]; trivial, readyFor_sendPrepares
        (rests_of_sends hsends hflow (of_decide_eq_true hsucceeded)) ?_ (Nat.succ_pos k)⟩
      rw [← hk, List.length_cons, Nat.add_right_comm]
      rfl
    next hphase =>
      cases hstep
      rw [Follows, hphase] at h
      rw [hphase] at hsucceeded
      exact ⟨by rw [hphase]; trivial, rests_of_sends h hflow (of_decide_eq_true hsucceeded)⟩
    · cases hstep
  · cases hsucceeded

/-- A wait has got its message: the next wait begins, the results are handled, or the attempt
ends. -/
theorem readyFor_received {answer : Answer} (h : Follows connection f stream call)
    (hcalls : connection.Calls) (hsucceeded : hasSucceeded connection f call.phase = true)
    (hstep : call.step (.received answer) = some (next, writes)) :
    call.phase.IsOpen ∧ ReadyFor connection f stream next := by
  rw [hasSucceeded] at hsucceeded
  split at hsucceeded
  next flow hflow =>
    simp only [SessionCall.step] at hstep
    split at hstep
    next i results hphase =>
      rw [Follows, hphase] at h
      rw [hphase] at hsucceeded
      obtain ⟨⟨-, hcount⟩, hwaits⟩ := h
      obtain ⟨hslot, hunfailed⟩ := of_decide_eq_true hsucceeded
      have hrests := rests_of_waits hwaits hcalls hflow hslot hunfailed
      obtain rfl := congrArg Prod.fst (Option.some.inj hstep)
      rw [show results.length + 1 = call.prepareIndexes.length from hcount] at hrests
      exact ⟨by rw [hphase]; trivial, readyFor_handleResults hrests⟩
    next i j left results hphase =>
      cases hstep
      rw [Follows, hphase] at h
      rw [hphase] at hsucceeded
      obtain ⟨⟨-, hcount⟩, hwaits⟩ := h
      obtain ⟨hslot, hunfailed⟩ := of_decide_eq_true hsucceeded
      have hrests := rests_of_waits hwaits hcalls hflow hslot hunfailed
      refine ⟨by rw [hphase]; trivial, ⟨List.cons_ne_nil j left, ?_⟩, ?_⟩
      · show (results ++ [(i, answer)]).length + (j :: left).length = call.prepareIndexes.length
        simp only [List.length_append, List.length_cons, List.length_nil] at hcount ⊢
        omega
      · rw [List.length_append, List.length_singleton]
        exact hrests
    next hphase =>
      rw [Follows, hphase] at h
      rw [hphase] at hsucceeded
      obtain ⟨hslot, hunfailed⟩ := of_decide_eq_true hsucceeded
      have hrests := rests_of_waits h hcalls hflow hslot hunfailed
      obtain rfl := congrArg Prod.fst (Option.some.inj hstep)
      obtain ⟨outcome, hends⟩ := exists_finishing_handleResponse call answer
      exact ⟨by rw [hphase]; trivial, readyFor_of_ended hrests.ended hends⟩
    · cases hstep
  · cases hsucceeded

/-- An exception ends an attempt that has its stream. -/
theorem eq_failWith {ex : Exception} (h : Follows connection f stream call)
    (hstep : call.step (.failed ex) = some (next, writes)) :
    call.phase.IsOpen ∧ next = call.failWith ex := by
  rw [Follows] at h
  cases hphase : call.phase with
  | starting | connecting | resolved =>
    rw [hphase] at h
    exact h.elim
  | finishing outcome =>
    simp only [SessionCall.step, hphase] at hstep
    cases hstep
  | preparing | prepareSending | prepareWaiting | sending | waiting =>
    simp only [SessionCall.step, hphase] at hstep
    cases hstep
    exact ⟨trivial, rfl⟩

/-- A task of an attempt leaves the flow as the next phase needs it. -/
theorem readyFor_of_step {event : SessionCall.Event κ} (h : Follows connection f stream call)
    (hcalls : connection.Calls) (hallowed : isAllowed connection ⟨call, some f⟩ event = true)
    (hstep : call.step event = some (next, writes)) :
    call.phase.IsOpen ∧ ReadyFor connection f stream next := by
  cases event with
  | attempt =>
    simp only [SessionCall.step] at hstep
    split at hstep
    next hphase =>
      rw [Follows, hphase] at h
      exact h.elim
    · cases hstep
  | connected | finished => cases hallowed
  | prepare cached =>
    simp only [SessionCall.step] at hstep
    split at hstep
    next hphase =>
      cases hstep
      rw [Follows, hphase] at h
      exact ⟨by rw [hphase]; trivial, readyFor_prepareQueries cached h⟩
    · cases hstep
  | sent => exact readyFor_sent h hallowed hstep
  | received answer => exact readyFor_received h hcalls hallowed hstep
  | failed ex =>
    obtain ⟨hopen, rfl⟩ := eq_failWith h hstep
    exact ⟨hopen, readyFor_of_ended (ended_of_hasFailed h hallowed hopen) rfl⟩

/-! ## What it does to the connection -/

/-- The connection takes the step, or stays as it is. -/
def StepsTo (connection later : SharedConnection) : Prop :=
  later = connection ∨ ∃ event, connection.step event = some later

/-- What an attempt calls when it has come to a phase is a step of its flow, which nobody else
notices. -/
theorem follows_operate (h : ReadyFor connection f stream call)
    (hcorrelated : connection.Correlated) (hinRange : connection.InRange) :
    StepsTo connection (operate connection f call.phase) ∧
      Follows (operate connection f call.phase) f stream call ∧
        ∀ g, f ≠ g → connection.FlowMoves (operate connection f call.phase) g := by
  have hsend : ∀ {n r : Nat}, connection.Rests f stream n r →
      StepsTo connection (connection.sendMessage f) ∧
        (connection.sendMessage f).Sends f stream n r ∧
          ∀ g, f ≠ g → connection.FlowMoves (connection.sendMessage f) g := fun hrests =>
    ⟨.inr ⟨_, SharedConnection.step_callSend hrests.flow hrests.canGoOn⟩, hrests.sendMessage,
      fun _ hne => .sendMessage hne⟩
  have hwait : ∀ {n r : Nat}, connection.Rests f stream n r → r < n →
      StepsTo connection (connection.waitNextMessage f) ∧
        (connection.waitNextMessage f).Waits f stream n r ∧
          ∀ g, f ≠ g → connection.FlowMoves (connection.waitNextMessage f) g := by
    intro n r hrests hlt
    have hstream := hinRange.stream_lt _ (List.mem_of_getElem? hrests.flow)
    exact ⟨.inr ⟨_, SharedConnection.step_callWait hrests.flow hrests.canGoOn
      (hrests.received.trans_lt hlt) hstream⟩, hrests.waitNextMessage hcorrelated hstream,
      fun _ hne => .waitNextMessage hcorrelated hrests.flow hrests.canGoOn hstream hne⟩
  rw [ReadyFor] at h
  rw [Follows]
  cases hphase : call.phase with
  | starting | connecting | preparing | resolved =>
    rw [hphase] at h
    exact h.elim
  | prepareSending left =>
    rw [hphase] at h
    obtain ⟨k, hk, hrests⟩ := h
    obtain ⟨hsteps, hsends, hothers⟩ := hsend hrests
    exact ⟨hsteps, ⟨k, hk, hsends⟩, hothers⟩
  | sending =>
    rw [hphase] at h
    exact hsend h
  | prepareWaiting left results =>
    rw [hphase] at h
    obtain ⟨⟨hleft, hcount⟩, hrests⟩ := h
    have hpos := List.length_pos_iff.mpr hleft
    obtain ⟨hsteps, hwaits, hothers⟩ := hwait hrests (by omega)
    exact ⟨hsteps, ⟨⟨hleft, hcount⟩, hwaits⟩, hothers⟩
  | waiting =>
    rw [hphase] at h
    exact hwait h (Nat.lt_succ_self _)
  | finishing outcome =>
    rw [hphase] at h
    exact ⟨.inl rfl, h, fun _ _ => .refl⟩

/-! ## All calls -/

variable {here : κ} {later : SharedConnection} {c new : ClientCall κ} {s t : CallFlows κ} {i : Nat}
  {maxStreams maxPendingMessages : Nat}

theorem Follows.exists_flow (h : Follows connection f stream call) :
    ∃ flow, connection.flows[f]? = some flow := by
  rw [Follows] at h
  cases hphase : call.phase with
  | starting | connecting | resolved =>
    rw [hphase] at h
    exact h.elim
  | preparing =>
    rw [hphase] at h
    exact ⟨_, h.flow⟩
  | prepareSending left =>
    rw [hphase] at h
    obtain ⟨k, -, hsends⟩ := h
    exact hsends.exists_flow
  | sending =>
    rw [hphase] at h
    exact h.exists_flow
  | prepareWaiting left results =>
    rw [hphase] at h
    exact h.2.exists_flow
  | waiting =>
    rw [hphase] at h
    exact h.exists_flow
  | finishing outcome =>
    rw [hphase] at h
    obtain ⟨flow, hflow, -⟩ := h
    exact ⟨flow, hflow⟩

/-- An attempt stays with its flow while others use the connection. -/
theorem Follows.moves (h : Follows connection f stream call) (hcalls : connection.Calls)
    (hlater : later.Calls) (hmoves : connection.FlowMoves later f) :
    Follows later f stream call := by
  rw [Follows] at h ⊢
  cases hphase : call.phase with
  | starting | connecting | resolved =>
    rw [hphase] at h
    exact h.elim
  | preparing =>
    rw [hphase] at h
    exact h.moves hmoves
  | prepareSending left =>
    rw [hphase] at h
    obtain ⟨k, hk, hsends⟩ := h
    exact ⟨k, hk, hsends.moves hmoves⟩
  | sending =>
    rw [hphase] at h
    exact h.moves hmoves
  | prepareWaiting left results =>
    rw [hphase] at h
    exact ⟨h.1, h.2.moves hmoves⟩
  | waiting =>
    rw [hphase] at h
    exact h.moves hmoves
  | finishing outcome =>
    rw [hphase] at h
    exact h.moves hcalls hlater hmoves

/-- The flow of a call is the one of its attempt. -/
structure Tracked (here : κ) (connection : SharedConnection) (c : ClientCall κ) : Prop where
  leases : c.call.Leases
  flow : ∀ f, c.flow = some f →
    ∃ stream, c.call.stream = some (here, stream) ∧ Follows connection f stream c.call

theorem Tracked.flow_eq_none (h : Tracked here connection c) (hstream : c.call.stream = none) :
    c.flow = none := by
  cases hflow : c.flow with
  | none => rfl
  | some f =>
    obtain ⟨stream, hsome, -⟩ := h.flow f hflow
    rw [hstream] at hsome
    cases hsome

/-- A call without a flow. -/
theorem Tracked.of_leases (h : next.Leases) : Tracked here connection ⟨next, none⟩ where
  leases := h
  flow := by rintro f ⟨⟩

/-- The connection is one that flows share, and each flow has at most one call. -/
structure Linked (here : κ) (maxStreams maxPendingMessages : Nat) (s : CallFlows κ) : Prop where
  reachable : (SharedConnection.system maxStreams maxPendingMessages).Reachable s.connection
  tracked : ∀ c ∈ s.calls, Tracked here s.connection c
  apart : ∀ (i j : Nat) (c d : ClientCall κ) (f : Nat), s.calls[i]? = some c →
    s.calls[j]? = some d → c.flow = some f → d.flow = some f → i = j
  ready : ∀ f ∈ s.ready, ∃ stream, s.connection.Rests f stream 0 0
  ready_nodup : s.ready.Nodup
  unclaimed : ∀ c ∈ s.calls, ∀ f, c.flow = some f → f ∉ s.ready

namespace Linked

theorem correlated (h : s.Linked here maxStreams maxPendingMessages) : s.connection.Correlated :=
  SharedConnection.correlated_of_reachable h.reachable

/-- One call moves, and what it does to the connection nobody else notices. -/
theorem set (h : s.Linked here maxStreams maxPendingMessages) (hc : s.calls[i]? = some c)
    (hsteps : StepsTo s.connection later)
    (hothers : ∀ g flow, s.connection.flows[g]? = some flow → c.flow ≠ some g →
      s.connection.FlowMoves later g)
    (hnew : Tracked here later new) {ready : List Nat} (hready : ready.Sublist s.ready)
    (hclaims : ∀ f, new.flow = some f → f ∉ ready ∧ (c.flow = some f ∨ f ∈ s.ready)) :
    Linked here maxStreams maxPendingMessages ⟨later, s.calls.set i new, ready⟩ := by
  have hreachable : (SharedConnection.system maxStreams maxPendingMessages).Reachable later := by
    rcases hsteps with rfl | ⟨event, hstep⟩
    · exact h.reachable
    · exact h.reachable.of_step hstep
  have hlater := (SharedConnection.correlated_of_reachable hreachable).calls
  have hfresh : ∀ (j : Nat) (d : ClientCall κ) (f : Nat), j ≠ i → s.calls[j]? = some d →
      d.flow = some f → new.flow ≠ some f := by
    intro j d f hne hd hdf hnf
    rcases (hclaims f hnf).2 with hcf | hmem
    · exact hne (h.apart j i d c f hd hc hdf hcf)
    · exact h.unclaimed d (List.mem_of_getElem? hd) f hdf hmem
  constructor
  · exact hreachable
  · intro d hd
    obtain ⟨j, hj⟩ := List.mem_iff_getElem?.mp hd
    rcases Math.getElem?_set_some hj with ⟨-, rfl⟩ | ⟨hne, hold⟩
    · exact hnew
    · have htracked := h.tracked d (List.mem_of_getElem? hold)
      refine ⟨htracked.leases, fun g hg => ?_⟩
      obtain ⟨stream, hstream, hfollows⟩ := htracked.flow g hg
      obtain ⟨flow, hsome⟩ := hfollows.exists_flow
      have hmoves := hothers g flow hsome fun hcg => hne (h.apart j i d c g hold hc hg hcg)
      exact ⟨stream, hstream, hfollows.moves h.correlated.calls hlater hmoves⟩
  · intro j k d e f hj hk hdf hef
    rcases Math.getElem?_set_some hj with ⟨rfl, rfl⟩ | ⟨hne, hold⟩
    · rcases Math.getElem?_set_some hk with ⟨rfl, -⟩ | ⟨hne', hold'⟩
      · rfl
      · exact absurd hdf (hfresh k e f hne' hold' hef)
    · rcases Math.getElem?_set_some hk with ⟨rfl, rfl⟩ | ⟨hne', hold'⟩
      · exact absurd hef (hfresh j d f hne hold hdf)
      · exact h.apart j k d e f hold hold' hdf hef
  · intro f hf
    have hmem := hready.subset hf
    obtain ⟨stream, hrests⟩ := h.ready f hmem
    exact ⟨stream, hrests.moves (hothers f _ hrests.flow fun hcf =>
      h.unclaimed c (List.mem_of_getElem? hc) f hcf hmem)⟩
  · exact h.ready_nodup.sublist hready
  · intro d hd f hdf hf
    rcases List.mem_or_eq_of_mem_set hd with hold | rfl
    · exact h.unclaimed d hold f hdf (hready.subset hf)
    · exact (hclaims f hdf).1 hf

/-- A call moves beside the connection. -/
theorem setCall (h : s.Linked here maxStreams maxPendingMessages) (hc : s.calls[i]? = some c)
    (hnext : next.Leases) :
    Linked here maxStreams maxPendingMessages { s with calls := s.calls.set i ⟨next, none⟩ } :=
  h.set hc (.inl rfl) (fun _ _ _ _ => .refl) (.of_leases hnext) (.refl _) (by rintro f ⟨⟩)

/-- A new call has no flow. -/
theorem addCall (h : s.Linked here maxStreams maxPendingMessages) (hcall : call.Leases) :
    Linked here maxStreams maxPendingMessages { s with calls := s.calls ++ [⟨call, none⟩] } := by
  have hold : ∀ (j : Nat) (d : ClientCall κ) (f : Nat), (s.calls ++ [⟨call, none⟩])[j]? = some d →
      d.flow = some f → s.calls[j]? = some d := by
    intro j d f hj hdf
    rcases Math.getElem?_concat_some hj with hold | ⟨-, rfl⟩
    · exact hold
    · cases hdf
  constructor
  · exact h.reachable
  · intro c hc
    rcases List.mem_append.mp hc with hold | hnew
    · exact h.tracked c hold
    · rw [List.mem_singleton.mp hnew]
      exact .of_leases hcall
  · intro j k d e f hj hk hdf hef
    exact h.apart j k d e f (hold j d f hj hdf) (hold k e f hk hef) hdf hef
  · exact h.ready
  · exact h.ready_nodup
  · intro c hc f hcf
    obtain ⟨j, hj⟩ := List.mem_iff_getElem?.mp hc
    exact h.unclaimed c (List.mem_of_getElem? (hold j c f hj hcf)) f hcf

/-- The connection moves, and no flow has called anything. -/
theorem withConnection (h : s.Linked here maxStreams maxPendingMessages)
    {event : SharedConnection.Event} (hstep : s.connection.step event = some later)
    (hmoves : ∀ g flow, s.connection.flows[g]? = some flow → s.connection.FlowMoves later g) :
    Linked here maxStreams maxPendingMessages { s with connection := later } where
  reachable := h.reachable.of_step hstep
  tracked := by
    intro c hc
    refine ⟨(h.tracked c hc).leases, fun f hf => ?_⟩
    obtain ⟨stream, hstream, hfollows⟩ := (h.tracked c hc).flow f hf
    obtain ⟨flow, hsome⟩ := hfollows.exists_flow
    exact ⟨stream, hstream, hfollows.moves h.correlated.calls (h.correlated.step hstep).calls
      (hmoves f flow hsome)⟩
  apart := h.apart
  ready := by
    intro f hf
    obtain ⟨stream, hrests⟩ := h.ready f hf
    exact ⟨stream, hrests.moves (hmoves f _ hrests.flow)⟩
  ready_nodup := h.ready_nodup
  unclaimed := h.unclaimed

/-- A stream is opened for a new flow. -/
theorem opened (h : s.Linked here maxStreams maxPendingMessages)
    (hstep : s.connection.step .openStream = some later) :
    Linked here maxStreams maxPendingMessages
      { s with connection := later, ready := s.ready ++ [s.connection.flows.length] } := by
  have hnew : ∃ stream, later.Rests s.connection.flows.length stream 0 0 := by
    simp only [SharedConnection.step] at hstep
    split at hstep
    · cases hstep
    · cases hstep
      exact ⟨_, .openStream h.correlated⟩
  have hlinked := h.withConnection hstep fun g flow hflow => by
    simp only [SharedConnection.step] at hstep
    split at hstep
    · cases hstep
    · cases hstep
      exact .openStream hflow
  have hlt : ∀ {f : Nat} {flow : Flow}, s.connection.flows[f]? = some flow →
      f ≠ s.connection.flows.length :=
    fun hflow => Nat.ne_of_lt (List.getElem?_eq_some_iff.mp hflow).1
  constructor
  · exact hlinked.reachable
  · exact hlinked.tracked
  · exact hlinked.apart
  · intro f hf
    rcases List.mem_append.mp hf with hold | hlast
    · exact hlinked.ready f hold
    · rw [List.mem_singleton.mp hlast]
      exact hnew
  · rw [List.nodup_append]
    refine ⟨h.ready_nodup, List.nodup_singleton _, ?_⟩
    rintro f hf g hg
    obtain ⟨stream, hrests⟩ := h.ready f hf
    rw [List.mem_singleton.mp hg]
    exact hlt hrests.flow
  · intro c hc f hcf hf
    rcases List.mem_append.mp hf with hold | hlast
    · exact h.unclaimed c hc f hcf hold
    · obtain ⟨stream, -, hfollows⟩ := (h.tracked c hc).flow f hcf
      obtain ⟨flow, hsome⟩ := hfollows.exists_flow
      exact hlt hsome (List.mem_singleton.mp hlast)

/-- A continuation of `getConnection` finds the call without a flow. -/
theorem connected_spec (h : s.Linked here maxStreams maxPendingMessages) (hc : s.calls[i]? = some c)
    {name : κ} (hcall : c.call.step (.connected name stream) = some (next, writes)) :
    c.flow = none ∧ next.Leases ∧ next.phase = .preparing ∧ next.stream = some (name, stream) := by
  have htracked := h.tracked c (List.mem_of_getElem? hc)
  have hnext := htracked.leases.step (SessionCall.stepTo hcall)
  simp only [SessionCall.step] at hcall
  split at hcall
  next hphase =>
    cases hcall
    exact ⟨htracked.flow_eq_none (htracked.leases.unleased (by rw [hphase]; trivial)), hnext, rfl,
      rfl⟩
  · cases hcall

/-- The continuation takes the flow whose stream it was promised. -/
theorem connected [DecidableEq κ] (h : s.Linked here maxStreams maxPendingMessages)
    (hstep : step here s (.connected i f) = some t) :
    t.Linked here maxStreams maxPendingMessages := by
  simp only [step] at hstep
  split at hstep
  next c flow hc hflow =>
    split at hstep
    next hmem =>
      obtain ⟨⟨next, writes⟩, hcall, rfl⟩ := Option.map_eq_some_iff.mp hstep
      obtain ⟨hnone, hnext, hphase, hstream⟩ := h.connected_spec hc hcall
      obtain ⟨stream, hrests⟩ := h.ready f hmem
      cases hflow.symm.trans hrests.flow
      rw [hnone]
      refine h.set hc (.inl rfl) (fun _ _ _ _ => .refl) ⟨hnext, ?_⟩ List.erase_sublist ?_
      · rintro g ⟨⟩
        refine ⟨stream, hstream, ?_⟩
        rw [Follows, hphase]
        exact hrests
      · rintro g ⟨⟩
        exact ⟨h.ready_nodup.not_mem_erase, .inr hmem⟩
    · cases hstep
  · cases hstep

/-- A call goes on. -/
theorem proceed [DecidableEq κ] (h : s.Linked here maxStreams maxPendingMessages)
    {event : SessionCall.Event κ} (hstep : step here s (.proceed i event) = some t) :
    t.Linked here maxStreams maxPendingMessages := by
  simp only [step] at hstep
  split at hstep
  next c hc =>
    split at hstep
    next hallowed =>
      obtain ⟨⟨next, writes⟩, hcall, rfl⟩ := Option.map_eq_some_iff.mp hstep
      have htracked := h.tracked c (List.mem_of_getElem? hc)
      have hnext := htracked.leases.step (SessionCall.stepTo hcall)
      obtain ⟨call, flow⟩ := c
      cases flow with
      | none => exact h.setCall hc hnext
      | some f =>
        obtain ⟨stream, hstream, hfollows⟩ := htracked.flow f rfl
        obtain ⟨hopen, hready⟩ := readyFor_of_step hfollows h.correlated.calls hallowed hcall
        obtain ⟨hsteps, hfollows', hothers⟩ :=
          follows_operate hready h.correlated (SharedConnection.inRange_of_reachable h.reachable)
        refine h.set hc hsteps (fun g _ _ hne => hothers g fun hfg => hne (congrArg some hfg))
          ⟨hnext, ?_⟩ (.refl _)
          (fun g hg => ⟨h.unclaimed _ (List.mem_of_getElem? hc) g hg, .inl hg⟩)
        rintro g ⟨⟩
        exact ⟨stream, (SessionCall.stream_eq_of_isOpen hopen (SessionCall.stepTo hcall)).trans
          hstream, hfollows'⟩
    · cases hstep
  · cases hstep

/-- The `finally` of an attempt finds its stream balanced. -/
theorem finished [DecidableEq κ] (h : s.Linked here maxStreams maxPendingMessages) {moved : Bool}
    (hstep : step here s (.finished i moved) = some t) :
    t.Linked here maxStreams maxPendingMessages := by
  simp only [step] at hstep
  split at hstep
  next c hc =>
    obtain ⟨⟨next, writes⟩, hcall, hrest⟩ := Option.map_eq_some_iff.mp hstep
    have htracked := h.tracked c (List.mem_of_getElem? hc)
    have hnext := htracked.leases.step (SessionCall.stepTo hcall)
    obtain ⟨call, flow⟩ := c
    cases flow with
    | none =>
      have hsame : t = { s with calls := s.calls.set i ⟨next, none⟩ } := by
        rw [← hrest]
        split
        · rfl
        · rfl
      rw [hsame]
      exact h.setCall hc hnext
    | some f =>
      obtain ⟨stream, hstream, hfollows⟩ := htracked.flow f rfl
      have hconnection := htracked.leases.connection _ hstream
      have hboth : (call.connection.isSome && call.stream.isSome) = true := by
        rw [hstream, hconnection]
        rfl
      cases (if_pos hboth).symm.trans hrest
      obtain ⟨outcome, hphase⟩ := SessionCall.exists_finishing hcall
      rw [Follows, hphase] at hfollows
      obtain ⟨flow, hflow, -, hended⟩ := hfollows
      exact h.set hc (.inr ⟨_, SharedConnection.step_release hflow hended⟩)
        (fun g _ _ hne => .closeStream fun hfg => hne (congrArg some hfg)) (.of_leases hnext)
        (.refl _) (by rintro g ⟨⟩)
  · cases hstep

/-- A step keeps the invariant. -/
theorem step [DecidableEq κ] (h : s.Linked here maxStreams maxPendingMessages) {event : Event κ}
    (hstep : CallFlows.step here s event = some t) :
    t.Linked here maxStreams maxPendingMessages := by
  cases event with
  | query prepareAllQueries command =>
    cases hstep
    cases command with
    | none | some => exact h.addCall (SessionCall.leases_of_new rfl rfl rfl)
  | execute prepareAllQueries command =>
    cases hstep
    cases command with
    | none | some => exact h.addCall (SessionCall.leases_of_new rfl rfl rfl)
  | batchExecute prepareAllQueries command =>
    cases hstep
    cases command with
    | none | some => exact h.addCall (SessionCall.leases_of_new rfl rfl rfl)
  | opened =>
    obtain ⟨later, hlater, rfl⟩ := Option.map_eq_some_iff.mp hstep
    exact h.opened hlater
  | connected i f => exact h.connected hstep
  | connectedElsewhere i name stream =>
    simp only [CallFlows.step] at hstep
    split at hstep
    next c hc =>
      split at hstep
      · cases hstep
      · obtain ⟨⟨next, writes⟩, hcall, rfl⟩ := Option.map_eq_some_iff.mp hstep
        obtain ⟨hnone, hnext, -⟩ := h.connected_spec hc hcall
        rw [hnone]
        exact h.setCall hc hnext
    · cases hstep
  | proceed i event => exact h.proceed hstep
  | finished i moved => exact h.finished hstep
  | internal event =>
    simp only [CallFlows.step] at hstep
    split at hstep
    next hinternal =>
      obtain ⟨later, hlater, rfl⟩ := Option.map_eq_some_iff.mp hstep
      exact h.withConnection hlater fun _ _ _ =>
        SharedConnection.flowMoves_of_internal h.correlated hinternal hlater
    · cases hstep

end Linked

theorem linked_of_reachable [DecidableEq κ]
    (h : (system here maxStreams maxPendingMessages).Reachable s) :
    s.Linked here maxStreams maxPendingMessages := by
  apply Math.TransitionSystem.Reachable.invariant (Linked here maxStreams maxPendingMessages) _ _ h
  · intro s hstart
    cases hstart
    exact ⟨.of_start rfl, (by rintro c ⟨⟩), (by rintro i j c d f ⟨⟩), (by rintro f ⟨⟩), .nil,
      (by rintro c ⟨⟩)⟩
  · intro s event t hs hstep
    exact hs.step hstep

/-- Calls that go on as they do in the session, in any order and over any number of attempts, use
the connection as flows may: every message an attempt receives is the response to its own request at
the same position, nothing is on its way to a free stream of a ready connection, and an attempt that
has come to its `finally` has as many messages as it has sent requests, unless a send or a wait of it
has failed. -/
theorem calls_correlated [DecidableEq κ]
    (h : (system here maxStreams maxPendingMessages).Reachable s) :
    (∀ f i message, (s.connection.receivedBy f)[i]? = some message → message = Response.mk f i) ∧
      (s.connection.receiver.isConnected = true → ∀ stream ∈ s.connection.freeStreamIds,
        s.connection.receiver.queue stream = [] ∧
          ∀ response, (stream, response) ∉ s.connection.wire) ∧
      ∀ c ∈ s.calls, ∀ f outcome, c.flow = some f → c.call.phase = .finishing outcome →
        ∃ flow, s.connection.flows[f]? = some flow ∧ s.connection.HasEnded f flow := by
  have hlinked := linked_of_reachable h
  refine ⟨hlinked.correlated.received_eq, hlinked.correlated.unused_of_mem_free, ?_⟩
  intro c hc f outcome hflow hphase
  obtain ⟨stream, -, hfollows⟩ := (hlinked.tracked c hc).flow f hflow
  rw [Follows, hphase] at hfollows
  obtain ⟨flow, hsome, -, hended⟩ := hfollows
  exact ⟨flow, hsome, hended⟩

/-- A batch awaits the answers to both of its PREPARE messages though the first is an error, and the
stream it gives back serves another call. -/
theorem calls_correlated_run :
    ∃ s : CallFlows Nat, (system 0 2 10).Reachable s ∧
      (s.connection.receivedBy 0, s.connection.receivedBy 1) = ([⟨0, 0⟩, ⟨0, 1⟩], [⟨1, 0⟩]) ∧
      ∀ f i message, (s.connection.receivedBy f)[i]? = some message →
        message = Response.mk f i := by
  have hrun : ((system 0 2 10).run (create 2 10)
      [.batchExecute false (some ⟨[⟨[0x51], some true⟩, ⟨[0x52], some true⟩], 0⟩),
        .query false (some (⟨[0x53], none⟩, 0)), .proceed 0 .attempt, .opened, .connected 0 0,
        .proceed 0 (.prepare fun _ => []), .internal .startSend, .internal .finishSend,
        .proceed 0 .sent, .internal .startSend, .internal .finishSend, .proceed 0 .sent,
        .internal (.serverAnswer 1), .internal (.serverAnswer 1), .internal .receiveHeader,
        .internal .receiveBody, .proceed 0 (.received (.error 0x2000 [])),
        .internal .receiveHeader, .internal .receiveBody,
        .proceed 0 (.received (.result ResultKind.prepared [0x99])), .finished 0 false,
        .proceed 1 .attempt, .opened, .connected 1 1, .proceed 1 (.prepare fun _ => []),
        .internal .startSend, .internal .finishSend, .proceed 1 .sent, .internal (.serverAnswer 1),
        .internal .receiveHeader, .internal .receiveBody]).map (fun s : CallFlows Nat =>
          (s.connection.receivedBy 0, s.connection.receivedBy 1)) =
      some ([⟨0, 0⟩, ⟨0, 1⟩], [⟨1, 0⟩]) := by decide
  obtain ⟨s, hs, hview⟩ := Option.map_eq_some_iff.mp hrun
  have hreach := Math.TransitionSystem.reachable_of_run rfl hs
  exact ⟨s, hreach, hview, (calls_correlated hreach).1⟩

end CallFlows

end CqlDriver
