import CqlDriver.Session.PendingMessages

/-!
# Every wait ends

A flow waits for a response only when it has sent a request that has none. So on a connection that
stays open a wait ends: whatever the server, the socket and the receive loop do, each of their steps
brings a response nearer, and when they can do nothing more all who waited have their responses.

## Main definitions

* `SharedConnection.Event.Delivers` — the steps that bring responses nearer
* `SharedConnection.work` — how many of them are left
* `SharedConnection.Awaiting` — the invariant

## Main results

* `SharedConnection.waits_answered`
-/

namespace CqlDriver

open Math (valuesOf)

/-- The loop has nothing to pass on when a message has been passed on. -/
theorem Receiver.receiveBody_frame {ω μ : Type*} (r : Receiver ω μ) (stream : Nat) (message : μ) :
    (r.receiveBody stream message).loop.frame = [] ∧
      (r.receiveBody stream message).incoming = r.incoming := by
  have hended : ∀ q : Receiver ω μ, q.endIteration.loop.frame = [] := by
    intro q
    rw [endIteration]
    split
    · rfl
    · rfl
  rw [receiveBody]
  split
  · exact ⟨rfl, rfl⟩
  · split
    · split
      · exact ⟨rfl, rfl⟩
      · exact ⟨hended _, rfl⟩
    · split
      · exact ⟨hended _, rfl⟩
      · exact ⟨rfl, rfl⟩

namespace SharedConnection

variable {c d : SharedConnection} {f g : Nat} {flow other : Flow} {stream maxStreams : Nat}
  {maxPendingMessages : Nat}

/-! ## What a wait is for -/

/-- A flow that waits has fewer responses than requests. -/
structure Awaiting (c : SharedConnection) : Prop where
  sent : ∀ (f : Nat) (flow : Flow), c.flows[f]? = some flow →
    flow.succeeded ≤ flow.sent ∧ (flow.status = .sending → flow.succeeded < flow.sent)
  slot : ∀ stream f, c.receiver.slot stream = some f →
    ∃ flow, c.flows[f]? = some flow ∧ (c.receivedBy f).length < flow.succeeded

namespace Awaiting

/-- One flow is rewritten. -/
theorem setFlow {next : Flow} (h : c.Awaiting) (hflow : c.flows[f]? = some flow)
    (hd : d.flows = (c.setFlow f next).flows) (hreceiver : d.receiver = c.receiver)
    (hsent : next.succeeded ≤ next.sent ∧ (next.status = .sending → next.succeeded < next.sent))
    (hsucceeded : flow.succeeded ≤ next.succeeded) : d.Awaiting where
  sent g other hother := by
    rw [hd, getElem?_setFlow hflow] at hother
    split at hother
    · cases hother
      exact hsent
    · exact h.sent g other hother
  slot place g hslot := by
    rw [hreceiver] at hslot
    obtain ⟨other, hother, hlt⟩ := h.slot place g hslot
    rw [receivedBy_of_resolved (congrArg _ hreceiver), hd, getElem?_setFlow hflow]
    split
    next hsame =>
      subst hsame
      cases hflow.symm.trans hother
      exact ⟨next, rfl, hlt.trans_le hsucceeded⟩
    · exact ⟨other, hother, hlt⟩

/-- The receive side moves. -/
theorem withReceiver {receiver : Receiver Nat Response} {server : List (Nat × Response)}
    (h : c.Awaiting) (hslot : ∀ stream f, receiver.slot stream = some f →
      ∃ flow, c.flows[f]? = some flow ∧
        (receivedBy { c with receiver, server } f).length < flow.succeeded) :
    Awaiting { c with receiver, server } :=
  ⟨h.sent, hslot⟩

/-- A wait that gets a message leaves its slot. -/
theorem handOver {receiver : Receiver Nat Response} {message : Response} (h : c.Awaiting)
    (hcorrelated : c.Correlated) (hand : c.receiver.HandsOver receiver stream f message)
    (hflow : c.flows[f]? = some flow) (hstream : flow.stream = stream) :
    Awaiting { c with receiver } := by
  apply h.withReceiver
  intro place g hslot
  rw [hand.slot] at hslot
  split at hslot
  · cases hslot
  next hne =>
    obtain ⟨other, hother, hlt⟩ := h.slot place g hslot
    -- who waits on another stream is another flow
    have hothers : f ≠ g := by
      rintro rfl
      obtain ⟨same, hsame, hplace, -⟩ := hcorrelated.calls.slot place f hslot
      cases hflow.symm.trans hsame
      exact hne (hstream.symm.trans hplace)
    refine ⟨other, hother, ?_⟩
    rw [receivedBy_of_handsOver (d := { c with receiver }) hand, if_neg hothers, List.append_nil]
    exact hlt

theorem callWait (h : c.Awaiting) (hcorrelated : c.Correlated) (hflow : c.flows[f]? = some flow)
    (hgoOn : c.CanGoOn f flow) (hlt : (c.receivedBy f).length < flow.succeeded)
    (hstream : flow.stream < c.receiver.receivingPromiseMap.length) :
    Awaiting { c with receiver := c.receiver.waitNextMessage flow.stream f } := by
  rcases hcorrelated.wait_effect hflow hgoOn hstream with ⟨message, hand⟩ | hregister
  · exact h.handOver hcorrelated hand hflow rfl
  · apply h.withReceiver
    intro place g hslot
    rw [receivedBy_of_resolved (d := { c with
      receiver := c.receiver.waitNextMessage flow.stream f }) hregister.resolved]
    rw [hregister.slot] at hslot
    split at hslot
    · cases hslot
      exact ⟨flow, hflow, hlt⟩
    · exact h.slot place g hslot

theorem receive {event : Receiver.Event Nat Response} {receiver : Receiver Nat Response}
    (h : c.Awaiting) (hcorrelated : c.Correlated) (hinternal : event.IsInternal)
    (hstep : c.receiver.step event = some receiver) : Awaiting { c with receiver } := by
  rcases hcorrelated.sound.receive_effect hinternal hstep with
    hreads | ⟨stream, waiter, message, hslot, hand⟩ | hfails
  · apply h.withReceiver
    intro place g hslot
    rw [receivedBy_of_resolved (d := { c with receiver }) hreads.resolved]
    exact h.slot place g ((hreads.slot place).symm.trans hslot)
  · obtain ⟨flow, hflow, hstream, -⟩ := hcorrelated.calls.slot stream waiter hslot
    exact h.handOver hcorrelated hand hflow hstream
  · apply h.withReceiver
    intro place g hslot
    cases (hfails.slot place).symm.trans hslot

/-- Every step keeps the invariant. -/
theorem step {event : Event} (h : c.Awaiting) (hcorrelated : c.Correlated)
    (hstep : c.step event = some d) : d.Awaiting := by
  cases stepTo hstep with
  | openStream free =>
    constructor
    · intro g other hother
      rcases Math.getElem?_concat_some hother with hold | ⟨-, rfl⟩
      · exact h.sent g other hold
      · exact ⟨Nat.le_refl _, by rintro ⟨⟩⟩
    · intro place g hslot
      obtain ⟨flow, hflow, hlt⟩ := h.slot place g hslot
      exact ⟨flow, Math.getElem?_append_of_some _ hflow, hlt⟩
  | @callSend f flow hflow =>
    have hsent := (h.sent f flow hflow).1
    exact h.setFlow hflow rfl rfl ⟨Nat.le_succ_of_le hsent, fun _ => Nat.lt_succ_of_le hsent⟩
      (Nat.le_refl _)
  | startSend turn connected => exact ⟨h.sent, h.slot⟩
  | finishSend turn hflow =>
    have hstatus := (hcorrelated.calls.head turn hflow).2.1
    exact h.setFlow hflow rfl rfl ⟨(h.sent _ _ hflow).2 hstatus, by rintro ⟨⟩⟩ (Nat.le_succ _)
  | failSend turn hflow =>
    constructor
    · intro g other hother
      rw [getElem?_setFlow hflow] at hother
      split at hother
      · cases hother
        exact ⟨(h.sent _ _ hflow).1, by rintro ⟨⟩⟩
      · exact h.sent g other hother
    · intro place g hslot
      cases Receiver.slot_close.symm.trans hslot
  | serverAnswer first split connected => exact ⟨h.sent, h.slot⟩
  | callWait hflow goOn lt stream_lt => exact h.callWait hcorrelated hflow goOn lt stream_lt
  | receive internal step => exact h.receive hcorrelated internal step
  | release hflow ended =>
    exact h.setFlow hflow rfl rfl ⟨(h.sent _ _ hflow).1, by rintro ⟨⟩⟩ (Nat.le_refl _)

end Awaiting

theorem awaiting_of_reachable (h : (system maxStreams maxPendingMessages).Reachable c) :
    c.Awaiting := by
  have hboth : c.Correlated ∧ c.Awaiting := by
    apply Math.TransitionSystem.Reachable.invariant (fun c => c.Correlated ∧ c.Awaiting) _ _ h
    · rintro _ rfl
      refine ⟨.create maxStreams maxPendingMessages, ⟨by rintro f flow ⟨⟩, ?_⟩⟩
      intro place f hslot
      cases (Receiver.slot_create place).symm.trans hslot
    · rintro c event d ⟨hcorrelated, hawaiting⟩ hstep
      exact ⟨hcorrelated.step hstep, hawaiting.step hcorrelated hstep⟩
  exact hboth.2

/-! ## Steps that bring responses nearer -/

/-- Requests take their turns, the server answers, and the loop reads. -/
def Event.Delivers : Event → Prop
  | .startSend | .finishSend | .serverAnswer _ | .receiveHeader | .receiveBody => True
  | .openStream | .callSend _ | .failSend | .callWait _ | .receiveError | .startError | .close
  | .release _ => False

/-- Each request has its turn, which begins and ends, gets an answer, and is read in two steps. -/
def work (c : SharedConnection) : Nat :=
  c.sending.length + 4 * c.unwritten.length + 3 * c.server.length +
    2 * c.receiver.incoming.length + c.receiver.loop.frame.length

theorem work_lt {event : Event} (hdelivers : event.Delivers) (hstep : c.step event = some d) :
    d.work < c.work := by
  cases event with
  | openStream | callSend | failSend | callWait | receiveError | startError | close | release =>
    exact hdelivers.elim
  | startSend =>
    obtain ⟨stream, response, rest, hturn, rfl⟩ := exists_of_startSend hstep
    simp [work, unwritten, hturn]
    omega
  | finishSend =>
    obtain ⟨stream, response, rest, flow, hturn, hflow, rfl⟩ := exists_of_finishSend hstep
    simp [work, unwritten, setFlow, hturn]
  | serverAnswer stream =>
    obtain ⟨before, response, after, hfirst, hserver, rfl⟩ := exists_of_serverAnswer hstep
    simp only [work, unwritten, hserver, List.length_append, List.length_cons, List.length_nil]
    omega
  | receiveHeader =>
    obtain ⟨receiver, hreceive, rfl⟩ := Option.map_eq_some_iff.mp hstep
    cases Receiver.stepTo hreceive with
    | receiveHeader hconnected hreading hnext =>
      simp only [work, unwritten, hnext, hreading, ReceiveLoop.frame, List.length_cons,
        List.length_nil]
      omega
  | receiveBody =>
    obtain ⟨receiver, hreceive, rfl⟩ := Option.map_eq_some_iff.mp hstep
    cases Receiver.stepTo hreceive with
    | @receiveBody stream message hreading =>
      obtain ⟨hframe, hincoming⟩ := c.receiver.receiveBody_frame stream message
      have hread : c.receiver.loop.frame.length = 1 := by
        rw [hreading]
        rfl
      show _ + 2 * (c.receiver.receiveBody stream message).incoming.length +
        (c.receiver.receiveBody stream message).loop.frame.length < c.work
      rw [hframe, hincoming, work, hread, List.length_nil]
      exact Nat.lt_succ_self _

/-! ## What becomes of a wait -/

/-- A flow goes on waiting, or has got a response and waits no more. -/
inductive WaitMoves (c d : SharedConnection) (f : Nat) : Prop
  | stays (received : (d.receivedBy f).length = (c.receivedBy f).length)
      (slot : ∀ stream, d.receiver.slot stream = some f ↔ c.receiver.slot stream = some f)
  | ends (waited : ∃ stream, c.receiver.slot stream = some f)
      (received : (d.receivedBy f).length = (c.receivedBy f).length + 1)
      (slot : ∀ stream, d.receiver.slot stream ≠ some f)

namespace WaitMoves

theorem refl (c : SharedConnection) (f : Nat) : c.WaitMoves c f := .stays rfl fun _ => Iff.rfl

theorem trans {b : SharedConnection} (hfirst : b.WaitMoves c f) (hrest : c.WaitMoves d f) :
    b.WaitMoves d f := by
  cases hfirst with
  | stays hreceived hslot =>
    cases hrest with
    | stays hreceived' hslot' =>
      exact .stays (hreceived'.trans hreceived) fun stream => (hslot' stream).trans (hslot stream)
    | ends hwaited hreceived' hslot' =>
      obtain ⟨stream, hwaited⟩ := hwaited
      exact .ends ⟨stream, (hslot stream).mp hwaited⟩ (hreceived ▸ hreceived') hslot'
  | ends hwaited hreceived hslot =>
    cases hrest with
    | stays hreceived' hslot' =>
      exact .ends hwaited (hreceived'.trans hreceived) fun stream hwaits =>
        hslot stream ((hslot' stream).mp hwaits)
    | ends hwaited' =>
      -- nobody waits twice without a call
      obtain ⟨stream, hwaited'⟩ := hwaited'
      exact absurd hwaited' (hslot stream)

end WaitMoves

/-- The receive side hands a message over, or leaves all waits as they are. -/
theorem waitMoves_receive {event : Receiver.Event Nat Response} {receiver : Receiver Nat Response}
    (h : c.Correlated) (hinternal : event.IsInternal)
    (hstep : c.receiver.step event = some receiver) (hconnected : receiver.isConnected = true)
    (f : Nat) : c.receiver.isConnected = true ∧ c.WaitMoves { c with receiver } f := by
  rcases h.sound.receive_effect hinternal hstep with
    hreads | ⟨stream, waiter, message, hslot, hand⟩ | hfails
  · refine ⟨hreads.connected ▸ hconnected, .stays ?_ ?_⟩
    · rw [receivedBy_of_resolved (d := { c with receiver }) hreads.resolved]
    · intro place
      rw [← hreads.slot place]
  · refine ⟨hand.connected ▸ hconnected, ?_⟩
    obtain ⟨flow, hflow, hstream, -⟩ := h.calls.slot stream waiter hslot
    have hreceived := receivedBy_of_handsOver (d := { c with receiver }) (f := f) hand
    by_cases hsame : waiter = f
    · subst hsame
      refine .ends ⟨stream, hslot⟩ ?_ ?_
      · rw [hreceived, if_pos rfl, List.length_append, List.length_singleton]
      · intro place hplace
        change receiver.slot place = _ at hplace
        rw [hand.slot] at hplace
        split at hplace
        · cases hplace
        next hne =>
          obtain ⟨other, hother, hsame, -⟩ := h.calls.slot place waiter hplace
          cases hflow.symm.trans hother
          exact hne (hstream.symm.trans hsame)
    · refine .stays ?_ ?_
      · rw [hreceived, if_neg hsame, List.append_nil]
      · intro place
        show receiver.slot place = _ ↔ _
        rw [hand.slot]
        split
        next heq =>
          subst heq
          rw [hslot]
          simp [hsame]
        · rfl
  · exact absurd hconnected (ne_true_of_eq_false hfails.connected)

theorem waitMoves_of_step {event : Event} (h : c.Correlated) (hdelivers : event.Delivers)
    (hstep : c.step event = some d) (hconnected : d.receiver.isConnected = true) (f : Nat) :
    c.receiver.isConnected = true ∧ c.WaitMoves d f := by
  cases event with
  | openStream | callSend | failSend | callWait | receiveError | startError | close | release =>
    exact hdelivers.elim
  | startSend =>
    obtain ⟨stream, response, rest, -, rfl⟩ := exists_of_startSend hstep
    exact ⟨hconnected, .stays rfl fun _ => Iff.rfl⟩
  | finishSend =>
    obtain ⟨stream, response, rest, flow, -, -, rfl⟩ := exists_of_finishSend hstep
    exact ⟨hconnected, .stays rfl fun _ => Iff.rfl⟩
  | serverAnswer stream =>
    obtain ⟨before, response, after, -, -, rfl⟩ := exists_of_serverAnswer hstep
    exact ⟨hconnected, .stays rfl fun _ => Iff.rfl⟩
  | receiveHeader =>
    obtain ⟨receiver, hreceive, rfl⟩ := Option.map_eq_some_iff.mp hstep
    have hinternal : (.receiveHeader : Receiver.Event Nat Response).IsInternal := trivial
    exact waitMoves_receive h hinternal hreceive hconnected f
  | receiveBody =>
    obtain ⟨receiver, hreceive, rfl⟩ := Option.map_eq_some_iff.mp hstep
    have hinternal : (.receiveBody : Receiver.Event Nat Response).IsInternal := trivial
    exact waitMoves_receive h hinternal hreceive hconnected f

/-- Where no such step is left, nobody waits. -/
theorem slot_ne_of_delivered (h : c.Correlated) (hawaiting : c.Awaiting)
    (hconnected : c.receiver.isConnected = true)
    (hdone : ∀ event : Event, event.Delivers → c.step event = none) :
    ∀ stream f, c.receiver.slot stream ≠ some f := by
  intro stream f hslot
  obtain ⟨flow, hflow, hstream, hidle, -⟩ := h.calls.slot stream f hslot
  obtain ⟨same, hsame, hlt⟩ := hawaiting.slot stream f hslot
  cases hflow.symm.trans hsame
  have hsent := (hawaiting.sent f flow hflow).1
  have hreading : c.receiver.loop = .readingHeader := by
    cases hloop : c.receiver.loop with
    | stopped =>
      -- the loop runs as long as somebody waits
      rcases h.sound.active (h.sound.slots.count_pos hslot) with hrunning | hbroken
      · exact absurd hloop hrunning
      · exact absurd (h.sound.intact hconnected) (Nat.ne_of_gt hbroken)
    | readingHeader => rfl
    | readingBody stream message =>
      have hnone := hdone .receiveBody trivial
      simp [step, Receiver.step, hloop] at hnone
  have hincoming : c.receiver.incoming = [] := by
    cases hnext : c.receiver.incoming with
    | nil => rfl
    | cons frame rest =>
      have hnone := hdone .receiveHeader trivial
      simp [step, Receiver.step, hconnected, hreading, hnext] at hnone
  have hserver : c.server = [] := by
    cases hfirst : c.server with
    | nil => rfl
    | cons request rest =>
      have hnone := hdone (.serverAnswer request.1) trivial
      simp [step, Receiver.step, hconnected, hfirst] at hnone
  have hsending : c.sending = [] := by
    cases hturn : c.sending with
    | nil => rfl
    | cons entry rest =>
      obtain ⟨place, response, isWritten⟩ := entry
      cases isWritten with
      | false =>
        have hnone := hdone .startSend trivial
        simp [step, hturn, hconnected] at hnone
      | true =>
        obtain ⟨other, hother, -⟩ := h.calls.sending _ (hturn ▸ List.mem_cons_self)
        have hnone := hdone .finishSend trivial
        simp [step, hturn, hother] at hnone
  have hcomplete := h.responses.complete hconnected f flow ⟨hflow, by rw [hidle]; rintro ⟨⟩⟩
  rw [hstream, outstanding, Receiver.unread, unwritten, h.sound.slots.empty stream f hslot, hreading,
    hincoming, hserver, hsending] at hcomplete
  have hlength := congrArg List.length hcomplete
  simp only [ReceiveLoop.frame, List.filter_nil, List.map_nil, Math.valuesOf_nil, List.append_nil,
    length_responsesOf] at hlength
  omega

/-- Over a run of such steps a wait ends once at most. -/
theorem waitMoves_of_run {events : List Event} (h : c.Correlated)
    (hdelivers : ∀ event ∈ events, event.Delivers)
    (hrun : (system maxStreams maxPendingMessages).run c events = some d)
    (hconnected : d.receiver.isConnected = true) (f : Nat) : c.WaitMoves d f := by
  -- what is open at the end was open all the time
  have hboth : c.receiver.isConnected = true ∧ c.WaitMoves d f := by
    induction events generalizing c with
    | nil =>
      cases hrun
      exact ⟨hconnected, .refl d f⟩
    | cons event events ih =>
      rw [Math.TransitionSystem.run_cons] at hrun
      obtain ⟨b, hstep, hrest⟩ := Option.bind_eq_some_iff.mp hrun
      obtain ⟨hfirst, hevents⟩ := List.forall_mem_cons.mp hdelivers
      obtain ⟨hopen, hmoves⟩ := ih (h.step hstep) hevents hrest
      obtain ⟨hstart, hmove⟩ := waitMoves_of_step h hfirst hstep hopen f
      exact ⟨hstart, hmove.trans hmoves⟩
  exact hboth.2

/-- On a connection that stays open, only so many steps can bring responses nearer, and where none
is left each flow that waited has got its next response. -/
theorem waits_answered {events : List Event}
    (h : (system maxStreams maxPendingMessages).Reachable c)
    (hdelivers : ∀ event ∈ events, event.Delivers)
    (hrun : (system maxStreams maxPendingMessages).run c events = some d)
    (hconnected : d.receiver.isConnected = true) :
    events.length + d.work ≤ c.work ∧ ((∀ event : Event, event.Delivers → d.step event = none) →
      ∀ stream f, c.receiver.slot stream = some f →
        d.receivedBy f = responsesOf f ((c.receivedBy f).length + 1)) := by
  have hcorrelated := correlated_of_reachable h
  refine ⟨Math.TransitionSystem.length_add_measure_le_of_forall_mem work Event.Delivers
    (fun _ _ _ hevent hstep => work_lt hevent hstep) hdelivers hrun, ?_⟩
  intro hdone stream f hslot
  have hreached := Math.TransitionSystem.ReachableWhen.of_runWhen h hrun
  cases waitMoves_of_run hcorrelated hdelivers hrun hconnected f with
  | stays hreceived hsame =>
    have hwaits := (hsame stream).mpr hslot
    exact absurd hwaits (slot_ne_of_delivered (correlated_of_reachable hreached)
      (awaiting_of_reachable hreached) hconnected hdone stream f)
  | ends hwaited hreceived =>
    obtain ⟨n, hfirst⟩ := (correlated_of_reachable hreached).responses.received f
    have hlength := congrArg List.length hfirst
    rw [length_responsesOf, hreceived] at hlength
    rw [hfirst, hlength]

/-- A flow waits, and the server answers another one first. -/
theorem waits_answered_run : ∃ c d : SharedConnection,
    (7 + d.work ≤ c.work ∧ ((∀ event : Event, event.Delivers → d.step event = none) →
      ∀ stream f, c.receiver.slot stream = some f →
        d.receivedBy f = responsesOf f ((c.receivedBy f).length + 1))) ∧
      c.receiver.slot 1 = some 0 ∧ d.receivedBy 0 = [⟨0, 0⟩] := by
  let events : List Event := [.finishSend, .serverAnswer 2, .serverAnswer 1, .receiveHeader,
    .receiveBody, .receiveHeader, .receiveBody]
  have hstart : ((system 3 10).run (create 3 10)
      [.openStream, .openStream, .callSend 0, .startSend, .finishSend, .callSend 1, .startSend,
        .callWait 0]).map (fun c => (c.receiver.slot 1, ((system 3 10).run c events).map
          fun d => (d.receivedBy 0, d.receiver.isConnected))) =
            some (some 0, some ([⟨0, 0⟩], true)) := by decide
  obtain ⟨c, hc, hview⟩ := Option.map_eq_some_iff.mp hstart
  obtain ⟨hslot, hrest⟩ := Prod.mk.inj hview
  obtain ⟨d, hd, hend⟩ := Option.map_eq_some_iff.mp hrest
  obtain ⟨hreceived, hconnected⟩ := Prod.mk.inj hend
  have hdelivers : ∀ event ∈ events, event.Delivers := by
    simp [events, Event.Delivers]
  have hreach := Math.TransitionSystem.reachable_of_run rfl hc
  exact ⟨c, d, waits_answered hreach hdelivers hd hconnected, hslot, hreceived⟩

end SharedConnection

end CqlDriver
