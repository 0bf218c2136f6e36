import CqlDriver.Session.Outstanding

/-!
# Responses reach the flows they belong to

The steps of the server and of the receive side keep the invariant of
`Session.Outstanding`, so it holds in every run: each message a flow receives is the
response to its own request at the same position, and a free stream of a ready
connection has nothing on its way.

## Main results

* `SharedConnection.Correlated.step` — every step keeps the invariant
* `SharedConnection.correlated_of_reachable` — the invariant holds in every run
* `Correlated.received_eq`, `Correlated.unused_of_mem_free` — what it says of the messages and of
  the free streams
-/

namespace CqlDriver.SharedConnection

open Math (valuesOf)

variable {c d : SharedConnection} {f g : Nat} {flow other : Flow} {stream : Nat}

namespace Correlated

/-! ## Closing -/

/-- What holds of the responses once the connection is closed: a flow that was open
keeps what it has and what was read for it. -/
theorem responses_of_fails (h : c.Correlated) (hfails : c.receiver.Fails d.receiver)
    (hlength : d.flows.length = c.flows.length)
    (hopen : ∀ g other, d.IsOpen g other → ∃ old, c.IsOpen g old ∧ old.stream = other.stream ∧
      old.sent = other.sent ∧ old.succeeded = other.succeeded)
    (hsending : ∀ entry ∈ d.sending, entry ∈ c.sending) : d.Responses where
  waiter_lt := by
    rw [hfails.resolved, hlength]
    intro entry hentry
    rcases List.mem_append.mp hentry with hold | hnew
    · exact h.responses.waiter_lt entry hold
    · obtain ⟨⟨place, g⟩, hwaiting, rfl⟩ := List.mem_map.mp hnew
      obtain ⟨old, hget, -⟩ := h.calls.slot place g (Receiver.mem_waiting.mp hwaiting)
      exact (List.getElem?_eq_some_iff.mp hget).1
  received := by
    intro g
    rw [receivedBy_of_fails hfails]
    exact h.responses.received g
  intact := fun hconnected => absurd hconnected (ne_true_of_eq_false hfails.connected)
  complete := fun hconnected => absurd hconnected (ne_true_of_eq_false hfails.connected)
  free := fun hconnected => absurd hconnected (ne_true_of_eq_false hfails.connected)
  ordered := by
    intro _ g other hother
    obtain ⟨old, hold, hstream, hsent, hsucceeded⟩ := hopen g other hother
    rw [Untouched, receivedBy_of_fails hfails, ← hstream, ← hsent, ← hsucceeded]
    rcases h.prefixed hold with ⟨hzero, hnone, hchain⟩ | hprefix
    · exact .inl ⟨hzero, hnone, fun entry hentry => hchain entry (hsending entry hentry)⟩
    · right
      refine .trans ?_ hprefix
      exact (List.prefix_append_right_inj _).mpr (hfails.unread old.stream)

theorem failSend {response : Response} {isWritten : Bool} {rest : List Sending}
    (h : c.Correlated) (hturn : c.sending = ⟨stream, response, isWritten⟩ :: rest)
    (hflow : c.flows[response.flow]? = some flow) :
    Correlated { c.setFlow response.flow { flow with status := .failed } with
      sending := rest, receiver := c.receiver.close } := by
  have hstatus := (h.calls.head hturn hflow).2.1
  have hold : ∀ g other, IsOpen { c.setFlow response.flow { flow with status := .failed } with
      sending := rest, receiver := c.receiver.close } g other →
        ∃ old, c.IsOpen g old ∧ old.stream = other.stream ∧ old.sent = other.sent ∧
          old.succeeded = other.succeeded := by
    intro g other hother
    rcases isOpen_of_setFlow hflow rfl hother with ⟨rfl, rfl⟩ | ⟨-, hopen⟩
    · refine ⟨flow, ⟨hflow, ?_⟩, rfl, rfl, rfl⟩
      rw [hstatus]
      rintro ⟨⟩
    · exact ⟨other, hopen, rfl, rfl, rfl⟩
  constructor
  · exact h.sound.close
  · apply h.owners.of_isOpen
    intro g other hother
    obtain ⟨old, hopen, hstream, -⟩ := hold g other hother
    exact ⟨old, hopen, hstream⟩
  · have hflows : (c.setFlow response.flow { flow with status := .failed }).flows =
        (c.setFlow response.flow { flow with status := .failed }).flows := rfl
    refine h.calls_of_endTurn hturn hflow ?_ hflows rfl
    intro place g hsome
    rw [Receiver.slot_close] at hsome
    cases hsome
  · apply h.responses_of_fails (Receiver.close_fails c.receiver.loop _ (.inr rfl)) _ hold
    · intro entry hentry
      rw [hturn]
      exact List.mem_cons_of_mem _ hentry
    · exact List.length_set

/-! ## Receiving -/

/-- The receiver moves; what is in the slots and in the responses is all that may change. -/
theorem withReceiver {receiver : Receiver Nat Response} (h : c.Correlated) (hsound : receiver.Sound)
    (hslot : ∀ place g, receiver.slot place = some g →
      ∃ other, c.flows[g]? = some other ∧ other.stream = place ∧ other.status = .idle ∧
        0 < other.succeeded)
    (hresponses : Responses { c with receiver }) : Correlated { c with receiver } where
  sound := hsound
  owners := ⟨h.owners.free_nodup, h.owners.apart, h.owners.distinct⟩
  calls := ⟨hslot, h.calls.sending, h.calls.once, h.calls.turn⟩
  responses := hresponses

theorem serverAnswer {response : Response} {before after : List (Nat × Response)}
    (h : c.Correlated) (hfirst : ∀ request ∈ before, request.1 ≠ stream)
    (hserver : c.server = before ++ (stream, response) :: after)
    (hconnected : c.receiver.isConnected = true) :
    Correlated { c with
      receiver := { c.receiver with
        incoming := c.receiver.incoming ++ [(stream, response)]
        arrived := c.receiver.arrived ++ [(stream, response)] }
      server := before ++ after } := by
  have hstep : c.receiver.step (.arrive stream response) = some { c.receiver with
      incoming := c.receiver.incoming ++ [(stream, response)]
      arrived := c.receiver.arrived ++ [(stream, response)] } := if_pos hconnected
  -- the first answer of a stream is the first of its requests at the server
  have houtstanding : ∀ place, outstanding { c with
      receiver := { c.receiver with
        incoming := c.receiver.incoming ++ [(stream, response)]
        arrived := c.receiver.arrived ++ [(stream, response)] }
      server := before ++ after } place = c.outstanding place := by
    intro place
    show (c.receiver.unread place ++ valuesOf (_ ++ [(stream, response)]) place) ++
      (valuesOf (before ++ after) place ++ valuesOf c.unwritten place) = _
    rw [outstanding, hserver, Math.valuesOf_append, Math.valuesOf_append, Math.valuesOf_append]
    by_cases hsame : stream = place
    · subst hsame
      have hnone : valuesOf before stream = [] := by
        rw [List.eq_nil_iff_forall_not_mem]
        intro value hvalue
        exact hfirst _ (Math.mem_valuesOf.mp hvalue) rfl
      simp [hnone]
    · simp [Math.valuesOf_cons_of_ne hsame]
  constructor
  · exact h.sound.step hstep
  · exact ⟨h.owners.free_nodup, h.owners.apart, h.owners.distinct⟩
  · exact ⟨h.calls.slot, h.calls.sending, h.calls.once, h.calls.turn⟩
  · constructor
    · exact h.responses.waiter_lt
    · exact h.responses.received
    · exact h.responses.intact
    · intro _ g other hother
      rw [houtstanding]
      exact h.responses.complete hconnected g other hother
    · intro _ place hplace
      rw [houtstanding]
      exact h.responses.free hconnected place hplace
    · exact h.responses.ordered

/-- A message that is handed over is the next one of the flow that waits. -/
theorem handOver {receiver : Receiver Nat Response} {message : Response} (h : c.Correlated)
    (hsound : receiver.Sound) (hand : c.receiver.HandsOver receiver stream f message)
    (hopen : c.IsOpen f flow) (hstream : flow.stream = stream) (hsucceeded : 0 < flow.succeeded) :
    Correlated { c with receiver } := by
  have hreceived : ∀ g, receivedBy { c with receiver } g =
      c.receivedBy g ++ if f = g then [message] else [] :=
    fun g => receivedBy_of_handsOver (d := { c with receiver }) hand
  have houtstanding : ∀ place, c.outstanding place =
      (if stream = place then [message] else []) ++ outstanding { c with receiver } place := by
    intro place
    show c.receiver.unread place ++ valuesOf c.receiver.incoming place ++ _ =
      _ ++ (receiver.unread place ++ valuesOf receiver.incoming place ++ _)
    rw [hand.oldest, hand.incoming, List.append_assoc, List.append_assoc, List.append_assoc]
    rfl
  -- another open flow has another stream
  have happart : ∀ {g : Nat} {other : Flow}, c.IsOpen g other → g ≠ f → stream ≠ other.stream := by
    intro g other hother hne heq
    exact hne (h.owners.distinct g f other flow hother hopen (hstream.trans heq).symm)
  have hprefix : c.receivedBy f ++ c.receiver.unread stream <+: responsesOf f flow.sent := by
    rcases h.prefixed hopen with ⟨hzero, -⟩ | hprefix
    · omega
    · rw [hstream] at hprefix
      exact hprefix
  refine h.withReceiver hsound ?_ ?_
  · intro place g hsome
    rw [hand.slot] at hsome
    split at hsome
    · cases hsome
    · exact h.calls.slot place g hsome
  · constructor
    · show ∀ entry ∈ receiver.resolved, entry.waiter < c.flows.length
      rw [hand.resolved]
      intro entry hentry
      rcases List.mem_append.mp hentry with hold | hnew
      · exact h.responses.waiter_lt entry hold
      · rw [List.mem_singleton.mp hnew]
        exact (List.getElem?_eq_some_iff.mp hopen.1).1
    · intro g
      rw [hreceived]
      split
      next heq =>
        subst heq
        apply eq_responsesOf_of_isPrefix (n := flow.sent)
        refine .trans ?_ hprefix
        rw [hand.oldest stream, if_pos rfl, ← List.append_assoc]
        exact List.prefix_append _ _
      · rw [List.append_nil]
        exact h.responses.received g
    · show receiver.isConnected = true → _ ∧ ∀ entry ∈ receiver.resolved, _
      rw [hand.connected, hand.resolved]
      intro hconnected
      obtain ⟨hhealthy, hanswered⟩ := h.responses.intact hconnected
      refine ⟨hhealthy, ?_⟩
      intro entry hentry
      rcases List.mem_append.mp hentry with hold | hnew
      · exact hanswered entry hold
      · rw [List.mem_singleton.mp hnew]
        rintro ⟨⟩
    · show receiver.isConnected = true → _
      rw [hand.connected]
      intro hconnected g other hother
      have hcomplete := h.responses.complete hconnected g other hother
      rw [houtstanding, ← List.append_assoc] at hcomplete
      rw [hreceived]
      by_cases hsame : f = g
      · subst hsame
        cases hopen.1.symm.trans hother.1
        rw [if_pos hstream.symm] at hcomplete
        rw [if_pos rfl]
        exact hcomplete
      · rw [if_neg (happart hother (Ne.symm hsame)), List.append_nil] at hcomplete
        rw [if_neg hsame, List.append_nil]
        exact hcomplete
    · show receiver.isConnected = true → _
      rw [hand.connected]
      intro hconnected place hplace
      have hnone := h.responses.free hconnected place hplace
      rw [houtstanding, List.append_eq_nil_iff] at hnone
      exact hnone.2
    · show receiver.isConnected = false → _
      rw [hand.connected]
      intro hclosed g other hother
      rw [Untouched, hreceived]
      by_cases hsame : f = g
      · subst hsame
        cases hopen.1.symm.trans hother.1
        right
        rw [if_pos rfl, hstream, List.append_assoc]
        rw [hand.oldest stream, if_pos rfl] at hprefix
        exact hprefix
      · rw [if_neg hsame, List.append_nil]
        have hunread := hand.oldest other.stream
        rw [if_neg (happart hother (Ne.symm hsame)), List.nil_append] at hunread
        have hordered := h.responses.ordered hclosed g other hother
        rw [hunread] at hordered
        exact hordered

/-- What holds of the responses when nothing is handed over and no frame is lost. -/
theorem responses_of_moved {receiver : Receiver Nat Response} (h : c.Correlated)
    (hconnected : receiver.isConnected = c.receiver.isConnected)
    (hresolved : receiver.resolved = c.receiver.resolved)
    (hmoved : ∀ place, receiver.unread place ++ valuesOf receiver.incoming place =
      c.receiver.unread place ++ valuesOf c.receiver.incoming place)
    (hunread : c.receiver.isConnected = false →
      ∀ place, receiver.unread place = c.receiver.unread place) :
    Responses { c with receiver } := by
  have hreceived : ∀ g, receivedBy { c with receiver } g = c.receivedBy g := by
    intro g
    apply receivedBy_of_resolved
    exact hresolved
  have houtstanding : ∀ place, outstanding { c with receiver } place = c.outstanding place := by
    intro place
    show receiver.unread place ++ valuesOf receiver.incoming place ++ _ = _
    rw [hmoved]
    rfl
  constructor
  · show ∀ entry ∈ receiver.resolved, entry.waiter < c.flows.length
    rw [hresolved]
    exact h.responses.waiter_lt
  · intro g
    rw [hreceived]
    exact h.responses.received g
  · show receiver.isConnected = true → _ ∧ ∀ entry ∈ receiver.resolved, _
    rw [hconnected, hresolved]
    exact h.responses.intact
  · show receiver.isConnected = true → _
    rw [hconnected]
    intro hopen g other hother
    rw [houtstanding, hreceived]
    exact h.responses.complete hopen g other hother
  · show receiver.isConnected = true → _
    rw [hconnected]
    intro hopen place hplace
    rw [houtstanding]
    exact h.responses.free hopen place hplace
  · show receiver.isConnected = false → _
    rw [hconnected]
    intro hclosed g other hother
    rw [Untouched, hreceived]
    show _ ∨ _ ++ receiver.unread other.stream <+: _
    rw [hunread hclosed]
    exact h.responses.ordered hclosed g other hother

/-- A flow that enters the slot of its stream waits for its next response. -/
theorem register {receiver : Receiver Nat Response} (h : c.Correlated) (hsound : receiver.Sound)
    (hregister : c.receiver.Registers receiver stream f) (hflow : c.flows[f]? = some flow)
    (hstream : flow.stream = stream) (hidle : flow.status = .idle)
    (hsucceeded : 0 < flow.succeeded) : Correlated { c with receiver } := by
  refine h.withReceiver hsound ?_ ?_
  · intro place g hsome
    rw [hregister.slot] at hsome
    split at hsome
    next heq =>
      cases hsome
      exact ⟨flow, hflow, hstream.trans heq, hidle, hsucceeded⟩
    · exact h.calls.slot place g hsome
  · apply h.responses_of_moved hregister.connected hregister.resolved
    · intro place
      rw [hregister.unread, hregister.incoming]
    · exact fun _ place => hregister.unread place

/-- Frames that come nearer stay in line. -/
theorem read {receiver : Receiver Nat Response} (h : c.Correlated) (hsound : receiver.Sound)
    (hreads : c.receiver.Reads receiver) : Correlated { c with receiver } := by
  refine h.withReceiver hsound ?_ ?_
  · intro place g hsome
    exact h.calls.slot place g ((hreads.slot place).symm.trans hsome)
  · exact h.responses_of_moved hreads.connected hreads.resolved hreads.moved hreads.closed

theorem fail {receiver : Receiver Nat Response} (h : c.Correlated) (hsound : receiver.Sound)
    (hfails : c.receiver.Fails receiver) : Correlated { c with receiver } := by
  refine h.withReceiver hsound ?_ ?_
  · intro place g hsome
    cases (hfails.slot place).symm.trans hsome
  · exact h.responses_of_fails hfails rfl (fun g other hother => ⟨other, hother, rfl, rfl, rfl⟩)
      fun entry hentry => hentry

theorem callWait (h : c.Correlated) (hflow : c.flows[f]? = some flow)
    (hgoOn : c.CanGoOn f flow) (hlt : (c.receivedBy f).length < flow.succeeded)
    (hstream : flow.stream < c.receiver.receivingPromiseMap.length) :
    Correlated { c with receiver := c.receiver.waitNextMessage flow.stream f } := by
  obtain ⟨hidle, hslot, -⟩ := hgoOn
  have hopen : c.IsOpen f flow := by
    refine ⟨hflow, ?_⟩
    rw [hidle]
    rintro ⟨⟩
  have hsucceeded : 0 < flow.succeeded := Nat.zero_lt_of_lt hlt
  have hsound := h.sound.waitNextMessage hstream f
  rcases h.sound.wait_effect hstream with ⟨message, hand⟩ | ⟨holder, hheld⟩ | hregister
  · exact h.handOver hsound hand hopen rfl hsucceeded
  · -- a waiter of this stream would be this flow
    obtain ⟨other, hget, hsame, hstatus, -⟩ := h.calls.slot flow.stream holder hheld
    have hother : c.IsOpen holder other := by
      refine ⟨hget, ?_⟩
      rw [hstatus]
      rintro ⟨⟩
    have heq := h.owners.distinct holder f other flow hother hopen hsame
    rw [heq] at hheld
    exact absurd hheld hslot
  · exact h.register hsound hregister hflow rfl hidle hsucceeded

/-- The receive loop and the closing of the connection. -/
theorem receive {event : Receiver.Event Nat Response} {receiver : Receiver Nat Response}
    (h : c.Correlated) (hinternal : event.IsInternal)
    (hstep : c.receiver.step event = some receiver) : Correlated { c with receiver } := by
  have hsound := h.sound.step hstep
  rcases h.sound.receive_effect hinternal hstep with
    hreads | ⟨stream, waiter, message, hslot, hand⟩ | hfails
  · exact h.read hsound hreads
  · obtain ⟨flow, hflow, hstream, hidle, hsucceeded⟩ := h.calls.slot stream waiter hslot
    have hopen : c.IsOpen waiter flow := by
      refine ⟨hflow, ?_⟩
      rw [hidle]
      rintro ⟨⟩
    exact h.handOver hsound hand hopen hstream hsucceeded
  · exact h.fail hsound hfails

/-- Every step keeps the invariant. -/
theorem step {event : Event} (h : c.Correlated) (hstep : c.step event = some d) :
    d.Correlated := by
  cases stepTo hstep with
  | openStream free => exact h.openStream free
  | callSend flow_eq goOn => exact h.callSend flow_eq goOn
  | startSend turn connected => exact h.startSend turn connected
  | finishSend turn flow_eq => exact h.finishSend turn flow_eq
  | failSend turn flow_eq => exact h.failSend turn flow_eq
  | serverAnswer first split connected => exact h.serverAnswer first split connected
  | callWait flow_eq goOn lt stream_lt => exact h.callWait flow_eq goOn lt stream_lt
  | receive internal step => exact h.receive internal step
  | release flow_eq ended => exact h.release flow_eq ended

theorem create (maxStreams maxPendingMessages : Nat) :
    (create maxStreams maxPendingMessages).Correlated := by
  have hnone : ∀ f flow, ¬ (SharedConnection.create maxStreams maxPendingMessages).IsOpen f flow :=
    fun f flow hopen => absurd hopen.1 (by rintro ⟨⟩)
  constructor
  · exact Receiver.create_sound maxStreams maxPendingMessages
  · constructor
    · exact List.nodup_range'
    · intro f flow hopen
      exact absurd hopen (hnone f flow)
    · intro f g flow other hopen
      exact absurd hopen (hnone f flow)
  · constructor
    · intro place f hsome
      cases (Receiver.slot_create place).symm.trans hsome
    · rintro _ ⟨⟩
    · exact .nil
    · rintro _ ⟨⟩
  · constructor
    · rintro _ ⟨⟩
    · exact fun f => ⟨0, rfl⟩
    · exact fun _ => ⟨(by rintro _ ⟨⟩), (by rintro _ ⟨⟩)⟩
    · intro _ f flow hopen
      exact absurd hopen (hnone f flow)
    · intro _ place _
      rw [outstanding, Receiver.unread]
      show Receiver.queue (Receiver.create maxStreams maxPendingMessages) place ++ [] ++ [] ++ [] = []
      rw [Receiver.queue_create]
      rfl
    · intro _ f flow hopen
      exact absurd hopen (hnone f flow)

end Correlated

theorem correlated_of_reachable {maxStreams maxPendingMessages : Nat}
    (h : (system maxStreams maxPendingMessages).Reachable c) : c.Correlated := by
  apply Math.TransitionSystem.Reachable.invariant Correlated _ _ h
  · intro c hstart
    cases hstart
    exact .create maxStreams maxPendingMessages
  · intro c event d hc hstep
    exact hc.step hstep

/-- The requests that have no response yet and the responses that were not handed
over, apart from the received queues. -/
def wire (c : SharedConnection) : List (Nat × Response) :=
  c.receiver.loop.frame ++ c.receiver.incoming ++ c.server ++ c.unwritten

/-- Every message a flow receives is the response to its own request at the same
position. -/
theorem Correlated.received_eq (h : c.Correlated) (f i : Nat) (message : Response)
    (hget : (c.receivedBy f)[i]? = some message) : message = Response.mk f i := by
  obtain ⟨n, hreceived⟩ := h.responses.received f
  rw [hreceived, responsesOf, List.getElem?_map, Option.map_eq_some_iff] at hget
  obtain ⟨position, hposition, rfl⟩ := hget
  obtain ⟨hlt, rfl⟩ := List.getElem?_eq_some_iff.mp hposition
  rw [List.getElem_range]

/-- Nothing is on its way to a free stream of a ready connection. -/
theorem Correlated.unused_of_mem_free (h : c.Correlated) (hconnected : c.receiver.isConnected = true)
    (stream : Nat) (hfree : stream ∈ c.freeStreamIds) :
    c.receiver.queue stream = [] ∧ ∀ response, (stream, response) ∉ c.wire := by
  have hnone := h.responses.free hconnected stream hfree
  simp only [outstanding, Receiver.unread, List.append_eq_nil_iff] at hnone
  obtain ⟨⟨⟨hqueue, hframe⟩, hincoming⟩, hserver, hunwritten⟩ := hnone
  refine ⟨hqueue, ?_⟩
  intro response hmem
  rw [← Math.mem_valuesOf, wire, Math.valuesOf_append, Math.valuesOf_append,
    Math.valuesOf_append, hframe, hincoming, hserver, hunwritten] at hmem
  cases hmem

end CqlDriver.SharedConnection
