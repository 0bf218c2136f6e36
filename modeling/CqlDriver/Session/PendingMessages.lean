import CqlDriver.Math.Runs
import CqlDriver.Session.Correlation

/-!
# The limit of pending messages

`prepareQueries` sends all its requests before it waits for the first response, and what arrives
before its wait is put into the received queue of the stream, which has a limit. As long as no flow
has more requests without a response than the limit, nothing on this side closes the connection; one
more, and a receive loop that another flow keeps running may close it, with all its flows.

## Main definitions

* `SharedConnection.KeepsLimit` — what flows and the socket may do
* `SharedConnection.InRange`, `SharedConnection.WithinLimit` — the invariants
* `SharedConnection.flooded` — a flow that sends and does not wait

## Main results

* `SharedConnection.intact_of_keepsLimit` — the connection stays open
* `SharedConnection.limit_is_sharp` — one more request, and it may be closed
-/

namespace CqlDriver

open Math (valuesOf)

/-! ## Room for a message -/

namespace Receiver

variable {ω μ : Type*} {r q : Receiver ω μ} {stream : Nat} {message : μ}

/-- A message that somebody waits for or the queue has room for leaves the connection open. -/
theorem isConnected_receiveBody (h : r.Sound) (hlt : stream < r.receivingPromiseMap.length)
    (hroom : r.slot stream = none → (r.queue stream).length < r.maxPendingMessages) :
    (r.receiveBody stream message).isConnected = r.isConnected := by
  rw [receiveBody, if_neg (Nat.not_le.mpr (h.slots.lengths ▸ hlt))]
  cases hslot : r.slot stream with
  | some waiter =>
    simp only [if_neg (Nat.ne_of_gt (h.slots.count_pos hslot))]
    rfl
  | none =>
    simp only [if_pos (hroom hslot)]
    rfl

/-- The limit is set once. -/
theorem maxPendingMessages_of_step {event : Event ω μ} (hstep : r.step event = some q) :
    q.maxPendingMessages = r.maxPendingMessages := by
  cases stepTo hstep with
  | wait lt =>
    rw [waitNextMessage]
    split
    · rfl
    · split
      · rfl
      · split
        · rw [startReceiver]
          split
          · rfl
          · rfl
        · rfl
  | receiveBody reading =>
    rw [receiveBody]
    split
    · rfl
    · split
      · split
        · rfl
        · rfl
      · split
        · rfl
        · rfl
  | arrive | receiveHeader | receiveError | startError | close => rfl

end Receiver

namespace SharedConnection

variable {c d : SharedConnection} {f g : Nat} {flow other : Flow} {stream maxStreams : Nat}
  {maxPendingMessages : Nat}

/-! ## Requests on their way -/

theorem exists_of_startSend (hstep : c.step .startSend = some d) :
    ∃ stream response rest, c.sending = ⟨stream, response, false⟩ :: rest ∧
      d = { c with
        sending := ⟨stream, response, true⟩ :: rest
        server := c.server ++ [(stream, response)] } := by
  simp only [step] at hstep
  split at hstep
  next stream response rest hturn =>
    obtain ⟨-, hsent⟩ := Option.ite_none_right_eq_some.mp hstep
    exact ⟨stream, response, rest, hturn, (Option.some.inj hsent).symm⟩
  · cases hstep

theorem exists_of_finishSend (hstep : c.step .finishSend = some d) :
    ∃ stream response rest flow, c.sending = ⟨stream, response, true⟩ :: rest ∧
      c.flows[response.flow]? = some flow ∧ d = { c.setFlow response.flow
        { flow with succeeded := flow.succeeded + 1, status := .idle } with sending := rest } := by
  simp only [step] at hstep
  split at hstep
  next stream response rest hturn =>
    split at hstep
    next flow hflow =>
      exact ⟨stream, response, rest, flow, hturn, hflow, (Option.some.inj hstep).symm⟩
    · cases hstep
  · cases hstep

theorem exists_of_serverAnswer (hstep : c.step (.serverAnswer stream) = some d) :
    ∃ before response after, (∀ request ∈ before, request.1 ≠ stream) ∧
      c.server = before ++ (stream, response) :: after ∧ d = { c with
        receiver := { c.receiver with
          incoming := c.receiver.incoming ++ [(stream, response)]
          arrived := c.receiver.arrived ++ [(stream, response)] }
        server := before ++ after } := by
  simp only [step] at hstep
  split at hstep
  next tag response hfind =>
    obtain ⟨receiver, hreceive, rfl⟩ := Option.map_eq_some_iff.mp hstep
    cases Receiver.stepTo hreceive with
    | arrive =>
      obtain ⟨htag, before, after, hserver, hbefore⟩ := List.find?_eq_some_iff_append.mp hfind
      obtain rfl : tag = stream := of_decide_eq_true htag
      have hfirst : ∀ request ∈ before, request.1 ≠ tag := fun request hrequest =>
        of_decide_eq_false (by simpa using hbefore request hrequest)
      refine ⟨before, response, after, hfirst, hserver, ?_⟩
      rw [hserver, List.eraseP_append_right _ (by simpa using hfirst),
        List.eraseP_cons_of_pos (by simp)]
  · cases hstep

/-! ## The streams of a connection -/

/-- The streams are those that the connection has. -/
structure InRange (c : SharedConnection) : Prop where
  free_lt : ∀ stream ∈ c.freeStreamIds, stream < c.receiver.receivingPromiseMap.length
  stream_lt : ∀ flow ∈ c.flows, flow.stream < c.receiver.receivingPromiseMap.length

namespace InRange

theorem setFlow (h : c.InRange) (hflow : c.flows[f]? = some flow)
    (hd : d.flows = (c.setFlow f other).flows) (hstream : other.stream = flow.stream)
    (hfree : ∀ stream ∈ d.freeStreamIds, stream ∈ c.freeStreamIds ∨ stream = flow.stream)
    (hlength : d.receiver.receivingPromiseMap.length = c.receiver.receivingPromiseMap.length) :
    d.InRange := by
  have hlt := h.stream_lt flow (List.mem_of_getElem? hflow)
  constructor
  · intro place hplace
    rw [hlength]
    rcases hfree place hplace with hold | rfl
    · exact h.free_lt place hold
    · exact hlt
  · intro next hnext
    rw [hlength]
    rw [hd] at hnext
    rcases List.mem_or_eq_of_mem_set hnext with hold | rfl
    · exact h.stream_lt next hold
    · rw [hstream]
      exact hlt

theorem openStream {rest : List Nat} (h : c.InRange) (hfree : c.freeStreamIds = stream :: rest) :
    InRange { c with freeStreamIds := rest, flows := c.flows ++ [⟨stream, 0, 0, .idle⟩] } where
  free_lt place hplace := h.free_lt place (hfree ▸ List.mem_cons_of_mem _ hplace)
  stream_lt flow hflow := by
    rcases List.mem_append.mp hflow with hold | hnew
    · exact h.stream_lt flow hold
    · rw [List.mem_singleton.mp hnew]
      exact h.free_lt stream (hfree ▸ List.mem_cons_self)

theorem withReceiver {receiver : Receiver Nat Response} {server : List (Nat × Response)}
    (h : c.InRange)
    (hlength : receiver.receivingPromiseMap.length = c.receiver.receivingPromiseMap.length) :
    InRange { c with receiver, server } := by
  constructor
  · show ∀ stream ∈ c.freeStreamIds, stream < receiver.receivingPromiseMap.length
    rw [hlength]
    exact h.free_lt
  · show ∀ flow ∈ c.flows, flow.stream < receiver.receivingPromiseMap.length
    rw [hlength]
    exact h.stream_lt

theorem step {event : Event} (h : c.InRange) (hstep : c.step event = some d) : d.InRange := by
  cases stepTo hstep with
  | openStream free => exact h.openStream free
  | callSend flow_eq goOn => exact h.setFlow flow_eq rfl rfl (fun _ hplace => .inl hplace) rfl
  | startSend turn connected => exact ⟨h.free_lt, h.stream_lt⟩
  | finishSend turn flow_eq => exact h.setFlow flow_eq rfl rfl (fun _ hplace => .inl hplace) rfl
  | failSend turn flow_eq =>
    exact h.setFlow flow_eq rfl rfl (fun _ hplace => .inl hplace) (List.length_map _)
  | serverAnswer first split connected => exact h.withReceiver rfl
  | @callWait f flow flow_eq goOn lt stream_lt =>
    have hwait : c.receiver.step (.wait flow.stream f) =
        some (c.receiver.waitNextMessage flow.stream f) := if_pos stream_lt
    exact h.withReceiver (Receiver.length_of_step hwait)
  | receive internal step => exact h.withReceiver (Receiver.length_of_step step)
  | release flow_eq ended =>
    exact h.setFlow flow_eq rfl rfl (fun place hplace => (List.mem_cons.mp hplace).symm) rfl

theorem create (maxStreams maxPendingMessages : Nat) :
    (SharedConnection.create maxStreams maxPendingMessages).InRange := by
  constructor
  · intro stream hstream
    obtain ⟨hge, hlt⟩ := List.mem_range'_1.mp hstream
    show stream < (List.replicate maxStreams none).length
    rw [List.length_replicate]
    omega
  · rintro flow ⟨⟩

end InRange

theorem inRange_of_reachable {maxStreams maxPendingMessages : Nat}
    (h : (system maxStreams maxPendingMessages).Reachable c) : c.InRange := by
  apply Math.TransitionSystem.Reachable.invariant InRange _ _ h
  · intro c hstart
    cases hstart
    exact .create maxStreams maxPendingMessages
  · intro c event d hc hstep
    exact hc.step hstep

/-! ## What flows may do -/

/-- A flow has room for one more message, nothing fails outside of this side, and nobody closes the
connection. -/
def KeepsLimit (maxPendingMessages : Nat) (c : SharedConnection) : Event → Prop
  | .callSend f => ∀ flow ∈ c.flows[f]?,
      flow.sent < (c.receivedBy f).length + maxPendingMessages
  | .failSend | .receiveError | .close => False
  | .openStream | .startSend | .finishSend | .serverAnswer _ | .callWait _ | .receiveHeader
  | .receiveBody | .startError | .release _ => True

instance (c : SharedConnection) (event : Event) : Decidable (c.KeepsLimit maxPendingMessages event) :=
  match event with
  | .callSend f => inferInstanceAs (Decidable (∀ flow ∈ c.flows[f]?, _))
  | .failSend | .receiveError | .close => inferInstanceAs (Decidable False)
  | .openStream | .startSend | .finishSend | .serverAnswer _ | .callWait _ | .receiveHeader
  | .receiveBody | .startError | .release _ => inferInstanceAs (Decidable True)

/-- Nothing has closed the connection, the streams are those that the connection has, and no flow
waits for more responses than the queue of its stream holds. -/
structure WithinLimit (maxPendingMessages : Nat) (c : SharedConnection) : Prop extends
    c.InRange where
  correlated : c.Correlated
  connected : c.receiver.isConnected = true
  limit : c.receiver.maxPendingMessages = maxPendingMessages
  owned : ∀ stream, c.outstanding stream ≠ [] → ∃ f flow, c.IsOpen f flow ∧ flow.stream = stream
  pending : ∀ f flow, c.flows[f]? = some flow →
    flow.sent ≤ (c.receivedBy f).length + maxPendingMessages

/-- A flow that is rewritten and not released is open as before. -/
theorem IsOpen.setFlow {next : Flow} (h : c.IsOpen g other) (hflow : c.flows[f]? = some flow)
    (hd : d.flows = (c.setFlow f next).flows) (hstream : next.stream = flow.stream)
    (hnext : next.status ≠ .released) : ∃ later, d.IsOpen g later ∧ later.stream = other.stream := by
  by_cases hsame : f = g
  · subst hsame
    cases hflow.symm.trans h.1
    refine ⟨next, ⟨?_, hnext⟩, hstream⟩
    rw [hd, getElem?_setFlow hflow, if_pos rfl]
  · refine ⟨other, ⟨?_, h.2⟩, rfl⟩
    rw [hd, getElem?_setFlow hflow, if_neg hsame]
    exact h.1

/-- A wait on the stream of its flow gets a message or enters the slot. -/
theorem Correlated.wait_effect (h : c.Correlated) (hflow : c.flows[f]? = some flow)
    (hgoOn : c.CanGoOn f flow) (hlt : flow.stream < c.receiver.receivingPromiseMap.length) :
    (∃ message, c.receiver.HandsOver (c.receiver.waitNextMessage flow.stream f) flow.stream f
      message) ∨ c.receiver.Registers (c.receiver.waitNextMessage flow.stream f) flow.stream f := by
  rcases h.sound.wait_effect hlt with hand | ⟨holder, hheld⟩ | hregister
  · exact .inl hand
  · -- a waiter of this stream would be this flow
    obtain ⟨other, hget, hsame, hidle, -⟩ := h.calls.slot flow.stream holder hheld
    have heq := h.owners.distinct holder f other flow ⟨hget, by rw [hidle]; rintro ⟨⟩⟩
      ⟨hflow, by rw [hgoOn.1]; rintro ⟨⟩⟩ hsame
    rw [heq] at hheld
    exact absurd hheld hgoOn.2.1
  · exact .inr hregister

namespace WithinLimit

/-! ## Flows -/

theorem pending_setFlow {next : Flow} (h : c.WithinLimit maxPendingMessages)
    (hflow : c.flows[f]? = some flow)
    (hnext : next.sent ≤ (c.receivedBy f).length + maxPendingMessages) (g : Nat) (other : Flow)
    (hother : (c.setFlow f next).flows[g]? = some other) :
    other.sent ≤ (c.receivedBy g).length + maxPendingMessages := by
  rw [getElem?_setFlow hflow] at hother
  split at hother
  next hsame =>
    subst hsame
    cases hother
    exact hnext
  · exact h.pending g other hother

theorem openStream {rest : List Nat} (h : c.WithinLimit maxPendingMessages)
    (hfree : c.freeStreamIds = stream :: rest) :
    WithinLimit maxPendingMessages
      { c with freeStreamIds := rest, flows := c.flows ++ [⟨stream, 0, 0, .idle⟩] } where
  toInRange := h.toInRange.openStream hfree
  correlated := h.correlated.openStream hfree
  connected := h.connected
  limit := h.limit
  owned place hplace := by
    obtain ⟨f, flow, ⟨hget, hstatus⟩, hstream⟩ := h.owned place hplace
    exact ⟨f, flow, ⟨Math.getElem?_append_of_some _ hget, hstatus⟩, hstream⟩
  pending f flow hget := by
    rcases Math.getElem?_concat_some hget with hold | ⟨-, rfl⟩
    · exact h.pending f flow hold
    · exact Nat.zero_le _

theorem callSend (h : c.WithinLimit maxPendingMessages) (hflow : c.flows[f]? = some flow)
    (hgoOn : c.CanGoOn f flow) (hlimit : flow.sent < (c.receivedBy f).length + maxPendingMessages) :
    WithinLimit maxPendingMessages
      { c.setFlow f { flow with sent := flow.sent + 1, status := .sending } with
        sending := c.sending ++ [⟨flow.stream, ⟨f, flow.sent⟩, false⟩] } where
  toInRange := h.toInRange.setFlow hflow rfl rfl (fun _ hplace => .inl hplace) rfl
  correlated := h.correlated.callSend hflow hgoOn
  connected := h.connected
  limit := h.limit
  owned place hplace := by
    have hkept : ∀ {g : Nat} {other : Flow}, c.IsOpen g other → other.stream = place →
        ∃ g later, IsOpen { c.setFlow f { flow with sent := flow.sent + 1, status := .sending } with
          sending := c.sending ++ [⟨flow.stream, ⟨f, flow.sent⟩, false⟩] } g later ∧
            later.stream = place := by
      intro g other hopen hstream
      obtain ⟨later, hlater, hsame⟩ := hopen.setFlow (d := { c.setFlow f
        { flow with sent := flow.sent + 1, status := .sending } with
          sending := c.sending ++ [⟨flow.stream, ⟨f, flow.sent⟩, false⟩] })
            hflow rfl rfl (by rintro ⟨⟩)
      exact ⟨g, later, hlater, hsame.trans hstream⟩
    by_cases hsame : flow.stream = place
    · exact hkept ⟨hflow, by rw [hgoOn.1]; rintro ⟨⟩⟩ hsame
    · have hold : c.outstanding place ≠ [] := by
        simpa [outstanding, unwritten, setFlow, Math.valuesOf_cons_of_ne hsame] using hplace
      obtain ⟨g, other, hopen, hstream⟩ := h.owned place hold
      exact hkept hopen hstream
  pending := h.pending_setFlow hflow hlimit

theorem startSend {response : Response} {rest : List Sending}
    (h : c.WithinLimit maxPendingMessages)
    (hturn : c.sending = ⟨stream, response, false⟩ :: rest) :
    WithinLimit maxPendingMessages { c with
      sending := ⟨stream, response, true⟩ :: rest
      server := c.server ++ [(stream, response)] } where
  toInRange := ⟨h.free_lt, h.stream_lt⟩
  correlated := h.correlated.startSend hturn h.connected
  connected := h.connected
  limit := h.limit
  owned place hplace := by
    apply h.owned place
    rw [outstanding, unwritten, Math.valuesOf_append, List.append_assoc (valuesOf c.server place),
      ← Math.valuesOf_append] at hplace
    rw [outstanding, unwritten, hturn]
    exact hplace
  pending := h.pending

theorem finishSend {response : Response} {rest : List Sending}
    (h : c.WithinLimit maxPendingMessages)
    (hturn : c.sending = ⟨stream, response, true⟩ :: rest)
    (hflow : c.flows[response.flow]? = some flow) :
    WithinLimit maxPendingMessages { c.setFlow response.flow
      { flow with succeeded := flow.succeeded + 1, status := .idle } with sending := rest } where
  toInRange := h.toInRange.setFlow hflow rfl rfl (fun _ hplace => .inl hplace) rfl
  correlated := h.correlated.finishSend hturn hflow
  connected := h.connected
  limit := h.limit
  owned place hplace := by
    have hold : c.outstanding place ≠ [] := by
      rw [outstanding, unwritten, hturn]
      exact hplace
    obtain ⟨g, other, hopen, hstream⟩ := h.owned place hold
    obtain ⟨later, hlater, hsame⟩ := hopen.setFlow (d := { c.setFlow response.flow
      { flow with succeeded := flow.succeeded + 1, status := .idle } with sending := rest })
        hflow rfl rfl (by rintro ⟨⟩)
    exact ⟨g, later, hlater, hsame.trans hstream⟩
  pending := h.pending_setFlow hflow (h.pending response.flow flow hflow)

theorem release (h : c.WithinLimit maxPendingMessages) (hflow : c.flows[f]? = some flow)
    (hended : c.HasEnded f flow) :
    WithinLimit maxPendingMessages { c.setFlow f { flow with status := .released } with
      freeStreamIds := flow.stream :: c.freeStreamIds } where
  toInRange := h.toInRange.setFlow hflow rfl rfl (fun _ hplace => (List.mem_cons.mp hplace).symm) rfl
  correlated := h.correlated.release hflow hended
  connected := h.connected
  limit := h.limit
  owned place hplace := by
    obtain ⟨g, other, hopen, hstream⟩ := h.owned place hplace
    refine ⟨g, other, ⟨?_, hopen.2⟩, hstream⟩
    show (c.setFlow f _).flows[g]? = _
    rw [getElem?_setFlow hflow]
    split
    next hsame =>
      -- nothing is left on the stream of a flow that ends
      subst hsame
      cases hflow.symm.trans hopen.1
      exact absurd (hstream ▸ h.correlated.outstanding_of_hasEnded h.connected hopen hended) hplace
    · exact hopen.1
  pending := h.pending_setFlow hflow (h.pending f flow hflow)

/-! ## The receive side -/

/-- Messages come nearer, and no wait gets fewer than it had. -/
theorem withReceiver {receiver : Receiver Nat Response} {server : List (Nat × Response)}
    (h : c.WithinLimit maxPendingMessages) (hcorrelated : Correlated { c with receiver, server })
    (hconnected : receiver.isConnected = true)
    (hlimit : receiver.maxPendingMessages = c.receiver.maxPendingMessages)
    (hlength : receiver.receivingPromiseMap.length = c.receiver.receivingPromiseMap.length)
    (howned : ∀ place, outstanding { c with receiver, server } place ≠ [] →
      c.outstanding place ≠ [])
    (hreceived : ∀ g, (c.receivedBy g).length ≤
      (receivedBy { c with receiver, server } g).length) :
    WithinLimit maxPendingMessages { c with receiver, server } where
  toInRange := h.toInRange.withReceiver hlength
  correlated := hcorrelated
  connected := hconnected
  limit := hlimit.trans h.limit
  owned place hplace := h.owned place (howned place hplace)
  pending g other hother :=
    (h.pending g other hother).trans (Nat.add_le_add_right (hreceived g) _)

/-- A step of the receive side that leaves the connection open. -/
theorem receive {event : Receiver.Event Nat Response} {receiver : Receiver Nat Response}
    (h : c.WithinLimit maxPendingMessages) (hstep : c.receiver.step event = some receiver)
    (hcorrelated : Correlated { c with receiver })
    (heffect : c.receiver.Reads receiver ∨
      (∃ stream waiter message, c.receiver.HandsOver receiver stream waiter message) ∨
        ∃ stream waiter, c.receiver.Registers receiver stream waiter) :
    WithinLimit maxPendingMessages { c with receiver } := by
  have hlimit := Receiver.maxPendingMessages_of_step hstep
  have hlength := Receiver.length_of_step hstep
  rcases heffect with hreads | ⟨stream, waiter, message, hand⟩ | ⟨stream, waiter, hregister⟩
  · apply h.withReceiver hcorrelated (hreads.connected.trans h.connected) hlimit hlength
    · intro place hplace
      change receiver.unread place ++ valuesOf receiver.incoming place ++ _ ≠ [] at hplace
      rw [hreads.moved] at hplace
      exact hplace
    · intro g
      rw [receivedBy_of_resolved (d := { c with receiver }) hreads.resolved]
  · apply h.withReceiver hcorrelated (hand.connected.trans h.connected) hlimit hlength
    · intro place hplace hnone
      rw [outstanding, hand.oldest, ← hand.incoming] at hnone
      simp only [List.append_eq_nil_iff] at hnone
      obtain ⟨⟨⟨-, hunread⟩, hincoming⟩, hserver, hunwritten⟩ := hnone
      apply hplace
      show receiver.unread place ++ valuesOf receiver.incoming place ++
        (valuesOf c.server place ++ valuesOf c.unwritten place) = []
      rw [hunread, hincoming, hserver, hunwritten]
      rfl
    · intro g
      rw [receivedBy_of_handsOver (d := { c with receiver }) hand, List.length_append]
      exact Nat.le_add_right _ _
  · apply h.withReceiver hcorrelated (hregister.connected.trans h.connected) hlimit hlength
    · intro place hplace
      change receiver.unread place ++ valuesOf receiver.incoming place ++ _ ≠ [] at hplace
      rw [hregister.unread, hregister.incoming] at hplace
      exact hplace
    · intro g
      rw [receivedBy_of_resolved (d := { c with receiver }) hregister.resolved]

theorem serverAnswer {response : Response} {before after : List (Nat × Response)}
    (h : c.WithinLimit maxPendingMessages) (hfirst : ∀ request ∈ before, request.1 ≠ stream)
    (hserver : c.server = before ++ (stream, response) :: after) :
    WithinLimit maxPendingMessages { c with
      receiver := { c.receiver with
        incoming := c.receiver.incoming ++ [(stream, response)]
        arrived := c.receiver.arrived ++ [(stream, response)] }
      server := before ++ after } := by
  apply h.withReceiver (h.correlated.serverAnswer hfirst hserver h.connected) h.connected rfl rfl
  · intro place hplace hnone
    simp only [outstanding, hserver, Math.valuesOf_append, List.append_eq_nil_iff] at hnone
    obtain ⟨⟨hunread, hincoming⟩, ⟨hbefore, hrest⟩, hunwritten⟩ := hnone
    apply hplace
    by_cases hsame : stream = place
    · subst hsame
      simp at hrest
    · rw [Math.valuesOf_cons_of_ne hsame] at hrest
      show (c.receiver.unread place ++ valuesOf (c.receiver.incoming ++ [(stream, response)]) place) ++
        (valuesOf (before ++ after) place ++ valuesOf c.unwritten place) = []
      simp [hunread, hincoming, hbefore, hrest, hunwritten, Math.valuesOf_cons_of_ne hsame]
  · exact fun g => Nat.le_refl _

theorem callWait (h : c.WithinLimit maxPendingMessages) (hflow : c.flows[f]? = some flow)
    (hgoOn : c.CanGoOn f flow) (hlt : (c.receivedBy f).length < flow.succeeded) :
    WithinLimit maxPendingMessages
      { c with receiver := c.receiver.waitNextMessage flow.stream f } := by
  have hstream := h.stream_lt flow (List.mem_of_getElem? hflow)
  have hstep : c.receiver.step (.wait flow.stream f) =
      some (c.receiver.waitNextMessage flow.stream f) := if_pos hstream
  apply h.receive hstep (h.correlated.callWait hflow hgoOn hlt hstream)
  rcases h.correlated.wait_effect hflow hgoOn hstream with ⟨message, hand⟩ | hregister
  · exact .inr (.inl ⟨flow.stream, f, message, hand⟩)
  · exact .inr (.inr ⟨flow.stream, f, hregister⟩)

/-- What is on its way on a stream is no more than its flow may have asked for. -/
theorem length_outstanding_le (h : c.WithinLimit maxPendingMessages) (hopen : c.IsOpen f flow) :
    (c.outstanding flow.stream).length ≤ maxPendingMessages := by
  have hcomplete := congrArg List.length (h.correlated.responses.complete h.connected f flow hopen)
  rw [List.length_append, length_responsesOf] at hcomplete
  have hpending := h.pending f flow hopen.1
  omega

theorem receiveBody {message : Response} (h : c.WithinLimit maxPendingMessages)
    (hreading : c.receiver.loop = .readingBody stream message) :
    WithinLimit maxPendingMessages { c with receiver := c.receiver.receiveBody stream message } := by
  have hstep : c.receiver.step .receiveBody = some (c.receiver.receiveBody stream message) := by
    simp only [Receiver.step, hreading]
  have hunread : c.receiver.unread stream = c.receiver.queue stream ++ [message] := by
    rw [Receiver.unread, hreading, ReceiveLoop.frame, Math.valuesOf_singleton, if_pos rfl]
  -- the message is on its way, so its stream belongs to a flow
  obtain ⟨f, flow, hopen, rfl⟩ := h.owned stream (by simp [outstanding, hunread])
  have hlength := h.length_outstanding_le hopen
  have hconnected : (c.receiver.receiveBody flow.stream message).isConnected =
      c.receiver.isConnected := by
    apply Receiver.isConnected_receiveBody h.correlated.sound
    · exact h.stream_lt flow (List.mem_of_getElem? hopen.1)
    · intro _
      rw [outstanding, hunread] at hlength
      simp only [List.length_append, List.length_singleton] at hlength
      rw [h.limit]
      omega
  have hinternal : (.receiveBody : Receiver.Event Nat Response).IsInternal := trivial
  apply h.receive hstep (h.correlated.receive hinternal hstep)
  rcases h.correlated.sound.receiveBody_effect hreading with hreads | ⟨waiter, -, hand⟩ | hfails
  · exact .inl hreads
  · exact .inr (.inl ⟨flow.stream, waiter, message, hand⟩)
  · exact absurd (hconnected.trans h.connected) (ne_true_of_eq_false hfails.connected)

theorem receiveHeader {receiver : Receiver Nat Response} (h : c.WithinLimit maxPendingMessages)
    (hstep : c.receiver.step .receiveHeader = some receiver) :
    WithinLimit maxPendingMessages { c with receiver } := by
  have hinternal : (.receiveHeader : Receiver.Event Nat Response).IsInternal := trivial
  apply h.receive hstep (h.correlated.receive hinternal hstep)
  rcases h.correlated.sound.receive_effect hinternal hstep with
    hreads | ⟨stream, waiter, message, -, hand⟩ | hfails
  · exact .inl hreads
  · exact .inr (.inl ⟨stream, waiter, message, hand⟩)
  · have hsame : receiver.isConnected = c.receiver.isConnected := by
      cases Receiver.stepTo hstep with
      | receiveHeader => rfl
    exact absurd (hsame.trans h.connected) (ne_true_of_eq_false hfails.connected)

/-- A step that keeps the limit keeps the connection open. -/
theorem step {event : Event} (h : c.WithinLimit maxPendingMessages)
    (hkeeps : c.KeepsLimit maxPendingMessages event) (hstep : c.step event = some d) :
    d.WithinLimit maxPendingMessages := by
  cases event with
  | failSend | receiveError | close => exact hkeeps.elim
  | openStream =>
    simp only [SharedConnection.step] at hstep
    split at hstep
    · cases hstep
    next hfree =>
      cases hstep
      exact h.openStream hfree
  | callSend f =>
    simp only [SharedConnection.step] at hstep
    split at hstep
    next flow hflow =>
      obtain ⟨hgoOn, hsent⟩ := Option.ite_none_right_eq_some.mp hstep
      cases hsent
      exact h.callSend hflow hgoOn (hkeeps flow hflow)
    · cases hstep
  | startSend =>
    obtain ⟨stream, response, rest, hturn, rfl⟩ := exists_of_startSend hstep
    exact h.startSend hturn
  | finishSend =>
    obtain ⟨stream, response, rest, flow, hturn, hflow, rfl⟩ := exists_of_finishSend hstep
    exact h.finishSend hturn hflow
  | serverAnswer stream =>
    obtain ⟨before, response, after, hfirst, hserver, rfl⟩ := exists_of_serverAnswer hstep
    exact h.serverAnswer hfirst hserver
  | callWait f =>
    simp only [SharedConnection.step] at hstep
    split at hstep
    next flow hflow =>
      obtain ⟨⟨hgoOn, hlt⟩, hwaited⟩ := Option.ite_none_right_eq_some.mp hstep
      obtain ⟨receiver, hwait, rfl⟩ := Option.map_eq_some_iff.mp hwaited
      cases Receiver.stepTo hwait with
      | wait => exact h.callWait hflow hgoOn hlt
    · cases hstep
  | receiveHeader =>
    obtain ⟨receiver, hreceive, rfl⟩ := Option.map_eq_some_iff.mp hstep
    exact h.receiveHeader hreceive
  | receiveBody =>
    obtain ⟨receiver, hreceive, rfl⟩ := Option.map_eq_some_iff.mp hstep
    cases Receiver.stepTo hreceive with
    | receiveBody hreading => exact h.receiveBody hreading
  | startError =>
    -- no loop was started without a socket
    obtain ⟨receiver, hreceive, rfl⟩ := Option.map_eq_some_iff.mp hstep
    cases Receiver.stepTo hreceive with
    | startError hbroken =>
      exact absurd (h.correlated.sound.intact h.connected) (Nat.ne_of_gt hbroken)
  | release f =>
    simp only [SharedConnection.step] at hstep
    split at hstep
    next flow hflow =>
      obtain ⟨hended, hreleased⟩ := Option.ite_none_right_eq_some.mp hstep
      cases hreleased
      exact h.release hflow hended
    · cases hstep

theorem create (maxStreams maxPendingMessages : Nat) :
    (create maxStreams maxPendingMessages).WithinLimit maxPendingMessages where
  toInRange := .create maxStreams maxPendingMessages
  correlated := .create maxStreams maxPendingMessages
  connected := rfl
  limit := rfl
  owned stream hstream := by
    apply absurd _ hstream
    show Receiver.queue (Receiver.create maxStreams maxPendingMessages) stream ++ [] ++ [] ++ [] = []
    rw [Receiver.queue_create]
    rfl
  pending f flow hflow := by cases hflow

end WithinLimit

theorem withinLimit_of_reachable
    (h : (system maxStreams maxPendingMessages).ReachableWhen (KeepsLimit maxPendingMessages) c) :
    c.WithinLimit maxPendingMessages := by
  apply Math.TransitionSystem.ReachableWhen.invariant _ _ _ h
  · rintro _ rfl
    exact .create maxStreams maxPendingMessages
  · intro c event d hc hkeeps hstep
    exact hc.step hkeeps hstep

/-- As long as no flow waits for more responses than a queue holds and nothing fails outside of this
side, the connection stays open: all sends and waits succeed. -/
theorem intact_of_keepsLimit
    (h : (system maxStreams maxPendingMessages).ReachableWhen (KeepsLimit maxPendingMessages) c) :
    c.receiver.isConnected = true ∧ (∀ flow ∈ c.flows, flow.status ≠ .failed) ∧
      ∀ f, ¬ c.WaitFailed f := by
  have hwithin := withinLimit_of_reachable h
  obtain ⟨hflows, hwaits⟩ := hwithin.correlated.responses.intact hwithin.connected
  refine ⟨hwithin.connected, hflows, ?_⟩
  rintro f ⟨entry, hentry, -, hnone⟩
  exact hwaits entry hentry hnone

/-- A flow has sent three requests, the messages of two are in its queue, and another flow waits. -/
theorem intact_run : ∃ c : SharedConnection, (c.receiver.isConnected = true ∧ (∀ flow ∈ c.flows, flow.status ≠ .failed) ∧
    ∀ f, ¬ c.WaitFailed f) ∧ c.receiver.queue 1 = [⟨0, 0⟩, ⟨0, 1⟩] ∧
      c.receiver.slot 2 = some 1 := by
  have hrun : ((system 3 3).runWhen (KeepsLimit 3) (create 3 3)
      [.openStream, .openStream, .callSend 0, .startSend, .finishSend, .callSend 0, .startSend,
        .finishSend, .callSend 0, .startSend, .finishSend, .callSend 1, .startSend, .finishSend,
        .callWait 1, .serverAnswer 1, .serverAnswer 1, .receiveHeader, .receiveBody, .receiveHeader,
        .receiveBody]).map (fun c => (c.receiver.queue 1, c.receiver.slot 2)) =
          some ([⟨0, 0⟩, ⟨0, 1⟩], some 1) := by decide
  obtain ⟨c, hc, hview⟩ := Option.map_eq_some_iff.mp hrun
  have hreach := Math.TransitionSystem.ReachableWhen.of_runWhen (.start rfl) hc
  exact ⟨c, intact_of_keepsLimit hreach, congrArg Prod.fst hview, congrArg Prod.snd hview⟩

/-! ## One more message -/

/-- A flow has sent so many requests and waited for none of them, while another flow waits. -/
def flooded (others maxPendingMessages count : Nat) : SharedConnection where
  receiver :=
    { isConnected := true
      receivingPromiseMap := none :: none :: some 1 :: List.replicate others none
      receivedMessageQueueMap := [] :: responsesOf 0 count :: [] :: List.replicate others []
      receivingPromiseCount := 1
      maxPendingMessages
      loop := .readingHeader
      brokenLoops := 0
      incoming := []
      arrived := (responsesOf 0 count).map (Prod.mk 1)
      resolved := [] }
  freeStreamIds := List.range' 3 others
  flows := [⟨1, count, count, .idle⟩, ⟨2, 1, 1, .idle⟩]
  sending := []
  server := [(2, ⟨1, 0⟩)]

/-- The response to one request more is being read. -/
def arriving (others maxPendingMessages count : Nat) : SharedConnection :=
  { flooded others maxPendingMessages count with
    receiver :=
      { (flooded others maxPendingMessages count).receiver with
        loop := .readingBody 1 ⟨0, count⟩
        arrived := (responsesOf 0 count).map (Prod.mk 1) ++ [(1, ⟨0, count⟩)] }
    flows := [⟨1, count + 1, count + 1, .idle⟩, ⟨2, 1, 1, .idle⟩] }

section Flood

variable {others count : Nat}

theorem run_flooded_zero (others maxPendingMessages : Nat) :
    (system (others + 3) maxPendingMessages).runWhen (KeepsLimit (maxPendingMessages + 1))
      (create (others + 3) maxPendingMessages)
        [.openStream, .openStream, .callSend 1, .startSend, .finishSend, .callWait 1] =
          some (flooded others maxPendingMessages 0) := rfl

theorem reachableWhen_arriving (hle : count ≤ maxPendingMessages)
    (h : (system (others + 3) maxPendingMessages).ReachableWhen
      (KeepsLimit (maxPendingMessages + 1)) (flooded others maxPendingMessages count)) :
    (system (others + 3) maxPendingMessages).ReachableWhen
      (KeepsLimit (maxPendingMessages + 1)) (arriving others maxPendingMessages count) := by
  have hkeeps : (flooded others maxPendingMessages count).KeepsLimit (maxPendingMessages + 1)
      (.callSend 0) := by
    rintro flow ⟨⟩
    show count < 0 + (maxPendingMessages + 1)
    omega
  have hallowed : ∀ event ∈ [Event.startSend, .finishSend, .serverAnswer 1, .receiveHeader],
      ∀ c : SharedConnection, c.KeepsLimit (maxPendingMessages + 1) event := by
    simp [KeepsLimit]
  exact .of_run (.step h hkeeps rfl) hallowed rfl

/-- The message is put into the queue if there is room. -/
theorem receiveBody_arriving (others maxPendingMessages count : Nat) :
    (arriving others maxPendingMessages count).receiver.receiveBody 1 ⟨0, count⟩ =
      if count < maxPendingMessages then (flooded others maxPendingMessages (count + 1)).receiver
      else (arriving others maxPendingMessages count).receiver.closeLoop := by
  have hlt : ¬ (arriving others maxPendingMessages count).receiver.receivedMessageQueueMap.length ≤ 1 := by
    simp [arriving, flooded]
  rw [Receiver.receiveBody, if_neg hlt]
  show (if (responsesOf 0 count).length < maxPendingMessages then _ else _) = _
  rw [length_responsesOf]
  split
  · rw [flooded, responsesOf_succ, List.map_append]
    rfl
  · rfl

theorem reachableWhen_flooded (others : Nat) (hle : count ≤ maxPendingMessages) :
    (system (others + 3) maxPendingMessages).ReachableWhen
      (KeepsLimit (maxPendingMessages + 1)) (flooded others maxPendingMessages count) := by
  induction count with
  | zero => exact .of_runWhen (.start rfl) (run_flooded_zero others maxPendingMessages)
  | succ count ih =>
    have hkeeps : (arriving others maxPendingMessages count).KeepsLimit (maxPendingMessages + 1)
      .receiveBody := trivial
    have hstep : (arriving others maxPendingMessages count).step .receiveBody =
        some (flooded others maxPendingMessages (count + 1)) := by
      have hreceiver := receiveBody_arriving others maxPendingMessages count
      rw [if_pos (Nat.lt_of_succ_le hle)] at hreceiver
      exact congrArg (fun receiver =>
        some { arriving others maxPendingMessages count with receiver }) hreceiver
    exact .step (reachableWhen_arriving (Nat.le_of_succ_le hle) (ih (Nat.le_of_succ_le hle))) hkeeps
      hstep

/-- One request more than the limit, and a message may find no room in the queue of its stream: the
connection is closed, and the wait of another flow fails, which has sent one request. -/
theorem limit_is_sharp (others maxPendingMessages : Nat) :
    ∃ c flow, (system (others + 3) maxPendingMessages).ReachableWhen
      (KeepsLimit (maxPendingMessages + 1)) c ∧ c.receiver.isConnected = false ∧
        c.flows[1]? = some flow ∧ flow.sent = 1 ∧ c.WaitFailed 1 := by
  have hreach := reachableWhen_arriving (Nat.le_refl maxPendingMessages)
    (reachableWhen_flooded others (Nat.le_refl maxPendingMessages))
  have hkeeps : (arriving others maxPendingMessages maxPendingMessages).KeepsLimit
    (maxPendingMessages + 1) .receiveBody := trivial
  have hstep : (arriving others maxPendingMessages maxPendingMessages).step .receiveBody =
      some { arriving others maxPendingMessages maxPendingMessages with
        receiver := (arriving others maxPendingMessages maxPendingMessages).receiver.closeLoop } := by
    have hreceiver := receiveBody_arriving others maxPendingMessages maxPendingMessages
    rw [if_neg (Nat.lt_irrefl _)] at hreceiver
    exact congrArg (fun receiver =>
      some { arriving others maxPendingMessages maxPendingMessages with receiver }) hreceiver
  have hfailed : (⟨2, 1, .failed⟩ : Resolution Nat Response) ∈
      (arriving others maxPendingMessages maxPendingMessages).receiver.closeLoop.resolved :=
    List.mem_cons_self
  exact ⟨_, ⟨2, 1, 1, .idle⟩, hreach.step hkeeps hstep, rfl, rfl, rfl, _, hfailed, rfl, rfl⟩

end Flood

end SharedConnection

end CqlDriver
