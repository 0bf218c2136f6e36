import Mathlib.Data.List.Nodup
import CqlDriver.Session.SharedConnection

/-!
# What is on its way on a stream

On a connection that is open, what an open flow has received, what is on its way to
it and what it has still to send are together the responses to its requests in
order, and nothing is on its way to a free stream. On a closed connection nothing
new is sent, so a flow that has a message to receive is one that was open before.

## Main definitions

* `SharedConnection.outstanding` — the responses on their way on a stream
* `SharedConnection.Correlated` — the invariant

## Main results

* `SharedConnection.Correlated.openStream`, `SharedConnection.Correlated.release` —
  a stream changes hands with nothing on its way
* `SharedConnection.Correlated.callSend`, `SharedConnection.Correlated.startSend`,
  `SharedConnection.Correlated.finishSend` — a request on its way to the server
-/

namespace CqlDriver.SharedConnection

open Math (valuesOf)

variable {c d : SharedConnection} {f g : Nat} {flow other : Flow} {stream : Nat}

/-- The responses to the first requests of a flow. -/
def responsesOf (f n : Nat) : List Response := (List.range n).map (Response.mk f)

theorem responsesOf_succ (f n : Nat) : responsesOf f (n + 1) = responsesOf f n ++ [⟨f, n⟩] := by
  rw [responsesOf, List.range_succ, List.map_append]
  rfl

theorem length_responsesOf (f n : Nat) : (responsesOf f n).length = n := by
  rw [responsesOf, List.length_map, List.length_range]

/-- What comes first among the responses of a flow are its first responses. -/
theorem eq_responsesOf_of_isPrefix {l : List Response} {n : Nat} (h : l <+: responsesOf f n) :
    ∃ k, l = responsesOf f k := by
  refine ⟨min l.length n, ?_⟩
  rw [List.prefix_iff_eq_take.mp h, responsesOf, ← List.map_take, List.take_range, responsesOf,
    List.length_map, List.length_range, Nat.min_assoc, Nat.min_self]

/-- The requests that wait for their turn, with their stream ids. -/
def unwritten (c : SharedConnection) : List (Nat × Response) :=
  (c.sending.filter fun entry => !entry.isWritten).map fun entry => (entry.stream, entry.response)

/-- The responses of a stream that were read and not handed over, those on the
socket, those the server will send, and those to requests that wait for their turn. -/
def outstanding (c : SharedConnection) (stream : Nat) : List Response :=
  c.receiver.unread stream ++ valuesOf c.receiver.incoming stream ++
    (valuesOf c.server stream ++ valuesOf c.unwritten stream)

/-- The flow has not released its stream. -/
def IsOpen (c : SharedConnection) (f : Nat) (flow : Flow) : Prop :=
  c.flows[f]? = some flow ∧ flow.status ≠ .released

/-- No request of the flow has reached the socket. -/
def Untouched (c : SharedConnection) (f : Nat) (flow : Flow) : Prop :=
  flow.succeeded = 0 ∧ c.receivedBy f = [] ∧
    ∀ entry ∈ c.sending, entry.response.flow = f → entry.isWritten = false

/-- A stream is free or belongs to one open flow. -/
structure Owners (c : SharedConnection) : Prop where
  free_nodup : c.freeStreamIds.Nodup
  apart : ∀ f flow, c.IsOpen f flow → flow.stream ∉ c.freeStreamIds
  distinct : ∀ f g flow other, c.IsOpen f flow → c.IsOpen g other → flow.stream = other.stream →
    f = g

/-- The pending calls belong to flows that wait for them. -/
structure Calls (c : SharedConnection) : Prop where
  slot : ∀ stream f, c.receiver.slot stream = some f →
    ∃ flow, c.flows[f]? = some flow ∧ flow.stream = stream ∧ flow.status = .idle ∧
      0 < flow.succeeded
  sending : ∀ entry ∈ c.sending,
    ∃ flow, c.flows[entry.response.flow]? = some flow ∧ flow.stream = entry.stream ∧
      flow.status = .sending ∧ flow.sent = entry.response.position + 1
  once : (c.sending.map fun entry => entry.response.flow).Nodup
  turn : ∀ entry ∈ c.sending.tail, entry.isWritten = false

/-- What was received and what is on its way. -/
structure Responses (c : SharedConnection) : Prop where
  waiter_lt : ∀ entry ∈ c.receiver.resolved, entry.waiter < c.flows.length
  received : ∀ f, ∃ n, c.receivedBy f = responsesOf f n
  intact : c.receiver.isConnected = true → (∀ flow ∈ c.flows, flow.status ≠ .failed) ∧
    ∀ entry ∈ c.receiver.resolved, entry.outcome.message? ≠ none
  complete : c.receiver.isConnected = true → ∀ f flow, c.IsOpen f flow →
    c.receivedBy f ++ c.outstanding flow.stream = responsesOf f flow.sent
  free : c.receiver.isConnected = true → ∀ stream ∈ c.freeStreamIds, c.outstanding stream = []
  ordered : c.receiver.isConnected = false → ∀ f flow, c.IsOpen f flow →
    c.Untouched f flow ∨ c.receivedBy f ++ c.receiver.unread flow.stream <+: responsesOf f flow.sent

/-- A flow that is not there yet has received nothing. -/
theorem Responses.receivedBy_length (h : c.Responses) : c.receivedBy c.flows.length = [] := by
  rw [receivedBy, List.filterMap_eq_nil_iff]
  intro entry hentry
  exact if_neg (Nat.ne_of_lt (h.waiter_lt entry hentry))

/-- The invariant. -/
structure Correlated (c : SharedConnection) : Prop where
  sound : c.receiver.Sound
  owners : c.Owners
  calls : c.Calls
  responses : c.Responses

/-! ## Reading what a step has written -/

theorem getElem?_setFlow (h : c.flows[f]? = some flow) :
    (c.setFlow f other).flows[g]? = if f = g then some other else c.flows[g]? := by
  rw [setFlow, List.getElem?_set]
  split
  next heq =>
    subst heq
    rw [if_pos (List.getElem?_eq_some_iff.mp h).1]
  · rfl

theorem receivedBy_append {resolved : List (Resolution Nat Response)}
    (h : d.receiver.resolved = c.receiver.resolved ++ resolved) :
    d.receivedBy f = c.receivedBy f ++ resolved.filterMap fun entry =>
      if entry.waiter = f then entry.outcome.message? else none := by
  rw [receivedBy, h, List.filterMap_append]
  rfl

/-- A closed wait hands nothing over. -/
theorem receivedBy_of_fails (h : c.receiver.Fails d.receiver) : d.receivedBy f = c.receivedBy f := by
  rw [receivedBy_append h.resolved]
  have hnone : (c.receiver.waiting.map fun entry =>
      (⟨entry.1, entry.2, .failed⟩ : Resolution Nat Response)).filterMap
        (fun entry => if entry.waiter = f then entry.outcome.message? else none) = [] := by
    rw [List.filterMap_map, List.filterMap_eq_nil_iff]
    intro entry _
    exact ite_self none
  rw [hnone, List.append_nil]

theorem receivedBy_of_handsOver {waiter : Nat} {message : Response}
    (h : c.receiver.HandsOver d.receiver stream waiter message) :
    d.receivedBy f = c.receivedBy f ++ if waiter = f then [message] else [] := by
  rw [receivedBy_append h.resolved]
  by_cases hsame : waiter = f
  · simp [hsame, Outcome.message?]
  · simp [hsame]

theorem receivedBy_of_resolved (h : d.receiver.resolved = c.receiver.resolved) :
    d.receivedBy f = c.receivedBy f := by
  rw [receivedBy, receivedBy, h]

/-- A flow that is open after one flow was rewritten is that flow or an old one. -/
theorem isOpen_of_setFlow {next : Flow} (hflow : c.flows[f]? = some flow)
    (hd : d.flows = (c.setFlow f next).flows) (h : d.IsOpen g other) :
    (g = f ∧ other = next) ∨ (g ≠ f ∧ c.IsOpen g other) := by
  obtain ⟨hget, hstatus⟩ := h
  rw [hd, getElem?_setFlow hflow] at hget
  split at hget
  next heq => exact .inl ⟨heq.symm, (Option.some.inj hget).symm⟩
  next hne => exact .inr ⟨fun heq => hne heq.symm, hget, hstatus⟩

/-- Streams change hands only when a flow opens or releases one. -/
theorem Owners.of_isOpen (h : c.Owners)
    (hopen : ∀ g other, d.IsOpen g other → ∃ old, c.IsOpen g old ∧ old.stream = other.stream)
    (hfree : d.freeStreamIds = c.freeStreamIds := by rfl) : d.Owners where
  free_nodup := hfree ▸ h.free_nodup
  apart := by
    intro g other hother
    obtain ⟨old, hold, hstream⟩ := hopen g other hother
    rw [hfree, ← hstream]
    exact h.apart g old hold
  distinct := by
    intro g g' other other' hother hother' hsame
    obtain ⟨old, hold, hstream⟩ := hopen g other hother
    obtain ⟨old', hold', hstream'⟩ := hopen g' other' hother'
    apply h.distinct g g' old old' hold hold'
    rw [hstream, hstream', hsame]

/-- The flow that has its turn or waits in the chain. -/
theorem Calls.head {response : Response} {isWritten : Bool} {rest : List Sending} (h : c.Calls)
    (hturn : c.sending = ⟨stream, response, isWritten⟩ :: rest)
    (hflow : c.flows[response.flow]? = some flow) :
    flow.stream = stream ∧ flow.status = .sending ∧
      ∀ entry ∈ rest, entry.response.flow ≠ response.flow := by
  have hmem : ⟨stream, response, isWritten⟩ ∈ c.sending := by
    rw [hturn]
    exact List.mem_cons_self
  obtain ⟨found, hfound, hstream, hstatus, -⟩ := h.sending _ hmem
  cases hflow.symm.trans hfound
  refine ⟨hstream, hstatus, ?_⟩
  intro entry hentry heq
  have hnodup := h.once
  rw [hturn, List.map_cons, List.nodup_cons] at hnodup
  exact hnodup.1 (heq ▸ List.mem_map_of_mem hentry)

namespace Correlated

/-- What an open flow has received and what was read for it are its first responses,
unless no request of it has reached the socket. -/
theorem prefixed (h : c.Correlated) (hopen : c.IsOpen f flow) :
    c.Untouched f flow ∨
      c.receivedBy f ++ c.receiver.unread flow.stream <+: responsesOf f flow.sent := by
  cases hconnected : c.receiver.isConnected with
  | false => exact h.responses.ordered hconnected f flow hopen
  | true =>
    right
    rw [← h.responses.complete hconnected f flow hopen, outstanding, List.append_assoc,
      ← List.append_assoc]
    exact List.prefix_append _ _

/-! ## Opening and releasing a stream -/

theorem openStream {rest : List Nat} (h : c.Correlated)
    (hfree : c.freeStreamIds = stream :: rest) :
    Correlated { c with freeStreamIds := rest, flows := c.flows ++ [⟨stream, 0, 0, .idle⟩] } := by
  have hopen : ∀ {g : Nat} {other : Flow},
      IsOpen { c with freeStreamIds := rest, flows := c.flows ++ [⟨stream, 0, 0, .idle⟩] } g other →
        c.IsOpen g other ∨ (g = c.flows.length ∧ other = ⟨stream, 0, 0, .idle⟩) := by
    intro g other hother
    obtain ⟨hget, hstatus⟩ := hother
    rcases Math.getElem?_concat_some hget with hold | hnew
    · exact .inl ⟨hold, hstatus⟩
    · exact .inr hnew
  have hnodup := h.owners.free_nodup
  rw [hfree, List.nodup_cons] at hnodup
  have hunheard := h.responses.receivedBy_length
  -- the new flow cannot share its stream with an open one
  have hapart : ∀ {g : Nat} {other : Flow}, c.IsOpen g other → other.stream ≠ stream := by
    intro g other hother heq
    apply h.owners.apart g other hother
    rw [hfree, heq]
    exact List.mem_cons_self
  constructor
  · exact h.sound
  · constructor
    · exact hnodup.2
    · intro g other hother
      rcases hopen hother with hold | ⟨-, rfl⟩
      · have hnot := h.owners.apart g other hold
        rw [hfree] at hnot
        exact fun hmem => hnot (List.mem_cons_of_mem _ hmem)
      · exact hnodup.1
    · intro g g' other other' hother hother' hsame
      rcases hopen hother with hold | ⟨rfl, rfl⟩
      · rcases hopen hother' with hold' | ⟨-, rfl⟩
        · exact h.owners.distinct g g' other other' hold hold' hsame
        · exact absurd hsame (hapart hold)
      · rcases hopen hother' with hold' | ⟨rfl, -⟩
        · exact absurd hsame.symm (hapart hold')
        · rfl
  · constructor
    · intro place g hslot
      obtain ⟨old, hget, hold⟩ := h.calls.slot place g hslot
      exact ⟨old, Math.getElem?_append_of_some _ hget, hold⟩
    · intro entry hentry
      obtain ⟨old, hget, hold⟩ := h.calls.sending entry hentry
      exact ⟨old, Math.getElem?_append_of_some _ hget, hold⟩
    · exact h.calls.once
    · exact h.calls.turn
  · constructor
    · intro entry hentry
      rw [List.length_append]
      exact Nat.lt_add_right _ (h.responses.waiter_lt entry hentry)
    · exact h.responses.received
    · intro hconnected
      refine ⟨?_, (h.responses.intact hconnected).2⟩
      intro other hother
      rcases List.mem_append.mp hother with hold | hnew
      · exact (h.responses.intact hconnected).1 other hold
      · rw [List.mem_singleton.mp hnew]
        rintro ⟨⟩
    · intro hconnected g other hother
      rcases hopen hother with hold | ⟨rfl, rfl⟩
      · exact h.responses.complete hconnected g other hold
      · have hnone : c.outstanding stream = [] :=
          h.responses.free hconnected stream (hfree ▸ List.mem_cons_self)
        show c.receivedBy c.flows.length ++ c.outstanding stream = _
        rw [hunheard, hnone]
        rfl
    · intro hconnected place hplace
      exact h.responses.free hconnected place (hfree ▸ List.mem_cons_of_mem _ hplace)
    · intro hclosed g other hother
      rcases hopen hother with hold | ⟨rfl, rfl⟩
      · exact h.responses.ordered hclosed g other hold
      · left
        refine ⟨rfl, hunheard, ?_⟩
        intro entry hentry heq
        obtain ⟨old, hget, -⟩ := h.calls.sending entry hentry
        rw [heq, List.getElem?_length] at hget
        cases hget

/-- A flow that ends on an open connection has all its responses. -/
theorem outstanding_of_hasEnded (h : c.Correlated) (hconnected : c.receiver.isConnected = true)
    (hopen : c.IsOpen f flow) (hended : c.HasEnded f flow) : c.outstanding flow.stream = [] := by
  obtain ⟨hhealthy, hanswered⟩ := h.responses.intact hconnected
  rcases hended with hfailed | ⟨-, -, ⟨entry, hentry, -, hnone⟩ | hlength⟩
  · exact absurd hfailed (hhealthy flow (List.mem_of_getElem? hopen.1))
  · exact absurd hnone (hanswered entry hentry)
  · have hcomplete := congrArg List.length (h.responses.complete hconnected f flow hopen)
    rw [List.length_append, length_responsesOf, hlength] at hcomplete
    exact List.eq_nil_of_length_eq_zero (by omega)

theorem release (h : c.Correlated) (hflow : c.flows[f]? = some flow)
    (hended : c.HasEnded f flow) :
    Correlated { c.setFlow f { flow with status := .released } with
      freeStreamIds := flow.stream :: c.freeStreamIds } := by
  have hopen : c.IsOpen f flow := by
    refine ⟨hflow, ?_⟩
    rcases hended with hstatus | ⟨hstatus, -⟩
    · rw [hstatus]
      rintro ⟨⟩
    · rw [hstatus]
      rintro ⟨⟩
  have hothers : ∀ {g : Nat} {other : Flow},
      IsOpen { c.setFlow f { flow with status := .released } with
        freeStreamIds := flow.stream :: c.freeStreamIds } g other →
        g ≠ f ∧ c.IsOpen g other := by
    intro g other hother
    rcases isOpen_of_setFlow hflow rfl hother with ⟨-, rfl⟩ | hold
    · exact absurd rfl hother.2
    · exact hold
  constructor
  · exact h.sound
  · constructor
    · exact List.nodup_cons.mpr ⟨h.owners.apart f flow hopen, h.owners.free_nodup⟩
    · intro g other hother
      obtain ⟨hne, hold⟩ := hothers hother
      rw [List.mem_cons, not_or]
      refine ⟨?_, h.owners.apart g other hold⟩
      intro heq
      exact hne (h.owners.distinct g f other flow hold hopen heq)
    · intro g g' other other' hother hother'
      exact h.owners.distinct g g' other other' (hothers hother).2 (hothers hother').2
  · constructor
    · intro place g hslot
      obtain ⟨old, hget, hstream, hstatus, hpos⟩ := h.calls.slot place g hslot
      refine ⟨old, ?_, hstream, hstatus, hpos⟩
      show (c.setFlow f _).flows[g]? = _
      rw [getElem?_setFlow hflow]
      split
      next heq =>
        -- a flow that waits does not release its stream
        subst heq
        cases hflow.symm.trans hget
        rcases hended with hfailed | ⟨-, hnot, -⟩
        · rw [hstatus] at hfailed
          cases hfailed
        · rw [hstream] at hnot
          exact absurd hslot hnot
      · exact hget
    · intro entry hentry
      obtain ⟨old, hget, hstream, hstatus, hsent⟩ := h.calls.sending entry hentry
      refine ⟨old, ?_, hstream, hstatus, hsent⟩
      show (c.setFlow f _).flows[entry.response.flow]? = _
      rw [getElem?_setFlow hflow]
      split
      next heq =>
        rw [heq] at hflow
        cases hflow.symm.trans hget
        rcases hended with hfailed | ⟨hidle, -⟩
        · rw [hstatus] at hfailed
          cases hfailed
        · rw [hstatus] at hidle
          cases hidle
      · exact hget
    · exact h.calls.once
    · exact h.calls.turn
  · constructor
    · intro entry hentry
      show entry.waiter < (c.flows.set f _).length
      rw [List.length_set]
      exact h.responses.waiter_lt entry hentry
    · exact h.responses.received
    · intro hconnected
      refine ⟨?_, (h.responses.intact hconnected).2⟩
      intro other hother
      rcases List.mem_or_eq_of_mem_set hother with hold | rfl
      · exact (h.responses.intact hconnected).1 other hold
      · rintro ⟨⟩
    · intro hconnected g other hother
      exact h.responses.complete hconnected g other (hothers hother).2
    · intro hconnected place hplace
      rcases List.mem_cons.mp hplace with rfl | hold
      · exact h.outstanding_of_hasEnded hconnected hopen hended
      · exact h.responses.free hconnected place hold
    · intro hclosed g other hother
      exact h.responses.ordered hclosed g other (hothers hother).2

/-! ## Sending -/

theorem callSend (h : c.Correlated) (hflow : c.flows[f]? = some flow)
    (hgoOn : c.CanGoOn f flow) :
    Correlated { c.setFlow f { flow with sent := flow.sent + 1, status := .sending } with
      sending := c.sending ++ [⟨flow.stream, ⟨f, flow.sent⟩, false⟩] } := by
  obtain ⟨hidle, hslot, -⟩ := hgoOn
  have hopen : c.IsOpen f flow := by
    refine ⟨hflow, ?_⟩
    rw [hidle]
    rintro ⟨⟩
  generalize hd : ({ c.setFlow f { flow with sent := flow.sent + 1, status := .sending } with
    sending := c.sending ++ [⟨flow.stream, ⟨f, flow.sent⟩, false⟩] } : SharedConnection) = d
  have hreceiver : d.receiver = c.receiver := by rw [← hd]; rfl
  have hfree : d.freeStreamIds = c.freeStreamIds := by rw [← hd]; rfl
  have hsending : d.sending = c.sending ++ [⟨flow.stream, ⟨f, flow.sent⟩, false⟩] := by rw [← hd]
  have hflows : d.flows =
      (c.setFlow f { flow with sent := flow.sent + 1, status := .sending }).flows := by
    rw [← hd]
  have hcases := fun {g : Nat} {other : Flow} (hother : d.IsOpen g other) =>
    isOpen_of_setFlow hflow hflows hother
  have houtstanding : ∀ place, d.outstanding place =
      c.outstanding place ++ if flow.stream = place then [⟨f, flow.sent⟩] else [] := by
    intro place
    rw [← hd]
    simp only [outstanding, unwritten, setFlow, List.filter_append, List.map_append,
      Math.valuesOf_append, ← Math.valuesOf_singleton, List.append_assoc]
    rfl
  -- the flow is not in the chain yet
  have hnew : ∀ entry ∈ c.sending, entry.response.flow ≠ f := by
    intro entry hentry heq
    obtain ⟨old, hget, -, hstatus, -⟩ := h.calls.sending entry hentry
    rw [heq] at hget
    cases hflow.symm.trans hget
    rw [hidle] at hstatus
    cases hstatus
  constructor
  · rw [hreceiver]
    exact h.sound
  · apply h.owners.of_isOpen _ hfree
    intro g other hother
    rcases hcases hother with ⟨rfl, rfl⟩ | ⟨-, hold⟩
    · exact ⟨flow, hopen, rfl⟩
    · exact ⟨other, hold, rfl⟩
  · constructor
    · intro place g hsome
      rw [hreceiver] at hsome
      obtain ⟨old, hget, hold⟩ := h.calls.slot place g hsome
      refine ⟨old, ?_, hold⟩
      rw [hflows, getElem?_setFlow hflow]
      split
      next heq =>
        subst heq
        cases hflow.symm.trans hget
        rw [← hold.1] at hsome
        exact absurd hsome hslot
      · exact hget
    · intro entry hentry
      rw [hflows, getElem?_setFlow hflow]
      rw [hsending] at hentry
      rcases List.mem_append.mp hentry with hold | hlast
      · rw [if_neg (hnew entry hold).symm]
        exact h.calls.sending entry hold
      · rw [List.mem_singleton.mp hlast, if_pos rfl]
        exact ⟨_, rfl, rfl, rfl, rfl⟩
    · rw [hsending, List.map_append, List.map_singleton, List.nodup_append]
      refine ⟨h.calls.once, List.nodup_singleton _, ?_⟩
      intro g hg g' hg' heq
      obtain ⟨entry, hentry, rfl⟩ := List.mem_map.mp hg
      rw [List.mem_singleton.mp hg'] at heq
      exact hnew entry hentry heq
    · intro entry hentry
      rw [hsending] at hentry
      cases hchain : c.sending with
      | nil =>
        rw [hchain] at hentry
        cases hentry
      | cons first rest =>
        rw [hchain] at hentry
        rcases List.mem_append.mp hentry with hold | hlast
        · apply h.calls.turn
          rw [hchain]
          exact hold
        · rw [List.mem_singleton.mp hlast]
  · constructor
    · intro entry hentry
      rw [hreceiver] at hentry
      rw [hflows, setFlow, List.length_set]
      exact h.responses.waiter_lt entry hentry
    · intro g
      rw [receivedBy_of_resolved (congrArg _ hreceiver)]
      exact h.responses.received g
    · rw [hreceiver, hflows]
      intro hconnected
      refine ⟨?_, (h.responses.intact hconnected).2⟩
      intro other hother
      rcases List.mem_or_eq_of_mem_set hother with hold | rfl
      · exact (h.responses.intact hconnected).1 other hold
      · rintro ⟨⟩
    · rw [hreceiver]
      intro hconnected g other hother
      rw [houtstanding, receivedBy_of_resolved (congrArg _ hreceiver), ← List.append_assoc]
      rcases hcases hother with ⟨rfl, rfl⟩ | ⟨hne, hold⟩
      · rw [if_pos rfl, h.responses.complete hconnected g flow hopen]
        exact (responsesOf_succ g flow.sent).symm
      · have happart : flow.stream ≠ other.stream := fun heq =>
          hne (h.owners.distinct f g flow other hopen hold heq).symm
        rw [if_neg happart, List.append_nil]
        exact h.responses.complete hconnected g other hold
    · rw [hreceiver, hfree]
      intro hconnected place hplace
      have happart : flow.stream ≠ place := fun heq =>
        h.owners.apart f flow hopen (heq ▸ hplace)
      rw [houtstanding, if_neg happart, List.append_nil]
      exact h.responses.free hconnected place hplace
    · rw [hreceiver]
      intro hclosed g other hother
      rw [Untouched, receivedBy_of_resolved (congrArg _ hreceiver), hsending]
      have hunwritten : (∀ entry ∈ c.sending, entry.response.flow = g → entry.isWritten = false) →
          ∀ entry ∈ c.sending ++ [⟨flow.stream, ⟨f, flow.sent⟩, false⟩],
            entry.response.flow = g → entry.isWritten = false := by
        intro hold entry hentry heq
        rcases List.mem_append.mp hentry with hmem | hlast
        · exact hold entry hmem heq
        · rw [List.mem_singleton.mp hlast]
      rcases hcases hother with ⟨rfl, rfl⟩ | ⟨-, hold⟩
      · rcases h.responses.ordered hclosed g flow hopen with ⟨hzero, hnone, hchain⟩ | hprefix
        · exact .inl ⟨hzero, hnone, hunwritten hchain⟩
        · right
          refine hprefix.trans ?_
          show _ <+: responsesOf g (flow.sent + 1)
          rw [responsesOf_succ]
          exact List.prefix_append _ _
      · rcases h.responses.ordered hclosed g other hold with ⟨hzero, hnone, hchain⟩ | hprefix
        · exact .inl ⟨hzero, hnone, hunwritten hchain⟩
        · exact .inr hprefix

/-- A request that goes to the socket is at the server from then on. -/
theorem startSend {response : Response} {rest : List Sending} (h : c.Correlated)
    (hturn : c.sending = ⟨stream, response, false⟩ :: rest)
    (hconnected : c.receiver.isConnected = true) :
    Correlated { c with
      sending := ⟨stream, response, true⟩ :: rest
      server := c.server ++ [(stream, response)] } := by
  have houtstanding : ∀ place, outstanding { c with
      sending := ⟨stream, response, true⟩ :: rest
      server := c.server ++ [(stream, response)] } place = c.outstanding place := by
    intro place
    rw [outstanding, outstanding, unwritten, unwritten, hturn, Math.valuesOf_append,
      List.append_assoc (valuesOf c.server place), ← Math.valuesOf_append]
    rfl
  have hmem : ∀ entry ∈ (⟨stream, response, true⟩ :: rest : List Sending),
      ∃ old ∈ c.sending, old.stream = entry.stream ∧ old.response = entry.response := by
    intro entry hentry
    rw [hturn]
    rcases List.mem_cons.mp hentry with rfl | hrest
    · exact ⟨_, List.mem_cons_self, rfl, rfl⟩
    · exact ⟨entry, List.mem_cons_of_mem _ hrest, rfl, rfl⟩
  constructor
  · exact h.sound
  · exact ⟨h.owners.free_nodup, h.owners.apart, h.owners.distinct⟩
  · constructor
    · exact h.calls.slot
    · intro entry hentry
      obtain ⟨old, hold, hstream, hresponse⟩ := hmem entry hentry
      rw [← hstream, ← hresponse]
      exact h.calls.sending old hold
    · have hnodup := h.calls.once
      rw [hturn] at hnodup
      exact hnodup
    · have hunwritten := h.calls.turn
      rw [hturn] at hunwritten
      exact hunwritten
  · constructor
    · exact h.responses.waiter_lt
    · exact h.responses.received
    · exact h.responses.intact
    · intro _ g other hother
      rw [houtstanding]
      exact h.responses.complete hconnected g other hother
    · intro _ place hplace
      rw [houtstanding]
      exact h.responses.free hconnected place hplace
    · intro hclosed
      exact absurd hconnected (ne_true_of_eq_false hclosed)

/-- When the turn of a request ends its flow has left the chain. -/
theorem calls_of_endTurn {response : Response} {isWritten : Bool} {rest : List Sending}
    {next : Flow} (h : c.Correlated) (hturn : c.sending = ⟨stream, response, isWritten⟩ :: rest)
    (hflow : c.flows[response.flow]? = some flow)
    (hslot : ∀ place g, d.receiver.slot place = some g → c.receiver.slot place = some g)
    (hflows : d.flows = (c.setFlow response.flow next).flows) (hsending : d.sending = rest) :
    d.Calls := by
  obtain ⟨hstream, hstatus, hothers⟩ := h.calls.head hturn hflow
  constructor
  · intro place g hsome
    obtain ⟨old, hget, hold⟩ := h.calls.slot place g (hslot place g hsome)
    refine ⟨old, ?_, hold⟩
    rw [hflows, getElem?_setFlow hflow]
    split
    next heq =>
      -- a flow whose send is pending does not wait
      subst heq
      cases hflow.symm.trans hget
      rw [hstatus] at hold
      cases hold.2.1
    · exact hget
  · intro entry hentry
    rw [hsending] at hentry
    rw [hflows, getElem?_setFlow hflow, if_neg (hothers entry hentry).symm]
    apply h.calls.sending
    rw [hturn]
    exact List.mem_cons_of_mem _ hentry
  · have hnodup := h.calls.once
    rw [hturn, List.map_cons, List.nodup_cons] at hnodup
    rw [hsending]
    exact hnodup.2
  · intro entry hentry
    rw [hsending] at hentry
    apply h.calls.turn
    rw [hturn]
    exact List.mem_of_mem_tail hentry

theorem finishSend {response : Response} {rest : List Sending} (h : c.Correlated)
    (hturn : c.sending = ⟨stream, response, true⟩ :: rest)
    (hflow : c.flows[response.flow]? = some flow) :
    Correlated { c.setFlow response.flow
        { flow with succeeded := flow.succeeded + 1, status := .idle } with sending := rest } := by
  have hstatus := (h.calls.head hturn hflow).2.1
  have hopen : c.IsOpen response.flow flow := by
    refine ⟨hflow, ?_⟩
    rw [hstatus]
    rintro ⟨⟩
  generalize hd : ({ c.setFlow response.flow
    { flow with succeeded := flow.succeeded + 1, status := .idle } with
      sending := rest } : SharedConnection) = d
  have hreceiver : d.receiver = c.receiver := by rw [← hd]; rfl
  have hfree : d.freeStreamIds = c.freeStreamIds := by rw [← hd]; rfl
  have hsending : d.sending = rest := by rw [← hd]
  have hflows : d.flows = (c.setFlow response.flow
      { flow with succeeded := flow.succeeded + 1, status := .idle }).flows := by
    rw [← hd]
  have hcases := fun {g : Nat} {other : Flow} (hother : d.IsOpen g other) =>
    isOpen_of_setFlow hflow hflows hother
  -- the request left the chain when it was written
  have houtstanding : ∀ place, d.outstanding place = c.outstanding place := by
    intro place
    rw [← hd, outstanding, outstanding, unwritten, unwritten, hturn]
    rfl
  have hold : ∀ {g : Nat} {other : Flow}, d.IsOpen g other →
      ∃ old, c.IsOpen g old ∧ old.stream = other.stream ∧ old.sent = other.sent := by
    intro g other hother
    rcases hcases hother with ⟨rfl, rfl⟩ | ⟨-, hold⟩
    · exact ⟨flow, hopen, rfl, rfl⟩
    · exact ⟨other, hold, rfl, rfl⟩
  constructor
  · rw [hreceiver]
    exact h.sound
  · apply h.owners.of_isOpen _ hfree
    intro g other hother
    obtain ⟨old, hopen', hstream, -⟩ := hold hother
    exact ⟨old, hopen', hstream⟩
  · apply h.calls_of_endTurn hturn hflow _ hflows hsending
    intro place g hsome
    rw [hreceiver] at hsome
    exact hsome
  · constructor
    · rw [hreceiver, hflows, setFlow, List.length_set]
      exact h.responses.waiter_lt
    · intro g
      rw [receivedBy_of_resolved (congrArg _ hreceiver)]
      exact h.responses.received g
    · rw [hreceiver, hflows]
      intro hconnected
      refine ⟨?_, (h.responses.intact hconnected).2⟩
      intro other hother
      rcases List.mem_or_eq_of_mem_set hother with hmem | rfl
      · exact (h.responses.intact hconnected).1 other hmem
      · rintro ⟨⟩
    · rw [hreceiver]
      intro hconnected g other hother
      obtain ⟨old, hopen', hstream, hsent⟩ := hold hother
      rw [houtstanding, receivedBy_of_resolved (congrArg _ hreceiver), ← hstream, ← hsent]
      exact h.responses.complete hconnected g old hopen'
    · rw [hreceiver, hfree]
      intro hconnected place hplace
      rw [houtstanding]
      exact h.responses.free hconnected place hplace
    · rw [hreceiver]
      intro hclosed g other hother
      rw [Untouched, receivedBy_of_resolved (congrArg _ hreceiver), hsending]
      rcases hcases hother with ⟨rfl, rfl⟩ | ⟨-, hopen'⟩
      · rcases h.responses.ordered hclosed _ flow hopen with ⟨-, -, hchain⟩ | hprefix
        · have hhead := hchain ⟨stream, response, true⟩ (hturn ▸ List.mem_cons_self) rfl
          cases hhead
        · exact .inr hprefix
      · rcases h.responses.ordered hclosed g other hopen' with ⟨hzero, hnone, hchain⟩ | hprefix
        · left
          refine ⟨hzero, hnone, ?_⟩
          intro entry hentry
          exact hchain entry (hturn ▸ List.mem_cons_of_mem _ hentry)
        · exact .inr hprefix

end Correlated

end CqlDriver.SharedConnection
