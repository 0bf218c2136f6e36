import CqlDriver.Session.PendingMessages

/-!
# What happens to a flow while others run

A flow calls the connection three times over: it sends, it waits, and in the end it closes its
stream. In between the connection belongs to the others, and what it does then for the flow is to
resolve the one call that is pending. The operations are stated here without the order in which a
flow may use them.

## Main definitions

* `SharedConnection.sendMessage`, `SharedConnection.waitNextMessage`, `SharedConnection.closeStream`
  — the calls of a flow
* `SharedConnection.FlowMoves` — what others do to a flow
* `SharedConnection.Rests`, `SharedConnection.Sends`, `SharedConnection.Waits`,
  `SharedConnection.Ended` — how far a flow has come

## Main results

* `SharedConnection.flowMoves_of_internal` — the connection resolves what is pending
* `Rests.sendMessage`, `Rests.waitNextMessage`, `Rests.ended` — the calls of a flow
-/

namespace CqlDriver.SharedConnection

variable {c d : SharedConnection} {f g : Nat} {flow other : Flow} {stream n r : Nat}

/-! ## The calls of a flow -/

/-- `sendMessage` on the stream of a flow. -/
def sendMessage (c : SharedConnection) (f : Nat) : SharedConnection :=
  match c.flows[f]? with
  | some flow =>
    { c.setFlow f { flow with sent := flow.sent + 1, status := .sending } with
      sending := c.sending ++ [⟨flow.stream, ⟨f, flow.sent⟩, false⟩] }
  | none => c

/-- `waitNextMessage` on the stream of a flow. -/
def waitNextMessage (c : SharedConnection) (f : Nat) : SharedConnection :=
  match c.flows[f]? with
  | some flow => { c with receiver := c.receiver.waitNextMessage flow.stream f }
  | none => c

/-- The stream of a flow is closed. -/
def closeStream (c : SharedConnection) (f : Nat) : SharedConnection :=
  match c.flows[f]? with
  | some flow =>
    { c.setFlow f { flow with status := .released } with
      freeStreamIds := flow.stream :: c.freeStreamIds }
  | none => c

theorem sendMessage_eq (hflow : c.flows[f]? = some flow) : c.sendMessage f =
    { c.setFlow f { flow with sent := flow.sent + 1, status := .sending } with
      sending := c.sending ++ [⟨flow.stream, ⟨f, flow.sent⟩, false⟩] } := by
  rw [sendMessage, hflow]

theorem waitNextMessage_eq (hflow : c.flows[f]? = some flow) : c.waitNextMessage f =
    { c with receiver := c.receiver.waitNextMessage flow.stream f } := by
  rw [waitNextMessage, hflow]

theorem closeStream_eq (hflow : c.flows[f]? = some flow) : c.closeStream f =
    { c.setFlow f { flow with status := .released } with
      freeStreamIds := flow.stream :: c.freeStreamIds } := by
  rw [closeStream, hflow]

/-- Each of them is a step where a flow may take it. -/
theorem step_callSend (hflow : c.flows[f]? = some flow) (hgoOn : c.CanGoOn f flow) :
    c.step (.callSend f) = some (c.sendMessage f) := by
  simp only [step, hflow, if_pos hgoOn, sendMessage_eq hflow]

theorem step_callWait (hflow : c.flows[f]? = some flow) (hgoOn : c.CanGoOn f flow)
    (hlt : (c.receivedBy f).length < flow.succeeded)
    (hstream : flow.stream < c.receiver.receivingPromiseMap.length) :
    c.step (.callWait f) = some (c.waitNextMessage f) := by
  simp only [step, hflow, if_pos (And.intro hgoOn hlt), waitNextMessage_eq hflow, Receiver.step,
    if_pos hstream, Option.map_some]

theorem step_release (hflow : c.flows[f]? = some flow) (hended : c.HasEnded f flow) :
    c.step (.release f) = some (c.closeStream f) := by
  simp only [step, hflow, if_pos hended, closeStream_eq hflow]

/-! ## What others do to a flow -/

/-- A wait of the flow is pending. -/
def IsWaiting (c : SharedConnection) (f : Nat) : Prop := ∃ stream, c.receiver.slot stream = some f

theorem isWaiting_iff (h : c.Calls) (hflow : c.flows[f]? = some flow) :
    c.IsWaiting f ↔ c.receiver.slot flow.stream = some f := by
  constructor
  · rintro ⟨stream, hslot⟩
    obtain ⟨found, hfound, rfl, -⟩ := h.slot stream f hslot
    cases hflow.symm.trans hfound
    exact hslot
  · exact fun hslot => ⟨_, hslot⟩

/-- A pending send stays pending, succeeds or fails. -/
inductive SendProceeds (c d : SharedConnection) (f : Nat) : Prop
  | stays (flow : d.flows[f]? = c.flows[f]?)
  | succeeds {flow : Flow} (before : c.flows[f]? = some flow) (sending : flow.status = .sending)
      (after : d.flows[f]? = some { flow with succeeded := flow.succeeded + 1, status := .idle })
  | fails {flow : Flow} (before : c.flows[f]? = some flow) (sending : flow.status = .sending)
      (after : d.flows[f]? = some { flow with status := .failed })

/-- A pending wait stays pending, gets a message or fails. -/
inductive WaitProceeds (c d : SharedConnection) (f : Nat) : Prop
  | stays (received : d.receivedBy f = c.receivedBy f) (waiting : d.IsWaiting f ↔ c.IsWaiting f)
      (failed : d.WaitFailed f ↔ c.WaitFailed f)
  | gets (waited : c.IsWaiting f)
      (received : (d.receivedBy f).length = (c.receivedBy f).length + 1)
      (waiting : ¬ d.IsWaiting f) (failed : d.WaitFailed f ↔ c.WaitFailed f)
  | fails (waited : c.IsWaiting f) (received : d.receivedBy f = c.receivedBy f)
      (waiting : ¬ d.IsWaiting f) (failed : d.WaitFailed f)

/-- What happens to a flow that calls nothing. -/
structure FlowMoves (c d : SharedConnection) (f : Nat) : Prop where
  send : c.SendProceeds d f
  wait : c.WaitProceeds d f

theorem waitFailed_of_resolved (h : d.receiver.resolved = c.receiver.resolved) :
    d.WaitFailed f ↔ c.WaitFailed f := by
  rw [WaitFailed, WaitFailed, h]

theorem waitFailed_of_handsOver {waiter : Nat} {message : Response}
    (h : c.receiver.HandsOver d.receiver stream waiter message) :
    d.WaitFailed f ↔ c.WaitFailed f := by
  simp [WaitFailed, h.resolved, or_and_right, exists_or, Outcome.message?]

/-- The receive side has not moved. -/
theorem WaitProceeds.of_receiver (h : d.receiver = c.receiver) : c.WaitProceeds d f :=
  .stays (receivedBy_of_resolved (congrArg _ h)) (by rw [IsWaiting, h]; rfl)
    (waitFailed_of_resolved (congrArg _ h))

/-- The connection was closed, and with it the pending waits. -/
theorem WaitProceeds.of_fails (h : c.receiver.Fails d.receiver) : c.WaitProceeds d f := by
  have hnobody : ¬ d.IsWaiting f := by
    rintro ⟨stream, hslot⟩
    cases (h.slot stream).symm.trans hslot
  have hfailed : d.WaitFailed f ↔ c.WaitFailed f ∨ c.IsWaiting f := by
    have hwaiting : c.IsWaiting f ↔ ∃ entry ∈ c.receiver.waiting, entry.2 = f := by
      constructor
      · rintro ⟨stream, hslot⟩
        exact ⟨(stream, f), Receiver.mem_waiting.mpr hslot, rfl⟩
      · rintro ⟨⟨stream, _⟩, hentry, rfl⟩
        exact ⟨stream, Receiver.mem_waiting.mp hentry⟩
    rw [hwaiting, WaitFailed, WaitFailed, h.resolved]
    simp only [List.mem_append, List.mem_map, or_and_right, exists_or]
    apply or_congr Iff.rfl
    constructor
    · rintro ⟨_, ⟨entry, hentry, rfl⟩, hsame, -⟩
      exact ⟨entry, hentry, hsame⟩
    · rintro ⟨entry, hentry, hsame⟩
      exact ⟨_, ⟨entry, hentry, rfl⟩, hsame, rfl⟩
  by_cases hwaited : c.IsWaiting f
  · exact .fails hwaited (receivedBy_of_fails h) hnobody (hfailed.mpr (.inr hwaited))
  · exact .stays (receivedBy_of_fails h) (iff_of_false hnobody hwaited)
      (hfailed.trans (or_iff_left hwaited))

/-- Another flow was rewritten. -/
theorem SendProceeds.of_setFlow (hflow : c.flows[g]? = some flow) (hne : g ≠ f)
    (hd : d.flows = (c.setFlow g other).flows) : c.SendProceeds d f := by
  refine .stays ?_
  rw [hd, getElem?_setFlow hflow, if_neg hne]

theorem FlowMoves.refl : c.FlowMoves c f := ⟨.stays rfl, .of_receiver rfl⟩

theorem FlowMoves.openStream {rest : List Nat} (hflow : c.flows[f]? = some flow) :
    c.FlowMoves { c with freeStreamIds := rest, flows := c.flows ++ [other] } f where
  send := .stays ((Math.getElem?_append_of_some _ hflow).trans hflow.symm)
  wait := .of_receiver rfl

theorem FlowMoves.sendMessage (hne : g ≠ f) : c.FlowMoves (c.sendMessage g) f := by
  cases hflow : c.flows[g]? with
  | none =>
    have hsame : c.sendMessage g = c := by rw [SharedConnection.sendMessage, hflow]
    rw [hsame]
    exact .refl
  | some flow =>
    rw [sendMessage_eq hflow]
    exact ⟨.of_setFlow hflow hne rfl, .of_receiver rfl⟩

theorem FlowMoves.closeStream (hne : g ≠ f) : c.FlowMoves (c.closeStream g) f := by
  cases hflow : c.flows[g]? with
  | none =>
    have hsame : c.closeStream g = c := by rw [SharedConnection.closeStream, hflow]
    rw [hsame]
    exact .refl
  | some flow =>
    rw [closeStream_eq hflow]
    exact ⟨.of_setFlow hflow hne rfl, .of_receiver rfl⟩

/-- Another flow waits, and its stream is not that of the flow. -/
theorem FlowMoves.waitNextMessage (h : c.Correlated) (hflow : c.flows[g]? = some flow)
    (hgoOn : c.CanGoOn g flow) (hlt : flow.stream < c.receiver.receivingPromiseMap.length)
    (hne : g ≠ f) : c.FlowMoves (c.waitNextMessage g) f := by
  rw [waitNextMessage_eq hflow]
  refine ⟨.stays rfl, ?_⟩
  have hopen : c.IsOpen g flow := ⟨hflow, by rw [hgoOn.1]; rintro ⟨⟩⟩
  have happart : c.receiver.slot flow.stream ≠ some f := by
    intro hslot
    obtain ⟨same, hsame, hstream, hidle, -⟩ := h.calls.slot flow.stream f hslot
    exact hne (h.owners.distinct g f flow same hopen ⟨hsame, by rw [hidle]; rintro ⟨⟩⟩ hstream.symm)
  rcases h.wait_effect hflow hgoOn hlt with ⟨message, hand⟩ | hregister
  · refine .stays ?_ ?_ (waitFailed_of_handsOver (d := { c with
      receiver := c.receiver.waitNextMessage flow.stream g }) hand)
    · rw [receivedBy_of_handsOver (d := { c with
        receiver := c.receiver.waitNextMessage flow.stream g }) hand, if_neg hne, List.append_nil]
    · apply exists_congr
      intro place
      show (c.receiver.waitNextMessage flow.stream g).slot place = some f ↔ _
      rw [hand.slot]
      split
      next heq =>
        subst heq
        exact iff_of_false (by rintro ⟨⟩) happart
      · rfl
  · refine .stays (receivedBy_of_resolved (d := { c with
      receiver := c.receiver.waitNextMessage flow.stream g }) hregister.resolved) ?_
      (waitFailed_of_resolved (d := { c with
        receiver := c.receiver.waitNextMessage flow.stream g }) hregister.resolved)
    apply exists_congr
    intro place
    show (c.receiver.waitNextMessage flow.stream g).slot place = some f ↔ _
    rw [hregister.slot]
    split
    next heq =>
      subst heq
      exact iff_of_false (by simpa using hne) happart
    · rfl

/-- What the loop or a close does to the waits. -/
theorem WaitProceeds.receive {event : Receiver.Event Nat Response}
    {receiver : Receiver Nat Response} (h : c.Correlated) (hinternal : event.IsInternal)
    (hstep : c.receiver.step event = some receiver) : c.WaitProceeds { c with receiver } f := by
  rcases h.sound.receive_effect hinternal hstep with
    hreads | ⟨stream, waiter, message, hslot, hand⟩ | hfails
  · refine .stays (receivedBy_of_resolved (d := { c with receiver }) hreads.resolved) ?_
      (waitFailed_of_resolved (d := { c with receiver }) hreads.resolved)
    apply exists_congr
    intro place
    show receiver.slot place = some f ↔ _
    rw [hreads.slot]
  · have hreceived := receivedBy_of_handsOver (d := { c with receiver }) (f := f) hand
    have hfailed := waitFailed_of_handsOver (d := { c with receiver }) (f := f) hand
    obtain ⟨flow, hflow, hstream, -⟩ := h.calls.slot stream waiter hslot
    by_cases hsame : waiter = f
    · subst hsame
      refine .gets ⟨stream, hslot⟩ ?_ ?_ hfailed
      · rw [hreceived, if_pos rfl, List.length_append, List.length_singleton]
      · rintro ⟨place, hplace⟩
        change receiver.slot place = _ at hplace
        rw [hand.slot] at hplace
        split at hplace
        · cases hplace
        next hne =>
          obtain ⟨other, hother, hsame, -⟩ := h.calls.slot place waiter hplace
          cases hflow.symm.trans hother
          exact hne (hstream.symm.trans hsame)
    · refine .stays ?_ ?_ hfailed
      · rw [hreceived, if_neg hsame, List.append_nil]
      · apply exists_congr
        intro place
        show receiver.slot place = some f ↔ _
        rw [hand.slot]
        split
        next heq =>
          subst heq
          rw [hslot]
          simp [hsame]
        · rfl
  · exact .of_fails (d := { c with receiver }) hfails

/-- The events that are no call of a flow. -/
def Event.IsInternal : Event → Prop
  | .startSend | .finishSend | .failSend | .serverAnswer _ | .receiveHeader | .receiveBody
  | .receiveError | .startError | .close => True
  | .openStream | .callSend _ | .callWait _ | .release _ => False

instance : DecidablePred Event.IsInternal
  | .startSend | .finishSend | .failSend | .serverAnswer _ | .receiveHeader | .receiveBody
  | .receiveError | .startError | .close => inferInstanceAs (Decidable True)
  | .openStream | .callSend _ | .callWait _ | .release _ => inferInstanceAs (Decidable False)

theorem exists_of_failSend (hstep : c.step .failSend = some d) :
    ∃ stream response isWritten rest flow, c.sending = ⟨stream, response, isWritten⟩ :: rest ∧
      c.flows[response.flow]? = some flow ∧
        d = { c.setFlow response.flow { flow with status := .failed } with
          sending := rest, receiver := c.receiver.close } := by
  simp only [step] at hstep
  split at hstep
  next stream response isWritten rest hturn =>
    split at hstep
    next flow hflow =>
      exact ⟨stream, response, isWritten, rest, flow, hturn, hflow, (Option.some.inj hstep).symm⟩
    · cases hstep
  · cases hstep

/-- The connection resolves what is pending, and nothing else. -/
theorem flowMoves_of_internal {event : Event} (h : c.Correlated) (hinternal : event.IsInternal)
    (hstep : c.step event = some d) : c.FlowMoves d f := by
  have hreceive : ∀ event : Receiver.Event Nat Response, event.IsInternal →
      (c.receiver.step event).map (fun receiver => { c with receiver }) = some d →
        c.FlowMoves d f := by
    intro event hinternal hmap
    obtain ⟨receiver, hreceive, rfl⟩ := Option.map_eq_some_iff.mp hmap
    exact ⟨.stays rfl, .receive h hinternal hreceive⟩
  cases event with
  | openStream | callSend | callWait | release => exact hinternal.elim
  | startSend =>
    obtain ⟨stream, response, rest, -, rfl⟩ := exists_of_startSend hstep
    exact ⟨.stays rfl, .of_receiver rfl⟩
  | finishSend =>
    obtain ⟨stream, response, rest, flow, hturn, hflow, rfl⟩ := exists_of_finishSend hstep
    refine ⟨?_, .of_receiver rfl⟩
    by_cases hsame : response.flow = f
    · subst hsame
      refine .succeeds hflow (h.calls.head hturn hflow).2.1 ?_
      exact (getElem?_setFlow hflow).trans (if_pos rfl)
    · exact .of_setFlow hflow hsame rfl
  | failSend =>
    obtain ⟨stream, response, isWritten, rest, flow, hturn, hflow, rfl⟩ := exists_of_failSend hstep
    have hfails : c.receiver.Fails c.receiver.close :=
      Receiver.close_fails (r := c.receiver) c.receiver.loop c.receiver.brokenLoops (.inr rfl)
    refine ⟨?_, .of_fails hfails⟩
    by_cases hsame : response.flow = f
    · subst hsame
      refine .fails hflow (h.calls.head hturn hflow).2.1 ?_
      exact (getElem?_setFlow hflow).trans (if_pos rfl)
    · exact .of_setFlow hflow hsame rfl
  | serverAnswer stream =>
    obtain ⟨before, response, after, -, -, rfl⟩ := exists_of_serverAnswer hstep
    exact ⟨.stays rfl, .stays rfl Iff.rfl Iff.rfl⟩
  | receiveHeader => exact hreceive .receiveHeader trivial hstep
  | receiveBody => exact hreceive .receiveBody trivial hstep
  | receiveError => exact hreceive .receiveError trivial hstep
  | startError => exact hreceive .startError trivial hstep
  | close => exact hreceive .close trivial hstep

/-! ## How far a flow has come -/

/-- The flow has as many messages, and its waits are all over. -/
structure Quiet (c : SharedConnection) (f r : Nat) : Prop where
  received : (c.receivedBy f).length = r
  waiting : ¬ c.IsWaiting f
  unfailed : ¬ c.WaitFailed f

/-- So many sends have succeeded, and nothing is pending. -/
structure Rests (c : SharedConnection) (f stream n r : Nat) : Prop extends c.Quiet f r where
  flow : c.flows[f]? = some ⟨stream, n, n, .idle⟩

/-- One more send was called. -/
inductive Sends (c : SharedConnection) (f stream n r : Nat) : Prop
  | pending (quiet : c.Quiet f r) (flow : c.flows[f]? = some ⟨stream, n + 1, n, .sending⟩)
  | failed (quiet : c.Quiet f r) (flow : c.flows[f]? = some ⟨stream, n + 1, n, .failed⟩)
  | done (rests : c.Rests f stream (n + 1) r)

/-- One more wait was called. -/
inductive Waits (c : SharedConnection) (f stream n r : Nat) : Prop
  | pending (flow : c.flows[f]? = some ⟨stream, n, n, .idle⟩)
      (received : (c.receivedBy f).length = r) (waiting : c.IsWaiting f)
      (unfailed : ¬ c.WaitFailed f)
  | failed (flow : c.flows[f]? = some ⟨stream, n, n, .idle⟩) (waiting : ¬ c.IsWaiting f)
      (failed : c.WaitFailed f)
  | done (rests : c.Rests f stream n (r + 1))

/-- The flow has as many messages as it has sent requests, or a send or a wait has failed. -/
def Ended (c : SharedConnection) (f stream : Nat) : Prop :=
  ∃ flow, c.flows[f]? = some flow ∧ flow.stream = stream ∧ c.HasEnded f flow

theorem Sends.exists_flow (h : c.Sends f stream n r) : ∃ flow, c.flows[f]? = some flow := by
  cases h with
  | pending quiet flow | failed quiet flow => exact ⟨_, flow⟩
  | done rests => exact ⟨_, rests.flow⟩

theorem Waits.exists_flow (h : c.Waits f stream n r) : ∃ flow, c.flows[f]? = some flow := by
  cases h with
  | pending flow | failed flow => exact ⟨_, flow⟩
  | done rests => exact ⟨_, rests.flow⟩

theorem Quiet.moves (h : c.Quiet f r) (hmoves : c.WaitProceeds d f) : d.Quiet f r := by
  cases hmoves with
  | stays received waiting failed =>
    exact ⟨received ▸ h.received, fun hd => h.waiting (waiting.mp hd),
      fun hd => h.unfailed (failed.mp hd)⟩
  | gets waited => exact absurd waited h.waiting
  | fails waited => exact absurd waited h.waiting

theorem SendProceeds.flow_eq (h : c.SendProceeds d f) (hflow : c.flows[f]? = some flow)
    (hstatus : flow.status ≠ .sending) : d.flows[f]? = some flow := by
  cases h with
  | stays same => exact same.trans hflow
  | succeeds before sending | fails before sending =>
    cases hflow.symm.trans before
    exact absurd sending hstatus

theorem Rests.moves (h : c.Rests f stream n r) (hmoves : c.FlowMoves d f) :
    d.Rests f stream n r :=
  ⟨h.toQuiet.moves hmoves.wait, hmoves.send.flow_eq h.flow (by rintro ⟨⟩)⟩

theorem Sends.moves (h : c.Sends f stream n r) (hmoves : c.FlowMoves d f) :
    d.Sends f stream n r := by
  cases h with
  | pending quiet flow =>
    have hquiet := quiet.moves hmoves.wait
    cases hmoves.send with
    | stays same => exact .pending hquiet (same.trans flow)
    | succeeds before sending after =>
      cases flow.symm.trans before
      exact .done ⟨hquiet, after⟩
    | fails before sending after =>
      cases flow.symm.trans before
      exact .failed hquiet after
  | failed quiet flow =>
    exact .failed (quiet.moves hmoves.wait) (hmoves.send.flow_eq flow (by rintro ⟨⟩))
  | done rests => exact .done (rests.moves hmoves)

theorem Waits.moves (h : c.Waits f stream n r) (hmoves : c.FlowMoves d f) :
    d.Waits f stream n r := by
  cases h with
  | pending flow received waiting unfailed =>
    have hflow := hmoves.send.flow_eq flow (by rintro ⟨⟩)
    cases hmoves.wait with
    | stays same stays failed =>
      exact .pending hflow (same ▸ received) (stays.mpr waiting) fun hd => unfailed (failed.mp hd)
    | gets waited more hover failed =>
      exact .done ⟨⟨more.trans (congrArg (· + 1) received), hover,
        fun hd => unfailed (failed.mp hd)⟩, hflow⟩
    | fails waited same hover failed => exact .failed hflow hover failed
  | failed flow waiting failed =>
    have hflow := hmoves.send.flow_eq flow (by rintro ⟨⟩)
    cases hmoves.wait with
    | stays same stays hfailed =>
      exact .failed hflow (fun hd => waiting (stays.mp hd)) (hfailed.mpr failed)
    | gets waited => exact absurd waited waiting
    | fails waited => exact absurd waited waiting
  | done rests => exact .done (rests.moves hmoves)

theorem Ended.moves (h : c.Ended f stream) (hc : c.Calls) (hd : d.Calls)
    (hmoves : c.FlowMoves d f) : d.Ended f stream := by
  obtain ⟨flow, hflow, hstream, hended⟩ := h
  have hstatus : flow.status ≠ .sending := by
    rcases hended with hfailed | ⟨hidle, -⟩
    · rw [hfailed]
      rintro ⟨⟩
    · rw [hidle]
      rintro ⟨⟩
  have hsame := hmoves.send.flow_eq hflow hstatus
  refine ⟨flow, hsame, hstream, ?_⟩
  rcases hended with hfailed | ⟨hidle, hslot, hrest⟩
  · exact .inl hfailed
  · rw [ne_eq, ← isWaiting_iff hc hflow] at hslot
    rw [HasEnded, ne_eq, ← isWaiting_iff hd hsame]
    cases hmoves.wait with
    | stays received waiting failed =>
      rw [received, failed]
      exact .inr ⟨hidle, fun h => hslot (waiting.mp h), hrest⟩
    | gets waited => exact absurd waited hslot
    | fails waited => exact absurd waited hslot

/-! ## Its calls -/

/-- A flow that has just opened its stream. -/
theorem Rests.openStream (h : c.Correlated) {rest : List Nat} :
    Rests { c with freeStreamIds := rest, flows := c.flows ++ [⟨stream, 0, 0, .idle⟩] }
      c.flows.length stream 0 0 where
  received := congrArg List.length h.responses.receivedBy_length
  waiting := by
    rintro ⟨place, hslot⟩
    obtain ⟨flow, hflow, -⟩ := h.calls.slot place c.flows.length hslot
    exact absurd (List.getElem?_eq_some_iff.mp hflow).1 (Nat.lt_irrefl _)
  unfailed := by
    rintro ⟨entry, hentry, hwaiter, -⟩
    exact absurd hwaiter (Nat.ne_of_lt (h.responses.waiter_lt entry hentry))
  flow := List.getElem?_concat_length

theorem Rests.canGoOn (h : c.Rests f stream n r) : c.CanGoOn f ⟨stream, n, n, .idle⟩ :=
  ⟨rfl, fun hslot => h.waiting ⟨stream, hslot⟩, h.unfailed⟩

theorem Rests.sendMessage (h : c.Rests f stream n r) : (c.sendMessage f).Sends f stream n r := by
  rw [sendMessage_eq h.flow]
  have hsame := WaitProceeds.of_receiver (c := c) (f := f) (d := { c.setFlow f
    ⟨stream, n + 1, n, .sending⟩ with sending := c.sending ++ [⟨stream, ⟨f, n⟩, false⟩] }) rfl
  exact .pending (h.toQuiet.moves hsame) ((getElem?_setFlow h.flow).trans (if_pos rfl))

/-- A wait gets a message that was queued, or is pending. -/
theorem Rests.waitNextMessage (h : c.Rests f stream n r) (hcorrelated : c.Correlated)
    (hlt : stream < c.receiver.receivingPromiseMap.length) :
    (c.waitNextMessage f).Waits f stream n r := by
  rw [waitNextMessage_eq h.flow]
  rcases hcorrelated.wait_effect h.flow h.canGoOn hlt with ⟨message, hand⟩ | hregister
  · refine .done ⟨⟨?_, ?_, ?_⟩, h.flow⟩
    · rw [receivedBy_of_handsOver (d := { c with
        receiver := c.receiver.waitNextMessage stream f }) hand, if_pos rfl, List.length_append,
        h.received]
      rfl
    · rintro ⟨place, hplace⟩
      change (c.receiver.waitNextMessage stream f).slot place = _ at hplace
      rw [hand.slot] at hplace
      split at hplace
      · cases hplace
      · exact h.waiting ⟨place, hplace⟩
    · rw [waitFailed_of_handsOver (d := { c with
        receiver := c.receiver.waitNextMessage stream f }) hand]
      exact h.unfailed
  · refine .pending h.flow ?_ ⟨stream, ?_⟩ ?_
    · rw [receivedBy_of_resolved (d := { c with
        receiver := c.receiver.waitNextMessage stream f }) hregister.resolved]
      exact h.received
    · exact (hregister.slot stream).trans (if_pos rfl)
    · rw [waitFailed_of_resolved (d := { c with
        receiver := c.receiver.waitNextMessage stream f }) hregister.resolved]
      exact h.unfailed

/-- As many messages as requests. -/
theorem Rests.ended (h : c.Rests f stream n n) : c.Ended f stream :=
  ⟨_, h.flow, rfl, .inr ⟨rfl, h.canGoOn.2.1, .inr h.received⟩⟩

end CqlDriver.SharedConnection
