import CqlDriver.Session.ClientConnection

/-!
# Who has called what on a connection

The stream objects of a connection hold different ids, so that a stream id belongs to one flow at a
time. Every call of `sendMessage` and of `waitNextMessage` is recorded with its flow, and is a call
on the stream of this flow. What a flow has sent and got is what the stream has at the places of
this flow.

## Main definitions

* `StreamHeap.Lends` — the heap of one connection
* `ClientConnection.asked`, `ClientConnection.answered` — the flows at the places of a stream
* `ClientConnection.Recorded` — the records are right

## Main results

* `ClientConnection.callsOf_eq`, `ClientConnection.receivedBy_eq` — a flow among those of its stream
* `ClientConnection.Recorded.step` — every step keeps the records
-/

namespace CqlDriver

open Math (valuesOf)

/-! ## Stream objects -/

namespace StreamHeap

variable {h h' : StreamHeap} {owner : StreamOwner} {f g : Nat} {stream other : ConnectionStream}

/-- The heap of one connection. -/
structure Lends (h : StreamHeap) : Prop where
  intact : h.Intact
  one : ∃ owner, h.connections = [owner] ∧ owner.isLive = true

/-- A valid object holds an id of the connection. -/
theorem Lends.idOf_eq (hlends : h.Lends) (hstream : h.stream? f = some stream)
    (hvalid : stream.isValid = true) : stream.idOf 0 = some stream.streamId := by
  obtain ⟨owner, hone, -⟩ := hlends.one
  obtain ⟨c, hc, hshared⟩ := hlends.intact.shares stream (mem_of_stream hstream) hvalid
  rw [hone, List.length_singleton, Nat.lt_one_iff] at hc
  subst hc
  exact if_pos ⟨hvalid, hshared⟩

/-- No id is free and held, or held by two objects. -/
theorem Lends.nodup (hlends : h.Lends) (howner : h.connections[0]? = some owner)
    (hlive : owner.isLive = true) : (owner.freeStreamIds ++ h.held 0).Nodup := by
  have hexact := hlends.intact.free_add_held 0 owner howner hlive
  rw [Multiset.coe_add, Multiset.coe_eq_coe] at hexact
  rw [hexact.nodup_iff]
  -- the ids of a new connection are a range
  apply List.Nodup.of_map UInt16.toNat
  rw [toNat_create]
  exact List.nodup_range'

/-- Two flows that have their streams have different ones. -/
theorem Lends.eq_of_streamId (hlends : h.Lends) (hstream : h.stream? f = some stream)
    (hvalid : stream.isValid = true) (hother : h.stream? g = some other)
    (hotherValid : other.isValid = true) (hsame : stream.streamId = other.streamId) : f = g := by
  obtain ⟨owner, hone, hlive⟩ := hlends.one
  have hheld := (hlends.nodup (by rw [hone]; rfl) hlive).of_append_right
  refine Math.eq_of_filterMap_nodup hheld (getElem?_of_stream hstream) (getElem?_of_stream hother)
    (hlends.idOf_eq hstream hvalid) ?_
  rw [hsame]
  exact hlends.idOf_eq hother hotherValid

theorem stream?_append (object : ConnectionStream) :
    ({ h with streams := h.streams ++ [some object] } : StreamHeap).stream? f =
      if f = h.streams.length then some object else h.stream? f := by
  rw [stream?, stream?]
  rcases Nat.lt_trichotomy f h.streams.length with hlt | rfl | hgt
  · rw [List.getElem?_append_left hlt, if_neg (Nat.ne_of_lt hlt)]
  · rw [List.getElem?_concat_length, if_pos rfl]
    rfl
  · rw [if_neg (Nat.ne_of_gt hgt), List.getElem?_eq_none (Nat.le_of_lt hgt),
      List.getElem?_eq_none (by rw [List.length_append]; exact hgt)]

/-- An object is made; if it is valid, its id was free. -/
theorem Lends.openStream (hlends : h.Lends) (hstep : h.step (.openStream 0) = some h') :
    h'.Lends ∧ ∃ object, (∀ f, h'.stream? f =
        if f = h.streams.length then some object else h.stream? f) ∧
      (object.isValid = true → ∀ f stream, h.stream? f = some stream → stream.isValid = true →
        stream.streamId ≠ object.streamId) := by
  have hintact := hlends.intact.step hstep
  obtain ⟨owner, hlive, rfl⟩ := Option.map_eq_some_iff.mp hstep
  obtain ⟨howner, hisLive⟩ := live?_eq_some hlive
  obtain ⟨first, hone, -⟩ := hlends.one
  have hfirst : first = owner := by
    rw [hone] at howner
    exact Option.some.inj howner
  subst hfirst
  rw [StreamHeap.openStream] at hintact ⊢
  cases hfree : first.freeStreamIds with
  | nil =>
    -- the new object is invalid
    rw [hfree] at hintact
    exact ⟨⟨hintact, first, hone, hisLive⟩, .invalid, fun f => stream?_append _,
      fun hvalid => by cases hvalid⟩
  | cons streamId rest =>
    rw [hfree] at hintact
    refine ⟨⟨hintact, { first with freeStreamIds := rest }, ?_, hisLive⟩,
      .create streamId 0, fun f => ?_, ?_⟩
    · rw [hone]
      rfl
    · exact @stream?_append h f (.create streamId 0)
    · -- what is at the front of the vector is held by nobody
      intro _ f stream hstream hvalid hsame
      have hnodup := hlends.nodup howner hisLive
      rw [hfree, List.cons_append, List.nodup_cons] at hnodup
      refine hnodup.1 (List.mem_append_right _ (List.mem_filterMap.mpr
        ⟨some stream, mem_of_stream hstream, ?_⟩))
      rw [Option.bind_some, hlends.idOf_eq hstream hvalid, hsame]
      rfl

/-- An object is closed. -/
theorem Lends.close (hlends : h.Lends) (hstream : h.stream? f = some stream)
    (hstep : h.step (.close f) = some h') :
    h'.Lends ∧ ∀ g, h'.stream? g =
      if g = f then some { stream with isValid := false } else h.stream? g := by
  have hintact := hlends.intact.step hstep
  rw [step, hstream, Option.map_some, Option.some.injEq] at hstep
  subst hstep
  refine ⟨⟨hintact, ?_⟩, fun g => ?_⟩
  · -- giving an id back writes the vector of the connection only
    obtain ⟨owner, hone, hlive⟩ := hlends.one
    have hlength : (h.close f stream).connections.length = 1 :=
      length_connections_release.trans (congrArg List.length hone)
    obtain ⟨only, honly⟩ := List.length_eq_one_iff.mp hlength
    have hget : (h.release stream).connections[0]? = some only :=
      congrArg (fun connections : List StreamOwner => connections[0]?) honly
    obtain ⟨old, hold, rfl⟩ := getElem?_release hget
    rw [hone] at hold
    cases hold
    exact ⟨_, honly, hlive⟩
  · have hlt := (List.getElem?_eq_some_iff.mp (getElem?_of_stream hstream)).1
    rw [stream?, stream?, StreamHeap.close, List.getElem?_set]
    by_cases hsame : f = g
    · subst hsame
      simp [hlt]
    · simp [hsame, Ne.symm hsame]

end StreamHeap

/-! ## Deliveries -/

namespace Receiver

variable {ω μ : Type*} {r q : Receiver ω μ} {stream other : Nat} {waiter : ω} {message : μ}

theorem deliveries_of_resolved (h : q.resolved = r.resolved) :
    q.deliveries stream = r.deliveries stream := by
  rw [deliveries, deliveries, h]

theorem HandsOver.deliveries (h : r.HandsOver q stream waiter message) :
    q.deliveries other =
      r.deliveries other ++ if stream = other then [(waiter, message)] else [] := by
  have hsame : q.deliveries other = (r.resolve stream waiter (.message message)).deliveries other :=
    deliveries_of_resolved h.resolved
  rw [hsame, deliveries_resolve]
  rfl

theorem Fails.deliveries (h : r.Fails q) : q.deliveries stream = r.deliveries stream := by
  have hsame : q.deliveries stream = r.close.deliveries stream := deliveries_of_resolved h.resolved
  rw [hsame, deliveries_close]

end Receiver

/-! ## The places of a stream -/

namespace ClientConnection

variable {compress : Bytes → Appended} {c d : ClientConnection} {event : Event} {f g place : Nat}
  {stream other : ConnectionStream}

/-- The calls of `sendMessage` with their flows. -/
def called (c : ClientConnection) : List (Nat × SendCall) := c.callers.zip c.sender.calls

/-- The calls of `sendMessage` on a stream with their flows. -/
def calledOn (c : ClientConnection) (place : Nat) : List (Nat × SendCall) :=
  c.called.filter fun entry => entry.2.message.streamId.toNat = place

/-- The flows that have called `sendMessage` on a stream. -/
def asked (c : ClientConnection) (place : Nat) : List (Option Nat) :=
  valuesOf (c.called.map fun entry => (entry.2.message.streamId.toNat, some entry.1)) place

/-- The flows that have got the messages of a stream. -/
def answered (c : ClientConnection) (place : Nat) : List (Option Nat) :=
  (c.sender.receiver.deliveries place).map fun delivery => c.waiters[delivery.1]?

/-- Who has called what. -/
structure Recorded (c : ClientConnection) : Prop where
  lends : c.heap.Lends
  callers_length : c.callers.length = c.sender.calls.length
  waiters_length : c.waiters.length = c.waits.length
  caller : ∀ (k f : Nat) (call : SendCall), c.callers[k]? = some f →
    c.sender.calls[k]? = some call → ∃ stream, c.heap.stream? f = some stream ∧
      call.message.streamId = stream.streamId
  waiter : ∀ w f : Nat, c.waiters[w]? = some f → ∃ stream, c.heap.stream? f = some stream ∧
    c.waits[w]? = some stream.streamId.toNat

/-! ## What a flow has called -/

theorem called_mem {entry : Nat × SendCall} (h : entry ∈ c.called) :
    ∃ k : Nat, c.callers[k]? = some entry.1 ∧ c.sender.calls[k]? = some entry.2 := by
  obtain ⟨k, hk⟩ := List.mem_iff_getElem?.mp h
  exact ⟨k, List.getElem?_zip_eq_some.mp hk⟩

/-- The calls of a flow among those on its stream. -/
theorem callsOf_eq (h : c.Recorded) (hstream : c.heap.stream? f = some stream) :
    c.callsOf f = ((c.calledOn stream.streamId.toNat).filter
      fun entry => some entry.1 = some f).map Prod.snd := by
  have hpairs : c.callsOf f = (c.called.filter fun entry => entry.1 = f).map Prod.snd := by
    have hvalues : valuesOf (c.called.map fun entry => (entry.1, entry.2)) f = _ :=
      Math.valuesOf_map Prod.fst Prod.snd c.called
    rwa [List.map_id'' fun _ => rfl] at hvalues
  rw [hpairs, calledOn, List.filter_filter]
  congr 1
  apply List.filter_congr
  intro entry hentry
  obtain ⟨k, hcaller, hcall⟩ := called_mem hentry
  by_cases hflow : entry.1 = f
  · -- a flow calls on its stream only
    obtain ⟨found, hfound, hsame⟩ := h.caller k entry.1 entry.2 hcaller hcall
    rw [hflow, hstream] at hfound
    cases hfound
    simp [hflow, hsame]
  · simp [hflow]

theorem asked_eq (c : ClientConnection) (place : Nat) :
    c.asked place = (c.calledOn place).map fun entry => some entry.1 :=
  Math.valuesOf_map _ _ _

theorem count_asked (h : c.Recorded) (hstream : c.heap.stream? f = some stream) :
    (c.asked stream.streamId.toNat).count (some f) = (c.callsOf f).length := by
  rw [callsOf_eq h hstream, asked_eq, List.length_map, List.count, List.countP_map,
    List.countP_eq_length_filter]
  congr 1
  apply List.filter_congr
  intro entry _
  exact Bool.beq_eq_decide_eq _ _

/-- The messages of a flow among those of its stream. -/
theorem receivedBy_eq (h : c.Recorded) (hnumbered : c.receiver.side.Numbered)
    (hstream : c.heap.stream? f = some stream) :
    c.receivedBy f = ((c.sender.receiver.deliveries stream.streamId.toNat).filter
      fun delivery => c.waiters[delivery.1]? = some f).map Prod.snd := by
  rw [Receiver.deliveries, List.filter_filterMap, List.map_filterMap, receivedBy]
  apply List.filterMap_congr
  intro entry hentry
  by_cases hflow : c.waiters[entry.waiter]? = some f
  · -- a flow waits on its stream only
    obtain ⟨found, hfound, hwaits⟩ := h.waiter _ _ hflow
    rw [hstream] at hfound
    cases hfound
    have hplace := (hnumbered.resolved_stream entry hentry).symm.trans hwaits
    rw [if_pos hflow, if_pos (Option.some.inj hplace)]
    cases entry.outcome.message? with
    | none => rfl
    | some message => simp [hflow]
  · rw [if_neg hflow]
    split
    · cases entry.outcome.message? with
      | none => rfl
      | some message => simp [hflow]
    · rfl

theorem count_answered (h : c.Recorded) (hnumbered : c.receiver.side.Numbered)
    (hstream : c.heap.stream? f = some stream) :
    (c.answered stream.streamId.toNat).count (some f) = (c.receivedBy f).length := by
  rw [receivedBy_eq h hnumbered hstream, answered, List.length_map, List.count, List.countP_map,
    List.countP_eq_length_filter]
  congr 1
  apply List.filter_congr
  intro delivery _
  exact Bool.beq_eq_decide_eq _ _

/-- Where nobody waits and nothing has failed, each wait of a flow has got a message. -/
theorem Recorded.length_receivedBy (h : c.Recorded) (hnumbered : c.receiver.side.Numbered)
    (hnobody : c.sender.receiver.waiting = [])
    (hanswers : ∀ entry ∈ c.sender.receiver.resolved, entry.outcome.message? ≠ none) :
    (c.receivedBy f).length = c.waiters.count f := by
  have honce : (c.sender.receiver.resolved.map (·.waiter)).Perm (List.range c.waits.length) := by
    have hperm := hnumbered.once
    rwa [show c.receiver.side.receiver.waiting = [] from hnobody, List.map_nil,
      List.append_nil] at hperm
  calc (c.receivedBy f).length
      = c.sender.receiver.resolved.countP fun entry => c.waiters[entry.waiter]? = some f := by
        rw [receivedBy, List.length_filterMap_eq_countP]
        apply List.countP_congr
        intro entry hentry
        have hmessage := Option.isSome_iff_ne_none.mpr (hanswers entry hentry)
        split
        next hflow => simp [hflow, hmessage]
        next hother => simp [hother]
    _ = (List.range c.waits.length).countP fun i => c.waiters[i]? = some f := by
        rw [← honce.countP_eq, List.countP_map]
        rfl
    _ = c.waiters.count f := by
        rw [← h.waiters_length]
        exact Math.countP_range_getElem? _ _

theorem exists_of_mem_callsOf {call : SendCall} (h : call ∈ c.callsOf f) :
    ∃ k : Nat, c.callers[k]? = some f ∧ c.sender.calls[k]? = some call :=
  called_mem (Math.mem_valuesOf.mp h)

/-- The streams that are asked on depend on the messages alone. -/
theorem asked_of_messages (hcallers : d.callers = c.callers)
    (hmessages : d.sender.calls.map SendCall.message = c.sender.calls.map SendCall.message) :
    d.asked place = c.asked place := by
  have hform : ∀ c : ClientConnection, c.asked place =
      valuesOf ((c.callers.zip (c.sender.calls.map SendCall.message)).map fun entry =>
        (entry.2.streamId.toNat, some entry.1)) place := by
    intro c
    rw [List.zip_map_right, List.map_map]
    rfl
  rw [hform, hform, hcallers, hmessages]

theorem Uses.stream_eq (h : c.Uses f stream) (hother : c.Uses f other) : other = stream :=
  Option.some.inj (hother.1.symm.trans h.1)

theorem Recorded.eq_of_uses (h : c.Recorded) (hf : c.Uses f stream) (hg : c.Uses g other)
    (hsame : stream.streamId.toNat = other.streamId.toNat) : f = g :=
  h.lends.eq_of_streamId hf.1 hf.2 hg.1 hg.2 (UInt16.toNat_inj.mp hsame)

/-! ## The records are kept -/

/-- A new call and its flow come to the same place. -/
theorem Recorded.called_concat (h : c.Recorded) {k : Nat} {call found : SendCall}
    (hcaller : (c.callers ++ [f])[k]? = some g)
    (hcall : (c.sender.calls ++ [call])[k]? = some found) :
    (c.callers[k]? = some g ∧ c.sender.calls[k]? = some found) ∨ (g = f ∧ found = call) := by
  rcases Math.getElem?_concat_some hcaller with hold | ⟨rfl, rfl⟩
  · rcases Math.getElem?_concat_some hcall with hcall | ⟨rfl, -⟩
    · exact .inl ⟨hold, hcall⟩
    · -- behind the calls there is no caller
      have hlt := (List.getElem?_eq_some_iff.mp hold).1
      rw [h.callers_length] at hlt
      exact absurd hlt (Nat.lt_irrefl _)
  · rw [h.callers_length, List.getElem?_concat_length] at hcall
    cases hcall
    exact .inr ⟨rfl, rfl⟩

/-- Stream objects may come and close. -/
theorem Recorded.of_heap (h : c.Recorded) {heap : StreamHeap} (hlends : heap.Lends)
    (hkeeps : ∀ f stream, c.heap.stream? f = some stream →
      ∃ other, heap.stream? f = some other ∧ other.streamId = stream.streamId) :
    Recorded { c with heap } where
  lends := hlends
  callers_length := h.callers_length
  waiters_length := h.waiters_length
  caller := by
    intro k f call hcaller hcall
    obtain ⟨stream, hstream, hsame⟩ := h.caller k f call hcaller hcall
    obtain ⟨other, hother, hid⟩ := hkeeps f stream hstream
    exact ⟨other, hother, hsame.trans hid.symm⟩
  waiter := by
    intro w f hwaiter
    obtain ⟨stream, hstream, hsame⟩ := h.waiter w f hwaiter
    obtain ⟨other, hother, hid⟩ := hkeeps f stream hstream
    exact ⟨other, hother, by rw [hid]; exact hsame⟩

theorem stream?_of_openStream {h h' : StreamHeap} {object : ConnectionStream}
    (hstreams : ∀ f, h'.stream? f = if f = h.streams.length then some object else h.stream? f)
    (hstream : h.stream? f = some stream) : h'.stream? f = some stream := by
  have hlt := (List.getElem?_eq_some_iff.mp (StreamHeap.getElem?_of_stream hstream)).1
  rw [hstreams, if_neg (Nat.ne_of_lt hlt)]
  exact hstream

/-- What is not a call or a wait leaves the records alone. -/
theorem Recorded.withReceiver (h : c.Recorded) {receiver : ByteReceiver}
    (hwaits : receiver.side.waits = c.waits) : (c.withReceiver receiver).Recorded where
  lends := h.lends
  callers_length := h.callers_length
  waiters_length := h.waiters_length.trans (congrArg List.length hwaits.symm)
  caller := h.caller
  waiter := by
    intro w f hwaiter
    obtain ⟨stream, hstream, hsame⟩ := h.waiter w f hwaiter
    exact ⟨stream, hstream, (congrArg (fun waits : List Nat => waits[w]?) hwaits).trans hsame⟩

theorem Recorded.step (h : c.Recorded) (hstep : c.StepTo compress event d) : d.Recorded := by
  cases hstep with
  | openStream step =>
    obtain ⟨hlends, object, hstreams, -⟩ := h.lends.openStream step
    exact h.of_heap hlends fun f stream hstream =>
      ⟨stream, stream?_of_openStream hstreams hstream, rfl⟩
  | @callSend f message stream sender uses goOn step =>
    rw [SendSide.step_sendMessage uses.2] at step
    cases step
    refine ⟨h.lends, ?_, h.waiters_length, ?_, h.waiter⟩
    · simp [h.callers_length]
    · intro k g call hcaller hcall
      rcases h.called_concat hcaller hcall with ⟨hcaller, hcall⟩ | ⟨rfl, rfl⟩
      · exact h.caller k g call hcaller hcall
      · exact ⟨stream, uses.1, rfl⟩
  | send isOfCall step =>
    obtain ⟨k, old, new, hmoves⟩ := SendSide.exists_movesCall isOfCall step
    refine ⟨h.lends, ?_, h.waiters_length, ?_, h.waiter⟩
    · rw [hmoves.calls, List.length_set]
      exact h.callers_length
    · intro j g call hcaller hcall
      rw [hmoves.calls] at hcall
      rcases Math.getElem?_set_some hcall with ⟨rfl, rfl⟩ | ⟨-, hcall⟩
      · rw [hmoves.message]
        exact h.caller j g old hcaller hmoves.old_eq
      · exact h.caller j g call hcaller hcall
  | @callWait f stream receiver uses goOn lt step =>
    obtain ⟨-, rfl⟩ := ByteReceiver.exists_of_wait step
    refine ⟨h.lends, h.callers_length, ?_, h.caller, ?_⟩
    · show (c.waiters ++ [f]).length = (c.waits ++ [stream.streamId.toNat]).length
      simp [h.waiters_length]
    · intro w g hwaiter
      show ∃ found, c.heap.stream? g = some found ∧
        (c.waits ++ [stream.streamId.toNat])[w]? = some found.streamId.toNat
      rcases Math.getElem?_concat_some hwaiter with hold | ⟨rfl, rfl⟩
      · obtain ⟨found, hfound, hwaits⟩ := h.waiter w g hold
        exact ⟨found, hfound, Math.getElem?_append_of_some _ hwaits⟩
      · refine ⟨stream, uses.1, ?_⟩
        rw [h.waiters_length]
        exact List.getElem?_concat_length
  | receive isOfLoop step =>
    exact h.withReceiver (ByteReceiver.exists_of_isOfLoop isOfLoop step).1
  | @release f stream heap uses ended step =>
    obtain ⟨hlends, hstreams⟩ := h.lends.close uses.1 step
    refine h.of_heap hlends fun g found hfound => ?_
    rw [hstreams]
    split
    next hsame =>
      subst hsame
      rw [uses.1] at hfound
      cases hfound
      exact ⟨_, rfl, rfl⟩
    · exact ⟨found, hfound, rfl⟩

end ClientConnection

end CqlDriver
