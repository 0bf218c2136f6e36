import CqlDriver.Math.Turns
import CqlDriver.Session.ClientRecords

/-!
# The flows of a connection take turns

While the connection is open, a flow that gives its stream back has a message for each of its
requests, so that nothing of it is on its way when the next flow comes. A flow that gets its stream
after the connection was closed gives nothing to the socket, and waits for nothing. So the flows
that get the messages of a stream are, place by place, those that have asked for them.

## Main definitions

* `ClientConnection.Awaits` — a flow has asked for more than it has got
* `ClientConnection.InTurn` — the invariant

## Main results

* `ClientConnection.InTurn.step` — every step keeps the invariant
* `ClientConnection.inTurn_of_reachable`
-/

namespace CqlDriver

open Math (HasTurn valuesOf)

namespace ClientConnection

variable {compress : Bytes → Appended} {c d : ClientConnection} {event : Event} {f g place : Nat}
  {stream other : ConnectionStream}

/-- The flow has asked for more on the stream than it has got. -/
structure Awaits (c : ClientConnection) (f place : Nat) : Prop where
  turn : HasTurn (c.asked place) (c.answered place) (some f)
  lt : (c.answered place).count (some f) < (c.asked place).count (some f)

/-- Nothing of the flow was given to the socket. -/
def IsUnsent (c : ClientConnection) (f : Nat) : Prop :=
  ∀ (k : Nat) (call : SendCall), c.callers[k]? = some f → c.sender.calls[k]? = some call →
    call.frame = none

/-- The flows take turns. -/
structure InTurn (c : ClientConnection) : Prop where
  /-- Who waits has the stream, and has asked for more than it has got. -/
  slot : ∀ place w, c.sender.receiver.slot place = some w → ∃ f stream,
    c.waiters[w]? = some f ∧ c.Uses f stream ∧ stream.streamId.toNat = place ∧ c.Awaits f place
  answers : c.sender.receiver.isConnected = true →
    ∀ entry ∈ c.sender.receiver.resolved, entry.outcome.message? ≠ none
  sends : c.sender.receiver.isConnected = true → ∀ call ∈ c.sender.calls, call.hasFailed = false
  /-- On a stream that nobody has all is answered. -/
  free : c.sender.receiver.isConnected = true → ∀ place,
    (∀ f stream, c.Uses f stream → stream.streamId.toNat ≠ place) →
      c.asked place = c.answered place
  /-- A flow came when all was answered, or when the connection was closed. -/
  user : ∀ f stream, c.Uses f stream →
    HasTurn (c.asked stream.streamId.toNat) (c.answered stream.streamId.toNat) (some f) ∨
      (c.sender.receiver.isConnected = false ∧ c.IsUnsent f)
  isPrefix : ∀ place, c.answered place <+: c.asked place

/-! ## Streams change hands -/

/-- A flow that has its stream awaits something, or has got all that it has asked for. -/
theorem awaits_of_lt (hrecorded : c.Recorded) (hnumbered : c.receiver.side.Numbered)
    (huses : c.Uses f stream) (hlt : (c.receivedBy f).length < (c.callsOf f).length)
    (hturn : HasTurn (c.asked stream.streamId.toNat) (c.answered stream.streamId.toNat) (some f)) :
    c.Awaits f stream.streamId.toNat := by
  refine ⟨hturn, ?_⟩
  rw [count_answered hrecorded hnumbered huses.1, count_asked hrecorded huses.1]
  exact hlt

/-- A new flow gets a stream that nobody has. -/
theorem InTurn.openStream (h : c.InTurn) (hrecorded : c.Recorded) {heap : StreamHeap}
    (hstep : c.heap.step (.openStream 0) = some heap) : InTurn { c with heap } := by
  obtain ⟨-, object, hstreams, hfresh⟩ := hrecorded.lends.openStream hstep
  have hkept : ∀ {f : Nat} {stream : ConnectionStream}, c.Uses f stream →
      Uses { c with heap } f stream := fun huses =>
    ⟨stream?_of_openStream hstreams huses.1, huses.2⟩
  -- nobody has called anything for the new flow
  have hunsent : IsUnsent { c with heap } c.heap.streams.length := by
    intro k call hcaller hcall
    obtain ⟨stream, hstream, -⟩ := hrecorded.caller k _ call hcaller hcall
    have hlt := (List.getElem?_eq_some_iff.mp (StreamHeap.getElem?_of_stream hstream)).1
    exact absurd hlt (Nat.lt_irrefl _)
  refine ⟨?_, h.answers, h.sends, ?_, ?_, h.isPrefix⟩
  · intro place w hslot
    obtain ⟨f, stream, hwaiter, huses, hplace, hawaits⟩ := h.slot place w hslot
    exact ⟨f, stream, hwaiter, hkept huses, hplace, hawaits.turn, hawaits.lt⟩
  · intro hconnected place hnobody
    exact h.free hconnected place fun f stream huses => hnobody f stream (hkept huses)
  · intro f stream huses
    obtain ⟨hstream, hvalid⟩ := huses
    rw [show heap.stream? f = _ from hstreams f] at hstream
    split at hstream
    next hnew =>
      obtain rfl := Option.some.inj hstream
      cases hconnected : c.sender.receiver.isConnected with
      | true =>
        -- nobody has the id, so that all was answered
        refine .inl (.of_eq (h.free hconnected _ fun g other hother => ?_))
        exact fun hsame => hfresh hvalid g other hother.1 hother.2 (UInt16.toNat_inj.mp hsame)
      | false => exact .inr ⟨rfl, hnew ▸ hunsent⟩
    · exact h.user f stream ⟨hstream, hvalid⟩

/-- As long as the connection is open nothing has failed. -/
theorem InTurn.not_hasFailed (h : c.InTurn) (hconnected : c.sender.receiver.isConnected = true) :
    ¬ c.HasFailed f := by
  rintro (⟨call, hcall, hfailed⟩ | ⟨entry, hentry, -, hnone⟩)
  · obtain ⟨k, -, hget⟩ := exists_of_mem_callsOf hcall
    rw [h.sends hconnected call (List.mem_of_getElem? hget)] at hfailed
    cases hfailed
  · exact h.answers hconnected entry hentry hnone

/-- A flow gives its stream back. -/
theorem InTurn.release (h : c.InTurn) (hrecorded : c.Recorded)
    (hnumbered : c.receiver.side.Numbered) {heap : StreamHeap} (huses : c.Uses f stream)
    (hended : c.HasEnded f) (hstep : c.heap.step (.close f) = some heap) :
    InTurn { c with heap } := by
  obtain ⟨-, hstreams⟩ := hrecorded.lends.close huses.1 hstep
  have huses' : ∀ g other, Uses { c with heap } g other ↔ c.Uses g other ∧ g ≠ f := by
    intro g other
    rw [Uses, show heap.stream? g = _ from hstreams g]
    by_cases hsame : g = f
    · subst hsame
      simp only [if_pos, Option.some.injEq, ne_eq, not_true_eq_false, and_false, iff_false]
      rintro ⟨rfl, hvalid⟩
      cases hvalid
    · simp [hsame, Uses]
  refine ⟨?_, h.answers, h.sends, ?_, ?_, h.isPrefix⟩
  · intro place w hslot
    obtain ⟨g, other, hwaiter, hother, hplace, hawaits⟩ := h.slot place w hslot
    refine ⟨g, other, hwaiter, (huses' g other).mpr ⟨hother, ?_⟩, hplace, hawaits.turn, hawaits.lt⟩
    -- a flow that waits has not ended
    rintro rfl
    exact hended.1.2 ⟨(place, w), Receiver.mem_waiting.mpr hslot, hwaiter⟩
  · intro hconnected place hnobody
    by_cases hplace : stream.streamId.toNat = place
    · -- nothing has failed, so that the flow has all its messages
      subst hplace
      rcases h.user f stream huses with hturn | ⟨hclosed, -⟩
      · refine hturn.eq_of_count_eq ?_
        rw [count_answered hrecorded hnumbered huses.1, count_asked hrecorded huses.1]
        exact hended.2.resolve_left (h.not_hasFailed hconnected)
      · exact absurd hconnected (ne_true_of_eq_false hclosed)
    · refine h.free hconnected place fun g other hother => ?_
      by_cases hsame : g = f
      · subst hsame
        rw [huses.stream_eq hother]
        exact hplace
      · exact hnobody g other ((huses' g other).mpr ⟨hother, hsame⟩)
  · exact fun g other hother => h.user g other ((huses' g other).mp hother).1

/-! ## Requests -/

theorem called_callSend (hrecorded : c.Recorded) (call : SendCall) :
    (c.callers ++ [f]).zip (c.sender.calls ++ [call]) = c.called ++ [(f, call)] :=
  List.zip_append hrecorded.callers_length

theorem InTurn.callSend (h : c.InTurn) (hrecorded : c.Recorded) (huses : c.Uses f stream)
    (message : RequestMessage) :
    InTurn { c with
      sender := { c.sender with
        calls := c.sender.calls ++ [⟨{ message with streamId := stream.streamId }, .queued, none⟩] }
      callers := c.callers ++ [f] } := by
  let call : SendCall := ⟨{ message with streamId := stream.streamId }, .queued, none⟩
  let after : ClientConnection := { c with
    sender := { c.sender with calls := c.sender.calls ++ [call] }
    callers := c.callers ++ [f] }
  show after.InTurn
  have hasked : ∀ place, after.asked place = c.asked place ++
      if stream.streamId.toNat = place then [some f] else [] := by
    intro place
    have hcalled : after.called = c.called ++ [(f, call)] := called_callSend hrecorded call
    rw [asked, hcalled, List.map_append, Math.valuesOf_append, asked]
    exact congrArg (_ ++ ·) Math.valuesOf_singleton
  have hothers : ∀ {g : Nat} {other : ConnectionStream}, c.Uses g other → g ≠ f →
      after.asked other.streamId.toNat = c.asked other.streamId.toNat := by
    intro g other hother hne
    rw [hasked, if_neg, List.append_nil]
    exact fun hsame => hne (hrecorded.eq_of_uses hother huses hsame.symm)
  refine ⟨?_, h.answers, ?_, ?_, ?_, fun place => ?_⟩
  · intro place w hslot
    obtain ⟨g, other, hwaiter, hother, hplace, hturn, hlt⟩ := h.slot place w hslot
    refine ⟨g, other, hwaiter, hother, hplace, ?_⟩
    by_cases hsame : g = f
    · -- the flow has asked for one more
      subst hsame
      obtain rfl := huses.stream_eq hother
      subst hplace
      constructor
      · rw [hasked, if_pos rfl]
        exact hturn.ask
      · rw [hasked, if_pos rfl, List.count_append]
        exact Nat.lt_add_right _ hlt
    · subst hplace
      rw [← hothers hother hsame] at hturn hlt
      exact ⟨hturn, hlt⟩
  · intro hconnected other hmem
    rcases List.mem_append.mp hmem with hold | hnew
    · exact h.sends hconnected other hold
    · obtain rfl := List.mem_singleton.mp hnew
      rfl
  · -- the stream of a flow is not one that nobody has
    intro hconnected place hnobody
    rw [hasked, if_neg (hnobody f stream huses), List.append_nil]
    exact h.free hconnected place hnobody
  · intro g other hother
    by_cases hsame : g = f
    · subst hsame
      obtain rfl := huses.stream_eq hother
      rcases h.user g other hother with hturn | ⟨hclosed, hunsent⟩
      · left
        rw [hasked, if_pos rfl]
        exact hturn.ask
      · -- the new call is queued, without a frame
        refine .inr ⟨hclosed, fun k found hcaller hcall => ?_⟩
        rcases hrecorded.called_concat hcaller hcall with ⟨hcaller, hcall⟩ | ⟨-, rfl⟩
        · exact hunsent k found hcaller hcall
        · rfl
    · rw [hothers hother hsame]
      refine (h.user g other hother).imp_right fun ⟨hclosed, hunsent⟩ => ⟨hclosed, ?_⟩
      intro k found hcaller hcall
      rcases hrecorded.called_concat hcaller hcall with ⟨hcaller, hcall⟩ | ⟨hnew, -⟩
      · exact hunsent k found hcaller hcall
      · exact absurd hnew hsame
  · rw [hasked]
    exact (h.isPrefix place).trans (List.prefix_append _ _)

/-! ## Messages -/

/-- Only the receive side has moved, and a wait may have come. -/
structure Moved (c d : ClientConnection) : Prop where
  heap : d.heap = c.heap
  callers : d.callers = c.callers
  calls : d.sender.calls = c.sender.calls
  waiters : c.waiters <+: d.waiters

namespace Moved

theorem uses (h : c.Moved d) : d.Uses f stream ↔ c.Uses f stream := by
  rw [Uses, h.heap]
  rfl

theorem asked (h : c.Moved d) : d.asked place = c.asked place :=
  asked_of_messages h.callers (congrArg _ h.calls)

theorem waiter {w : Nat} (h : c.Moved d) (hwaiter : c.waiters[w]? = some f) :
    d.waiters[w]? = some f :=
  Math.getElem?_of_prefix h.waiters hwaiter

theorem isUnsent (h : c.Moved d) (hunsent : c.IsUnsent f) : d.IsUnsent f := by
  intro k call hcaller hcall
  rw [h.callers] at hcaller
  rw [h.calls] at hcall
  exact hunsent k call hcaller hcall

/-- Those who have got a message are known, and stay. -/
theorem answered (h : c.Moved d) (hrecorded : c.Recorded) (hnumbered : c.receiver.side.Numbered)
    {more : List (Nat × ReceivedFrame)} (hdeliveries : d.sender.receiver.deliveries place =
      c.sender.receiver.deliveries place ++ more) :
    d.answered place = c.answered place ++ more.map fun delivery => d.waiters[delivery.1]? := by
  rw [ClientConnection.answered, hdeliveries, List.map_append]
  congr 1
  apply List.map_congr_left
  intro delivery hdelivery
  have hlt : delivery.1 < c.waiters.length := by
    rw [hrecorded.waiters_length]
    exact hnumbered.lt_of_mem_deliveries (List.mem_map_of_mem hdelivery)
  rw [List.getElem?_eq_getElem hlt]
  exact h.waiter (List.getElem?_eq_getElem hlt)

end Moved

/-- The flows keep their turns when nobody asks and nobody is answered. -/
theorem InTurn.keeps (h : c.InTurn) (huses : ∀ f stream, d.Uses f stream ↔ c.Uses f stream)
    (hasked : ∀ place, d.asked place = c.asked place)
    (hanswered : ∀ place, d.answered place = c.answered place)
    (hslot : ∀ place w, d.sender.receiver.slot place = some w → ∃ f stream,
      d.waiters[w]? = some f ∧ c.Uses f stream ∧ stream.streamId.toNat = place ∧ c.Awaits f place)
    (hconnected : d.sender.receiver.isConnected = true → c.sender.receiver.isConnected = true)
    (hanswers : d.sender.receiver.isConnected = true →
      ∀ entry ∈ d.sender.receiver.resolved, entry.outcome.message? ≠ none)
    (hsends : d.sender.receiver.isConnected = true →
      ∀ call ∈ d.sender.calls, call.hasFailed = false)
    (hunsent : ∀ f, c.sender.receiver.isConnected = false → c.IsUnsent f → d.IsUnsent f) :
    d.InTurn where
  slot := by
    intro place w hsome
    obtain ⟨f, stream, hwaiter, hf, hplace, hturn, hlt⟩ := hslot place w hsome
    refine ⟨f, stream, hwaiter, (huses f stream).mpr hf, hplace, ?_, ?_⟩
    · rw [hasked, hanswered]
      exact hturn
    · rw [hasked, hanswered]
      exact hlt
  answers := hanswers
  sends := hsends
  free := by
    intro hopen place hnobody
    rw [hasked, hanswered]
    exact h.free (hconnected hopen) place fun f stream hf =>
      hnobody f stream ((huses f stream).mpr hf)
  user := by
    intro f stream hf
    rw [hasked, hanswered]
    refine (h.user f stream ((huses f stream).mp hf)).imp_right fun ⟨hclosed, hnothing⟩ =>
      ⟨?_, hunsent f hclosed hnothing⟩
    rw [← Bool.not_eq_true]
    exact fun hopen => absurd (hconnected hopen) (ne_true_of_eq_false hclosed)
  isPrefix := by
    intro place
    rw [hasked, hanswered]
    exact h.isPrefix place

/-- A task of the send side moves no request and no message. -/
theorem InTurn.send (h : c.InTurn) {sender : SendSide Nat ReceivedFrame} {k : Nat}
    {old new : SendCall} (hmoves : c.sender.MovesCall sender k old new) :
    InTurn { c with sender } := by
  -- the receive side stays, or the exception of the call has closed it
  have hreceiver : sender.receiver = c.sender.receiver ∨
      sender.receiver = c.sender.receiver.close := hmoves.settles.imp And.left And.left
  have hsame : sender.receiver.isConnected = true → sender.receiver = c.sender.receiver := by
    intro hopen
    rcases hreceiver with hsame | hclosed
    · exact hsame
    · rw [hclosed] at hopen
      cases hopen
  refine h.keeps (fun _ _ => Iff.rfl) (fun place => asked_of_messages rfl hmoves.messages) ?_ ?_ ?_
    ?_ ?_ ?_
  · intro place
    show (sender.receiver.deliveries place).map _ = _
    rcases hreceiver with hsame | hclosed
    · rw [hsame]
      rfl
    · rw [hclosed, Receiver.deliveries_close]
      rfl
  · intro place w hslot
    have hslot : sender.receiver.slot place = some w := hslot
    rcases hreceiver with hsame | hclosed
    · rw [hsame] at hslot
      exact h.slot place w hslot
    · rw [hclosed, Receiver.slot_close] at hslot
      cases hslot
  · intro hopen
    rw [← hsame hopen]
    exact hopen
  · intro hopen
    show ∀ entry ∈ sender.receiver.resolved, _
    have heq := hsame hopen
    rw [heq]
    exact h.answers (heq ▸ hopen)
  · intro hopen call hmem
    have hopen : sender.receiver.isConnected = true := hopen
    have hmem : call ∈ sender.calls := hmem
    rw [hmoves.calls] at hmem
    rcases List.mem_or_eq_of_mem_set hmem with hold | rfl
    · rw [hsame hopen] at hopen
      exact h.sends hopen call hold
    · rcases hmoves.settles with ⟨-, -, -, hfailed⟩ | ⟨hclosed, -⟩
      · exact hfailed
      · rw [hclosed] at hopen
        cases hopen
  · intro f hclosed hunsent j call hcaller hcall
    have hcall : sender.calls[j]? = some call := hcall
    rw [hmoves.calls] at hcall
    rcases Math.getElem?_set_some hcall with ⟨rfl, rfl⟩ | ⟨-, hcall⟩
    · rw [hmoves.frame hclosed]
      exact hunsent j old hcaller hmoves.old_eq
    · exact hunsent j call hcaller hcall

/-- A message is handed to a flow that awaits it. -/
theorem InTurn.handOver (h : c.InTurn) (hrecorded : c.Recorded)
    (hnumbered : c.receiver.side.Numbered) (hmoved : c.Moved d) {w : Nat} {message : ReceivedFrame}
    (hand : c.sender.receiver.HandsOver d.sender.receiver place w message)
    (hwaiter : d.waiters[w]? = some f) (huses : c.Uses f stream)
    (hplace : stream.streamId.toNat = place) (hawaits : c.Awaits f place) : d.InTurn := by
  subst hplace
  have hturn := hawaits.turn.answer hawaits.lt
  have hanswered : ∀ place, d.answered place = c.answered place ++
      if stream.streamId.toNat = place then [some f] else [] := by
    intro place
    rw [hmoved.answered hrecorded hnumbered hand.deliveries]
    congr 1
    split
    · rw [List.map_singleton, hwaiter]
    · rfl
  have hothers : ∀ {place : Nat}, stream.streamId.toNat ≠ place →
      d.answered place = c.answered place := by
    intro place hne
    rw [hanswered, if_neg hne, List.append_nil]
  refine ⟨?_, ?_, ?_, ?_, ?_, ?_⟩
  · -- the wait is gone, and those on other streams stay
    intro place other hslot
    rw [hand.slot] at hslot
    split at hslot
    · cases hslot
    next hne =>
      obtain ⟨g, found, hfound, hg, hplace, hgTurn, hlt⟩ := h.slot place other hslot
      refine ⟨g, found, hmoved.waiter hfound, hmoved.uses.mpr hg, hplace, ?_, ?_⟩
      · rw [hmoved.asked, hothers hne]
        exact hgTurn
      · rw [hmoved.asked, hothers hne]
        exact hlt
  · intro hconnected entry hentry
    rw [hand.connected] at hconnected
    rw [hand.resolved] at hentry
    rcases List.mem_append.mp hentry with hold | hnew
    · exact h.answers hconnected entry hold
    · rw [List.mem_singleton.mp hnew]
      exact Option.some_ne_none message
  · intro hconnected
    rw [hand.connected] at hconnected
    rw [hmoved.calls]
    exact h.sends hconnected
  · intro hconnected place hnobody
    rw [hand.connected] at hconnected
    rw [hmoved.asked, hothers (hnobody f stream (hmoved.uses.mpr huses))]
    exact h.free hconnected place fun g other hg => hnobody g other (hmoved.uses.mpr hg)
  · intro g other hg
    have hg := hmoved.uses.mp hg
    rw [hmoved.asked]
    by_cases hsame : g = f
    · subst hsame
      obtain rfl := huses.stream_eq hg
      left
      rw [hanswered, if_pos rfl]
      exact hturn
    · rw [hothers fun hid => hsame (hrecorded.eq_of_uses hg huses hid.symm)]
      exact (h.user g other hg).imp_right fun ⟨hclosed, hunsent⟩ =>
        ⟨hand.connected.trans hclosed, hmoved.isUnsent hunsent⟩
  · intro place
    rw [hmoved.asked]
    by_cases hsame : stream.streamId.toNat = place
    · subst hsame
      rw [hanswered, if_pos rfl]
      exact hturn.isPrefix
    · rw [hothers hsame]
      exact h.isPrefix place

/-- A flow that awaits something waits for it. -/
theorem InTurn.register (h : c.InTurn) (hrecorded : c.Recorded)
    (hnumbered : c.receiver.side.Numbered) (hmoved : c.Moved d) {w : Nat}
    (hregisters : c.sender.receiver.Registers d.sender.receiver place w)
    (hwaiter : d.waiters[w]? = some f) (huses : c.Uses f stream)
    (hplace : stream.streamId.toNat = place) (hawaits : c.Awaits f place) : d.InTurn := by
  have hopen : d.sender.receiver.isConnected = true → c.sender.receiver.isConnected = true :=
    fun hopen => hregisters.connected.symm.trans hopen
  refine h.keeps (fun _ _ => hmoved.uses) (fun _ => hmoved.asked) ?_ ?_ hopen ?_ ?_ ?_
  · intro other
    have hdeliveries : d.sender.receiver.deliveries other =
        c.sender.receiver.deliveries other ++ [] := by
      rw [List.append_nil]
      exact Receiver.deliveries_of_resolved hregisters.resolved
    rw [hmoved.answered hrecorded hnumbered hdeliveries, List.map_nil, List.append_nil]
  · intro other found hsome
    rw [hregisters.slot] at hsome
    split at hsome
    next hsame =>
      -- the wait of this flow
      cases hsome
      subst hsame
      exact ⟨f, stream, hwaiter, huses, hplace, hawaits⟩
    · obtain ⟨g, holder, hholder, hrest⟩ := h.slot other found hsome
      exact ⟨g, holder, hmoved.waiter hholder, hrest⟩
  · intro hconnected
    rw [hregisters.resolved]
    exact h.answers (hopen hconnected)
  · intro hconnected
    rw [hmoved.calls]
    exact h.sends (hopen hconnected)
  · exact fun g _ hunsent => hmoved.isUnsent hunsent

/-- The loop hands a message over, goes on, or ends with the connection closed. -/
theorem InTurn.receive (h : c.InTurn) (hrecorded : c.Recorded)
    (hnumbered : c.receiver.side.Numbered) (hsound : c.sender.receiver.Sound)
    {event : ByteReceiver.Event} {receiver : ByteReceiver} (hloop : event.isOfLoop = true)
    (hstep : c.receiver.step event = some receiver) : (c.withReceiver receiver).InTurn := by
  have hmoved : c.Moved (c.withReceiver receiver) := ⟨rfl, rfl, rfl, List.prefix_refl _⟩
  -- as long as no message is handed over the turns stay
  have hkeeps : (∀ place, receiver.side.receiver.deliveries place =
      c.sender.receiver.deliveries place) →
      (∀ place w, receiver.side.receiver.slot place = some w →
        c.sender.receiver.slot place = some w) →
      (receiver.side.receiver.isConnected = true →
        c.sender.receiver.isConnected = true ∧
          receiver.side.receiver.resolved = c.sender.receiver.resolved) →
      (c.withReceiver receiver).InTurn := by
    intro hdeliveries hslot hconnected
    refine h.keeps (fun _ _ => Iff.rfl) (fun _ => hmoved.asked) ?_ ?_ ?_ ?_ ?_ ?_
    · exact fun place => congrArg (List.map _) (hdeliveries place)
    · exact fun place w hsome => h.slot place w (hslot place w hsome)
    · exact fun hopen => (hconnected hopen).1
    · intro hopen
      show ∀ entry ∈ receiver.side.receiver.resolved, _
      rw [(hconnected hopen).2]
      exact h.answers (hconnected hopen).1
    · exact fun hopen => h.sends (hconnected hopen).1
    · exact fun f _ hunsent => hmoved.isUnsent hunsent
  rcases (ByteReceiver.exists_of_isOfLoop hloop hstep).2 with
    ⟨receiverEvent, hinternal, hreceiver⟩ | ⟨place, frame, hopen, hreading, hreceiver⟩
  · rcases hsound.receive_effect hinternal hreceiver with
      hreads | ⟨place, w, message, hslot, hand⟩ | hfails
    · refine hkeeps (fun place => ?_) (fun place w hsome => ?_) fun hopen => ⟨?_, hreads.resolved⟩
      · exact Receiver.deliveries_of_resolved hreads.resolved
      · rw [← hreads.slot]
        exact hsome
      · rw [← hreads.connected]
        exact hopen
    · obtain ⟨f, stream, hwaiter, huses, hplace, hawaits⟩ := h.slot place w hslot
      exact h.handOver hrecorded hnumbered hmoved hand hwaiter huses hplace hawaits
    · refine hkeeps (fun place => hfails.deliveries) (fun place w hsome => ?_) fun hopen => ?_
      · rw [hfails.slot] at hsome
        cases hsome
      · rw [hfails.connected] at hopen
        cases hopen
  · -- a frame that is being read is not handed over yet
    rw [hreceiver] at hkeeps
    exact hkeeps (fun _ => rfl) (fun _ _ hsome => hsome) fun hopen => ⟨hopen, rfl⟩

/-- The calls of a flow that goes on were sent. -/
theorem CanGoOn.sent (h : c.CanGoOn f) {call : SendCall} (hcall : call ∈ c.callsOf f) :
    call.status = .sent := by
  have hsettled := h.1.1 call hcall
  have hfailed : call.hasFailed ≠ true := fun hfailed => h.2 (.inl ⟨call, hcall, hfailed⟩)
  cases hstatus : call.status with
  | sent => rfl
  | failed ex => simp [SendCall.hasFailed, hstatus] at hfailed
  | queued | putting | flushing | throwing => simp [SendCall.result, hstatus] at hsettled

/-- A flow that has sent more than it has got waits. -/
theorem InTurn.callWait (h : c.InTurn) (hrecorded : c.Recorded)
    (hnumbered : c.receiver.side.Numbered) (hsound : c.sender.receiver.Sound)
    (hchained : c.sender.Chained compress) {receiver : ByteReceiver} (huses : c.Uses f stream)
    (hgoOn : c.CanGoOn f) (hlt : (c.receivedBy f).length < (c.callsOf f).length)
    (hstep : c.receiver.step (.wait stream.streamId.toNat) = some receiver) :
    InTurn { c.withReceiver receiver with waiters := c.waiters ++ [f] } := by
  have hmoved : c.Moved { c.withReceiver receiver with waiters := c.waiters ++ [f] } :=
    ⟨rfl, rfl, rfl, List.prefix_append _ _⟩
  obtain ⟨hplace, rfl⟩ := ByteReceiver.exists_of_wait hstep
  have hwaiter : (c.waiters ++ [f])[c.waits.length]? = some f := by
    rw [← hrecorded.waiters_length]
    exact List.getElem?_concat_length
  have hawaits : c.Awaits f stream.streamId.toNat := by
    refine awaits_of_lt hrecorded hnumbered huses hlt ((h.user f stream huses).resolve_right ?_)
    rintro ⟨-, hunsent⟩
    -- what it has sent was given to the socket
    have hne : c.callsOf f ≠ [] := List.ne_nil_of_length_pos (Nat.zero_lt_of_lt hlt)
    obtain ⟨call, hcall⟩ := List.exists_mem_of_ne_nil _ hne
    obtain ⟨k, hcaller, hget⟩ := exists_of_mem_callsOf hcall
    exact hchained.given k call hget (hgoOn.sent hcall) (hunsent k call hcaller hget)
  rcases @Receiver.Sound.wait_effect _ _ _ _ c.waits.length hsound hplace with
    ⟨message, hand⟩ | ⟨holder, hslot⟩ | hregisters
  · exact h.handOver hrecorded hnumbered hmoved hand hwaiter huses rfl hawaits
  · -- another wait of the flow would be pending
    obtain ⟨g, other, hholder, hg, hsame, -⟩ := h.slot _ holder hslot
    obtain rfl := hrecorded.eq_of_uses hg huses hsame
    exact absurd ⟨(_, holder), Receiver.mem_waiting.mpr hslot, hholder⟩ hgoOn.1.2
  · exact h.register hrecorded hnumbered hmoved hregisters hwaiter huses rfl hawaits

/-! ## Runs -/

theorem InTurn.step (h : c.InTurn) (hrecorded : c.Recorded)
    (hnumbered : c.receiver.side.Numbered) (hsound : c.sender.receiver.Sound)
    (hchained : c.sender.Chained compress) (hstep : c.StepTo compress event d) : d.InTurn := by
  cases hstep with
  | openStream step => exact h.openStream hrecorded step
  | callSend uses goOn step =>
    rw [SendSide.step_sendMessage uses.2] at step
    cases step
    exact h.callSend hrecorded uses _
  | send isOfCall step =>
    obtain ⟨k, old, new, hmoves⟩ := SendSide.exists_movesCall isOfCall step
    exact h.send hmoves
  | callWait uses goOn lt step =>
    exact h.callWait hrecorded hnumbered hsound hchained uses goOn lt step
  | receive isOfLoop step => exact h.receive hrecorded hnumbered hsound isOfLoop step
  | release uses ended step => exact h.release hrecorded hnumbered uses ended step

variable {maxStreams : MaxStreams} {maxPendingMessages : Nat} {bytes : Bytes}
  {order : IterationOrder} {hasCompressor : Bool}

theorem recorded_create :
    (create maxStreams maxPendingMessages hasCompressor bytes).Recorded where
  lends := by
    refine ⟨StreamHeap.Intact.connect (h := ⟨[], []⟩) ⟨?_, ?_⟩ maxStreams, _, rfl, rfl⟩
    · exact fun _ hmem => by cases hmem
    · exact fun c owner howner => by cases howner
  callers_length := rfl
  waiters_length := rfl
  caller := fun k f call hcaller => by cases hcaller
  waiter := fun w f hwaiter => by cases hwaiter

theorem inTurn_create :
    (create maxStreams maxPendingMessages hasCompressor bytes).InTurn := by
  have hslot : ∀ place, (create maxStreams maxPendingMessages hasCompressor
      bytes).sender.receiver.slot place = none := fun place => Receiver.slot_create place
  refine ⟨?_, ?_, ?_, fun _ _ _ => rfl, ?_, fun _ => List.prefix_refl _⟩
  · intro place w hsome
    rw [hslot] at hsome
    cases hsome
  · exact fun _ entry hentry => by cases hentry
  · exact fun _ call hcall => by cases hcall
  · exact fun f stream huses => by cases huses.1

/-- The flows take turns in every run. -/
theorem inTurn_of_reachable
    (h : (system compress maxStreams maxPendingMessages bytes).Reachable c) :
    c.Recorded ∧ c.InTurn := by
  rw [Math.TransitionSystem.Reachable] at h
  induction h with
  | start hstart =>
    obtain ⟨hasCompressor, rfl⟩ := hstart
    exact ⟨recorded_create, inTurn_create⟩
  | @step c event d hc hallowed hstep ih =>
    obtain ⟨hrecorded, hturn⟩ := ih
    obtain ⟨hsound, hnumbered⟩ := ReceiveSide.sound_and_numbered_of_reachable
      (ByteReceiver.receives (receiver_reachable hc))
    have hchained := SendSide.chained_of_reachable
      (sender_reachable_of (fun _ _ _ => trivial) (fun _ _ _ _ _ => trivial) hc)
    exact ⟨hrecorded.step (stepTo hstep),
      hturn.step hrecorded hnumbered hsound hchained (stepTo hstep)⟩

end ClientConnection

end CqlDriver
