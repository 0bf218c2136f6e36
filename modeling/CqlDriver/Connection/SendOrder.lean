import CqlDriver.Connection.Sending

/-!
# The order of the sends

The calls of `sendMessage` are chained by their promises. Along every run the chain is
a row of calls that were sent, then at most one call that has its turn, then calls
that wait, or calls that have failed because one before them has.

## Main definitions

* `SendSide.Chained` — the invariant of the chain
* `SendSide.Serialised` — what the chain gives to the callers

## Main results

* `SendSide.Chained.setCall` — a call that has its turn moves on
* `SendSide.serialised_of_reachable` — sends are serialised, along every run
-/

namespace CqlDriver

namespace SendCall

/-- The call had its turn: it was encoded, or an exception was thrown on the way. -/
def HadTurn (call : SendCall) : Prop :=
  call.frame ≠ none ∨ (call.status ≠ .queued ∧ ∀ ex, call.status ≠ .failed ex)

variable {call : SendCall}

theorem IsWriting.not_settled (h : call.IsWriting) : ¬ call.IsSettled := by
  rintro (hsent | ⟨ex, hfailed⟩)
  · rcases h with h | h <;> rw [h] at hsent <;> cases hsent
  · rcases h with h | h <;> rw [h] at hfailed <;> cases hfailed

theorem IsWriting.hadTurn (h : call.IsWriting) : call.HadTurn := by
  refine .inr ⟨fun hqueued => ?_, fun ex hfailed => ?_⟩
  · rcases h with h | h <;> rw [h] at hqueued <;> cases hqueued
  · rcases h with h | h <;> rw [h] at hfailed <;> cases hfailed

theorem not_settled_of_queued (h : call.status = .queued) : ¬ call.IsSettled := by
  rintro (hsent | ⟨ex, hfailed⟩)
  · rw [h] at hsent; cases hsent
  · rw [h] at hfailed; cases hfailed

theorem not_settled_of_throwing {ex : Exception} (h : call.status = .throwing ex) :
    ¬ call.IsSettled := by
  rintro (hsent | ⟨ex, hfailed⟩)
  · rw [h] at hsent; cases hsent
  · rw [h] at hfailed; cases hfailed

end SendCall

namespace SendSide

variable {ω μ : Type*} {compress : Bytes → Appended} {s t : SendSide ω μ}
  {i j k maxStreams maxPendingMessages : Nat} {call old new : SendCall}

/-- The chain of the calls. -/
structure Chained (compress : Bytes → Appended) (s : SendSide ω μ) : Prop where
  order : ∀ (i j : Nat) (first second : SendCall), i < j → s.calls[i]? = some first → s.calls[j]? = some second →
    second.status ≠ .queued → first.IsSettled
  turn : ∀ (i j : Nat) (first second : SendCall), i < j → s.calls[i]? = some first → s.calls[j]? = some second →
    second.HadTurn → first.status = .sent
  fresh : ∀ (k : Nat) (call : SendCall), s.calls[k]? = some call → call.status = .queued → call.frame = none
  buffer : ∀ (k : Nat) (call : SendCall), s.calls[k]? = some call → call.IsWriting →
    call.frame = some s.sendingBuffer
  given : ∀ (k : Nat) (call : SendCall), s.calls[k]? = some call → call.status = .sent → call.frame ≠ none
  frames : ∀ (k : Nat) (call : SendCall) (bytes : Bytes), s.calls[k]? = some call → call.frame = some bytes →
    call.message.IsFrame compress bytes
  written : s.written = (s.calls.filterMap SendCall.frame).flatten

/-- Behind a call that is not settled everything waits. -/
theorem Chained.later (h : s.Chained compress) (hcall : s.calls[k]? = some call)
    (hopen : ¬ call.IsSettled) {other : SendCall} (hj : k < j) (hother : s.calls[j]? = some other) :
    other.status = .queued := by
  by_contra hne
  exact hopen (h.order k j call other hj hcall hother hne)

/-- Before a resolved promise everything is settled. -/
theorem Chained.earlier (h : s.Chained compress) {status : SendStatus}
    (hprevious : s.previous k = some status)
    (hsettled : status = .sent ∨ ∃ ex, status = .failed ex) (hi : i < k)
    (hcall : s.calls[i]? = some call) : call.IsSettled := by
  cases k with
  | zero => cases hi
  | succ k =>
    obtain ⟨last, hlast, rfl⟩ := Option.map_eq_some_iff.mp hprevious
    rcases Nat.lt_succ_iff_lt_or_eq.mp hi with hlt | rfl
    · apply h.order i k call last hlt hcall hlast
      rcases hsettled with hsent | ⟨ex, hfailed⟩
      · rw [hsent]; exact SendStatus.noConfusion
      · rw [hfailed]; exact SendStatus.noConfusion
    · rw [hlast] at hcall
      cases hcall
      exact hsettled

/-- Before a call whose turn it is everything was sent. -/
theorem Chained.earlier_sent (h : s.Chained compress) (hprevious : s.previous k = some .sent)
    (hi : i < k) (hcall : s.calls[i]? = some call) : call.status = .sent := by
  cases k with
  | zero => cases hi
  | succ k =>
    obtain ⟨last, hlast, hsent⟩ := Option.map_eq_some_iff.mp hprevious
    rcases Nat.lt_succ_iff_lt_or_eq.mp hi with hlt | rfl
    · exact h.turn i k call last hlt hcall hlast (.inl (h.given k last hlast hsent))
    · rw [hlast] at hcall
      cases hcall
      exact hsent

/-- A call that is not settled moves on; nothing behind it has started. -/
theorem Chained.setCall (h : s.Chained compress) (hcall : s.calls[k]? = some old)
    (hopen : ¬ old.IsSettled) (hcalls : t.calls = s.calls.set k new)
    (hstarted : new.status ≠ .queued)
    (hsettled : ∀ i < k, ∀ call, s.calls[i]? = some call → call.IsSettled)
    (hturn : new.HadTurn → ∀ i < k, ∀ call, s.calls[i]? = some call → call.status = .sent)
    (hbuffer : new.IsWriting → new.frame = some t.sendingBuffer)
    (hgiven : new.status = .sent → new.frame ≠ none)
    (hframe : ∀ bytes, new.frame = some bytes → new.message.IsFrame compress bytes)
    (hwritten : ∀ before, s.written = before ++ old.frame.getD [] →
      t.written = before ++ new.frame.getD []) : t.Chained compress := by
  have hlater : ∀ j other, k < j → s.calls[j]? = some other →
      other.status = .queued ∧ other.frame = none := by
    intro j other hj hother
    have hqueued := h.later hcall hopen hj hother
    exact ⟨hqueued, h.fresh j other hother hqueued⟩
  constructor
  · intro i j first second hij hfirst hsecond hne
    rw [hcalls] at hfirst hsecond
    rcases Math.getElem?_set_some hsecond with ⟨rfl, rfl⟩ | ⟨-, hkept⟩
    · rcases Math.getElem?_set_some hfirst with ⟨rfl, -⟩ | ⟨-, hfirst⟩
      · exact absurd hij (Nat.lt_irrefl _)
      · exact hsettled i hij first hfirst
    · rcases Math.getElem?_set_some hfirst with ⟨rfl, rfl⟩ | ⟨-, hfirst⟩
      · exact absurd (hlater j second hij hkept).1 hne
      · exact h.order i j first second hij hfirst hkept hne
  · intro i j first second hij hfirst hsecond hhad
    rw [hcalls] at hfirst hsecond
    rcases Math.getElem?_set_some hsecond with ⟨rfl, rfl⟩ | ⟨-, hkept⟩
    · rcases Math.getElem?_set_some hfirst with ⟨rfl, -⟩ | ⟨-, hfirst⟩
      · exact absurd hij (Nat.lt_irrefl _)
      · exact hturn hhad i hij first hfirst
    · rcases Math.getElem?_set_some hfirst with ⟨rfl, rfl⟩ | ⟨-, hfirst⟩
      · obtain ⟨hqueued, hnone⟩ := hlater j second hij hkept
        rcases hhad with hframe | hstatus
        · exact absurd hnone hframe
        · exact absurd hqueued hstatus.1
      · exact h.turn i j first second hij hfirst hkept hhad
  · intro j other hother hqueued
    rw [hcalls] at hother
    rcases Math.getElem?_set_some hother with ⟨rfl, rfl⟩ | ⟨-, hother⟩
    · exact absurd hqueued hstarted
    · exact h.fresh j other hother hqueued
  · intro j other hother hwriting
    rw [hcalls] at hother
    rcases Math.getElem?_set_some hother with ⟨rfl, rfl⟩ | ⟨hjk, hother⟩
    · exact hbuffer hwriting
    · -- no other call can have its turn
      exfalso
      rcases Nat.lt_or_gt_of_ne hjk with hlt | hgt
      · exact hwriting.not_settled (hsettled j hlt other hother)
      · have hqueued := (hlater j other hgt hother).1
        rcases hwriting with hstatus | hstatus <;> rw [hqueued] at hstatus <;> cases hstatus
  · intro j other hother hsent
    rw [hcalls] at hother
    rcases Math.getElem?_set_some hother with ⟨rfl, rfl⟩ | ⟨-, hother⟩
    · exact hgiven hsent
    · exact h.given j other hother hsent
  · intro j other bytes hother hbytes
    rw [hcalls] at hother
    rcases Math.getElem?_set_some hother with ⟨rfl, rfl⟩ | ⟨-, hother⟩
    · exact hframe bytes hbytes
    · exact h.frames j other bytes hother hbytes
  · have hnone : ∀ j other, k < j → s.calls[j]? = some other → other.frame = none :=
      fun j other hj hother => (hlater j other hj hother).2
    have hflatten : ∀ frame : Option Bytes, frame.toList.flatten = frame.getD [] := by
      intro frame
      cases frame with
      | none => rfl
      | some bytes => exact List.append_nil bytes
    have hbefore := h.written
    rw [Math.filterMap_of_later hcall hnone, List.flatten_append, hflatten] at hbefore
    rw [hwritten _ hbefore, hcalls, Math.filterMap_set_of_later new hcall hnone,
      List.flatten_append, hflatten]

/-- A call that has its turn changes its status only. -/
theorem Chained.setStatus (h : s.Chained compress) (hcall : s.calls[k]? = some call)
    (hopen : ¬ call.IsSettled) (hhad : call.HadTurn) {status : SendStatus}
    (hstarted : status ≠ .queued) (hframe : status = .sent → call.frame ≠ none)
    (hbuffer : ({ call with status } : SendCall).IsWriting → call.frame = some t.sendingBuffer)
    (hcalls : t.calls = s.calls.set k { call with status } := by rfl)
    (hwritten : t.written = s.written := by rfl) : t.Chained compress := by
  have hsent : ∀ i < k, ∀ other, s.calls[i]? = some other → other.status = .sent :=
    fun i hi other hother => h.turn i k other call hi hother hcall hhad
  apply h.setCall hcall hopen hcalls hstarted
  · exact fun i hi other hother => .inl (hsent i hi other hother)
  · exact fun _ => hsent
  · exact hbuffer
  · exact hframe
  · exact fun bytes hbytes => h.frames k call bytes hcall hbytes
  · intro before hbefore
    rw [hwritten, hbefore]

theorem Chained.called (h : s.Chained compress) (message : RequestMessage) :
    Chained compress { s with calls := s.calls ++ [⟨message, .queued, none⟩] } := by
  have hnew : ∀ {j : Nat} {other : SendCall}, (s.calls ++ [⟨message, .queued, none⟩])[j]? = some other →
      s.calls[j]? = some other ∨ other = ⟨message, .queued, none⟩ := by
    intro j other hother
    exact (Math.getElem?_concat_some hother).imp_right And.right
  have hold : ∀ {i j : Nat} {other : SendCall} (first : SendCall), i < j →
      (s.calls ++ [⟨message, .queued, none⟩])[i]? = some first →
      s.calls[j]? = some other → s.calls[i]? = some first := by
    intro i j other first hij hfirst hother
    have hlt := (List.getElem?_eq_some_iff.mp hother).1
    rwa [List.getElem?_append_left (Nat.lt_trans hij hlt)] at hfirst
  constructor
  · intro i j first second hij hfirst hsecond hne
    rcases hnew hsecond with hsecond | rfl
    · exact h.order i j first second hij (hold first hij hfirst hsecond) hsecond hne
    · exact absurd rfl hne
  · intro i j first second hij hfirst hsecond hhad
    rcases hnew hsecond with hsecond | rfl
    · exact h.turn i j first second hij (hold first hij hfirst hsecond) hsecond hhad
    · rcases hhad with hframe | hstatus
      · exact absurd rfl hframe
      · exact absurd rfl hstatus.1
  · intro j other hother hqueued
    rcases hnew hother with hother | rfl
    · exact h.fresh j other hother hqueued
    · rfl
  · intro j other hother hwriting
    rcases hnew hother with hother | rfl
    · exact h.buffer j other hother hwriting
    · rcases hwriting with hstatus | hstatus <;> cases hstatus
  · intro j other hother hsent
    rcases hnew hother with hother | rfl
    · exact h.given j other hother hsent
    · cases hsent
  · intro j other bytes hother hbytes
    rcases hnew hother with hother | rfl
    · exact h.frames j other bytes hother hbytes
    · cases hbytes
  · rw [List.filterMap_append, List.flatten_append]
    exact h.written.trans (List.append_nil _).symm

/-- A step keeps the chain. -/
theorem Chained.step (h : s.Chained compress) (hstep : s.StepTo compress t) :
    t.Chained compress := by
  cases hstep with
  | called => exact h.called _
  | @started k call bytes hcall hqueued hprevious hencoded =>
    have hsent : ∀ i < k, ∀ other, s.calls[i]? = some other → other.status = .sent :=
      fun i hi other hother => h.earlier_sent hprevious hi hother
    apply h.setCall hcall (SendCall.not_settled_of_queued hqueued) rfl SendStatus.noConfusion
    · exact fun i hi other hother => .inl (hsent i hi other hother)
    · exact fun _ => hsent
    · exact fun _ => rfl
    · exact fun hstatus => SendStatus.noConfusion hstatus
    · rintro _ ⟨⟩
      exact RequestMessage.isFrame_of_encodeMessage hencoded
    · intro before hbefore
      rw [h.fresh k call hcall hqueued, Option.getD_none, List.append_nil] at hbefore
      exact congrArg (· ++ bytes) hbefore
  | @threw k call bytes ex hcall hqueued hprevious =>
    have hsent : ∀ i < k, ∀ other, s.calls[i]? = some other → other.status = .sent :=
      fun i hi other hother => h.earlier_sent hprevious hi hother
    apply h.setCall hcall (SendCall.not_settled_of_queued hqueued) rfl SendStatus.noConfusion
    · exact fun i hi other hother => .inl (hsent i hi other hother)
    · exact fun _ => hsent
    · rintro (hstatus | hstatus) <;> cases hstatus
    · exact fun hstatus => SendStatus.noConfusion hstatus
    · exact fun bytes hbytes => h.frames k call bytes hcall hbytes
    · exact fun before hbefore => hbefore
  | @forwarded k call ex hcall hqueued hprevious =>
    apply h.setCall hcall (SendCall.not_settled_of_queued hqueued) rfl SendStatus.noConfusion
    · exact fun i hi other hother => h.earlier hprevious (.inr ⟨ex, rfl⟩) hi hother
    · rintro (hframe | ⟨-, hstatus⟩)
      · exact absurd (h.fresh k call hcall hqueued) hframe
      · exact absurd rfl (hstatus ex)
    · rintro (hstatus | hstatus) <;> cases hstatus
    · exact fun hstatus => SendStatus.noConfusion hstatus
    · exact fun bytes hbytes => h.frames k call bytes hcall hbytes
    · exact fun before hbefore => hbefore
  | @flushing k call hcall hwriting =>
    apply h.setStatus hcall (hwriting.not_settled)
      (hwriting.hadTurn) SendStatus.noConfusion
    · exact fun hstatus => SendStatus.noConfusion hstatus
    · exact fun _ => h.buffer k call hcall hwriting
  | @finished k call hcall hwriting =>
    apply h.setStatus hcall (hwriting.not_settled)
      (hwriting.hadTurn) SendStatus.noConfusion
    · intro _ hnone
      rw [h.buffer k call hcall hwriting] at hnone
      cases hnone
    · rintro (hstatus | hstatus) <;> cases hstatus
  | @broke k call ex hcall hwriting =>
    apply h.setStatus hcall (hwriting.not_settled)
      (hwriting.hadTurn) SendStatus.noConfusion
    · exact fun hstatus => SendStatus.noConfusion hstatus
    · rintro (hstatus | hstatus) <;> cases hstatus
  | @handled k call ex hcall hthrowing =>
    apply h.setStatus hcall (SendCall.not_settled_of_throwing hthrowing) _ SendStatus.noConfusion
    · exact fun hstatus => SendStatus.noConfusion hstatus
    · rintro (hstatus | hstatus) <;> cases hstatus
    · rw [SendCall.HadTurn, hthrowing]
      exact .inr ⟨SendStatus.noConfusion, fun _ => SendStatus.noConfusion⟩
  | other keeps =>
    obtain ⟨hcalls, hbuffer, hwritten, -, -, -, -, -⟩ := keeps
    constructor
    · rw [hcalls]; exact h.order
    · rw [hcalls]; exact h.turn
    · rw [hcalls]; exact h.fresh
    · rw [hcalls, hbuffer]; exact h.buffer
    · rw [hcalls]; exact h.given
    · rw [hcalls]; exact h.frames
    · rw [hcalls, hwritten]; exact h.written

theorem chained_create : (create maxStreams maxPendingMessages : SendSide ω μ).Chained compress :=
  ⟨fun _ _ _ _ _ h => (by cases h), fun _ _ _ _ _ h => (by cases h), fun _ _ h => (by cases h),
    fun _ _ h => (by cases h), fun _ _ h => (by cases h), fun _ _ _ h => (by cases h), rfl⟩

theorem chained_of_reachable [DecidableEq ω] [DecidableEq μ]
    (h : (system compress maxStreams maxPendingMessages).Reachable s) : s.Chained compress := by
  refine h.invariant _ ?_ fun s event t hs hstep => hs.step (stepTo hstep)
  rintro _ rfl
  exact chained_create

/-! ## What the callers see -/

/-- What the chain of the calls gives to the callers in one state. -/
structure Serialised [DecidableEq ω] [DecidableEq μ] (compress : Bytes → Appended)
    (s : SendSide ω μ) : Prop where
  /-- At most one message is being written. -/
  oneAtATime : ∀ (i j : Nat) (first second : SendCall), s.calls[i]? = some first →
    s.calls[j]? = some second → first.IsWriting → second.IsWriting → i = j
  /-- While a message is being written the sending buffer holds it, and no event writes
  to the buffer. -/
  buffer : ∀ (k : Nat) (call : SendCall), s.calls[k]? = some call → call.IsWriting →
    call.frame = some s.sendingBuffer ∧
      ∀ (event : Event ω μ) (t : SendSide ω μ), s.step compress event = some t →
        t.sendingBuffer = s.sendingBuffer
  /-- The socket was given the complete frames of the first calls, in order. -/
  written : ∃ k ≤ s.calls.length,
    s.written = ((s.calls.take k).filterMap SendCall.frame).flatten ∧
    (∀ call ∈ s.calls.take k, ∃ bytes,
      call.frame = some bytes ∧ call.message.IsFrame compress bytes) ∧
    ∀ call ∈ s.calls.drop k, call.frame = none
  /-- Behind a failed call nothing was given to the socket, and nothing was sent. -/
  behindFailed : ∀ (i j : Nat) (first second : SendCall) (ex : Exception), i < j →
    s.calls[i]? = some first → s.calls[j]? = some second →
    first.status = .throwing ex ∨ first.status = .failed ex →
      second.frame = none ∧ (second.status = .queued ∨ ∃ ex, second.status = .failed ex)
  /-- An exception that was thrown fails its call. -/
  handles : ∀ (i : Nat) (call : SendCall) (ex : Exception), s.calls[i]? = some call →
    call.status = .throwing ex → ∃ t, s.step compress (.handleException i) = some t ∧
      t.calls[i]? = some { call with status := .failed ex } ∧ t.written = s.written
  /-- The exception of a failed call fails the next one that waits. -/
  forwards : ∀ (i : Nat) (first second : SendCall) (ex : Exception), s.calls[i]? = some first →
    s.calls[i + 1]? = some second → first.status = .failed ex → second.status = .queued →
      ∃ t, s.step compress (.resume (i + 1)) = some t ∧
        t.calls[i + 1]? = some { second with status := .failed ex } ∧ t.written = s.written

theorem Chained.oneAtATime (h : s.Chained compress) {first second : SendCall}
    (hfirst : s.calls[i]? = some first) (hsecond : s.calls[j]? = some second)
    (hi : first.IsWriting) (hj : second.IsWriting) : i = j := by
  have hstarted : ∀ {call : SendCall}, call.IsWriting → call.status ≠ .queued := by
    rintro call (hstatus | hstatus) <;> rw [hstatus] <;> exact SendStatus.noConfusion
  rcases Nat.lt_trichotomy i j with hlt | heq | hgt
  · exact absurd (h.order i j first second hlt hfirst hsecond (hstarted hj)) hi.not_settled
  · exact heq
  · exact absurd (h.order j i second first hgt hsecond hfirst (hstarted hi)) hj.not_settled

/-- Nobody writes to the buffer while the socket has it. -/
theorem Chained.buffer_kept (h : s.Chained compress) (hcall : s.calls[k]? = some call)
    (hwriting : call.IsWriting) (hstep : s.StepTo compress t) :
    t.sendingBuffer = s.sendingBuffer := by
  -- the turn of another call comes when all calls before it are settled
  have hturn : ∀ {i : Nat} {other : SendCall}, s.calls[i]? = some other →
      other.status = .queued → s.previous i ≠ some .sent := by
    intro i other hother hqueued hprevious
    rcases Nat.lt_trichotomy k i with hlt | rfl | hgt
    · exact hwriting.not_settled (.inl (h.earlier_sent hprevious hlt hcall))
    · rw [hcall] at hother
      cases hother
      rcases hwriting with hstatus | hstatus <;> rw [hqueued] at hstatus <;> cases hstatus
    · have hwaits := h.later hother (SendCall.not_settled_of_queued hqueued) hgt hcall
      rcases hwriting with hstatus | hstatus <;> rw [hwaits] at hstatus <;> cases hstatus
  cases hstep with
  | called => rfl
  | started hother hqueued hprevious _ => exact absurd hprevious (hturn hother hqueued)
  | threw hother hqueued hprevious => exact absurd hprevious (hturn hother hqueued)
  | forwarded _ _ _ => rfl
  | flushing _ _ => rfl
  | finished _ _ => rfl
  | broke _ _ => rfl
  | handled _ _ => rfl
  | other keeps => exact keeps.sendingBuffer

theorem Chained.written_eq (h : s.Chained compress) :
    ∃ k ≤ s.calls.length, s.written = ((s.calls.take k).filterMap SendCall.frame).flatten ∧
      (∀ call ∈ s.calls.take k, ∃ bytes,
        call.frame = some bytes ∧ call.message.IsFrame compress bytes) ∧
      ∀ call ∈ s.calls.drop k, call.frame = none := by
  -- a call that gave a frame to the socket had its turn after those before it
  have hfirst : ∀ (i j : Nat) (first second : SendCall), i < j → s.calls[i]? = some first →
      s.calls[j]? = some second → second.frame ≠ none → first.frame ≠ none := by
    intro i j first second hij hfirst hsecond hframe
    exact h.given i first hfirst (h.turn i j first second hij hfirst hsecond (.inl hframe))
  obtain ⟨k, hle, htake, hdrop⟩ := Math.exists_take_drop hfirst
  have hrest : ∀ call ∈ s.calls.drop k, call.frame = none :=
    fun call hmem => not_not.mp (hdrop call hmem)
  refine ⟨k, hle, ?_, ?_, hrest⟩
  · have hnil : (s.calls.drop k).filterMap SendCall.frame = [] :=
      List.filterMap_eq_nil_iff.mpr hrest
    calc s.written
      _ = ((s.calls.take k ++ s.calls.drop k).filterMap SendCall.frame).flatten := by
        rw [List.take_append_drop]
        exact h.written
      _ = ((s.calls.take k).filterMap SendCall.frame).flatten := by
        rw [List.filterMap_append, hnil, List.append_nil]
  · intro call hmem
    obtain ⟨bytes, hbytes⟩ := Option.ne_none_iff_exists'.mp (htake call hmem)
    obtain ⟨n, hn⟩ := List.mem_iff_getElem?.mp (List.mem_of_mem_take hmem)
    exact ⟨bytes, hbytes, h.frames n call bytes hn hbytes⟩

/-- Behind a call that is not sent nothing had its turn. -/
theorem Chained.behind (h : s.Chained compress) {first second : SendCall} (hij : i < j)
    (hfirst : s.calls[i]? = some first) (hsecond : s.calls[j]? = some second)
    (hsent : first.status ≠ .sent) :
    second.frame = none ∧ (second.status = .queued ∨ ∃ ex, second.status = .failed ex) := by
  have hnot : ¬ second.HadTurn := fun hhad =>
    hsent (h.turn i j first second hij hfirst hsecond hhad)
  rw [SendCall.HadTurn, not_or] at hnot
  refine ⟨not_not.mp hnot.1, ?_⟩
  by_contra hstatus
  rw [not_or, not_exists] at hstatus
  exact hnot.2 hstatus

/-- Along every run the sends of a connection are serialised. -/
theorem serialised_of_reachable [DecidableEq ω] [DecidableEq μ]
    (hreach : (system compress maxStreams maxPendingMessages).Reachable s) :
    s.Serialised compress := by
  have h := chained_of_reachable hreach
  constructor
  · exact fun i j first second hfirst hsecond hi hj => h.oneAtATime hfirst hsecond hi hj
  · intro k call hcall hwriting
    refine ⟨h.buffer k call hcall hwriting, fun event t hstep => ?_⟩
    exact h.buffer_kept hcall hwriting (stepTo hstep)
  · exact h.written_eq
  · intro i j first second ex hij hfirst hsecond hfails
    apply h.behind hij hfirst hsecond
    rcases hfails with hstatus | hstatus <;> rw [hstatus] <;> exact SendStatus.noConfusion
  · intro i call ex hcall hthrowing
    obtain ⟨message, status, frame⟩ := call
    obtain rfl : status = .throwing ex := hthrowing
    refine ⟨s.handleException i ⟨message, .throwing ex, frame⟩ ex, ?_, ?_, rfl⟩
    · simp only [step, hcall]
    · exact List.getElem?_set_self (List.getElem?_eq_some_iff.mp hcall).1
  · intro i first second ex hfirst hsecond hfailed hqueued
    obtain ⟨message, status, frame⟩ := second
    obtain rfl : status = .queued := hqueued
    have hprevious : s.previous (i + 1) = some (.failed ex) := by
      rw [previous, hfirst, ← hfailed]
      rfl
    refine ⟨s.handleException (i + 1) ⟨message, .queued, frame⟩ ex, ?_, ?_, rfl⟩
    · simp only [step, hsecond, resume, hprevious]
    · exact List.getElem?_set_self (List.getElem?_eq_some_iff.mp hsecond).1

/-- Three calls, the second of which fails to flush: the third fails with it. -/
theorem serialised_run :
    ∃ s : SendSide Nat Nat, (system (fun bytes => (bytes, none)) 4 4).Reachable s ∧
      s.Serialised (fun bytes => (bytes, none)) := by
  let message : RequestMessage := ⟨0, 0, 7, ([1, 2], none)⟩
  let events : List (Event Nat Nat) :=
    [.sendMessage message (.create 1 0), .resume 0, .sendMessage message (.create 2 0),
      .putDone 0, .sendMessage message (.create 3 0), .flushDone 0, .resume 1,
      .writeFailed 1 ⟨.network, "broken pipe"⟩, .handleException 1, .resume 2]
  have hsome : ((system (fun bytes => (bytes, none)) 4 4).run
      (create 4 4 : SendSide Nat Nat) events).isSome := by decide
  obtain ⟨s, hs⟩ := Option.isSome_iff_exists.mp hsome
  have hreach := Math.TransitionSystem.reachable_of_run rfl hs
  exact ⟨s, hreach, serialised_of_reachable hreach⟩

end SendSide

end CqlDriver
