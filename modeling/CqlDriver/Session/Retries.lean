import CqlDriver.Math.Transition
import CqlDriver.Session.SessionCall

/-!
# The retries of a session call

However the attempts of a call end, it makes no more of them than its command allows,
stops where it has to, and resolves with the outcome of its last attempt. The retries
that are left and the attempts that were made are bounded together: an attempt that is
followed by another one costs one retry, and only the first UnPreparedQuery of a call
adds one.

## Main definitions

* `SessionCall.calls` — the runs of the calls with a number of retries
* `AttemptEnd.Stops` — the ends after which there is no other attempt
* `SessionCall.RetryContract` — what holds of a call whatever its attempts meet

## Main results

* `SessionCall.retryContract` — every call keeps the contract and comes to its end after
  a bounded number of tasks
-/

namespace CqlDriver

/-! ## What stops a call -/

namespace AttemptEnd

/-- The attempt ended with an UnPreparedQuery error. -/
def IsUnPrepared : AttemptEnd → Prop
  | .errorMessage errorCode _ => errorCode = ErrorCode.unPreparedQuery
  | .success | .exception _ | .unexpected _ => False

/-- After an attempt that ended so, with these attempts before it, there is no other one. -/
def Stops (before : List AttemptEnd) : AttemptEnd → Prop
  | .success => True
  | .exception _ => False
  | .errorMessage errorCode _ =>
    0x2000 ≤ errorCode ∧ errorCode < 0x3000 ∧
      ¬(errorCode = ErrorCode.unPreparedQuery ∧ ∀ attempt ∈ before, ¬ attempt.IsUnPrepared)
  | .unexpected _ => True

/-- No attempt of a history stops the call. -/
def NoneStops (ended : List AttemptEnd) : Prop :=
  ∀ before attempt after, ended = before ++ attempt :: after → ¬ Stops before attempt

theorem noneStops_nil : NoneStops [] := by
  intro before attempt after h
  exact absurd h.symm (List.append_ne_nil_of_right_ne_nil _ (List.cons_ne_nil _ _))

theorem NoneStops.concat {ended : List AttemptEnd} {attempt : AttemptEnd} (h : NoneStops ended)
    (hlast : ¬ Stops ended attempt) : NoneStops (ended ++ [attempt]) := by
  intro before other after heq
  rcases List.eq_nil_or_concat after with rfl | ⟨front, last, rfl⟩
  · obtain ⟨rfl, hother⟩ := List.append_inj' heq rfl
    cases hother
    exact hlast
  · rw [List.concat_eq_append, ← List.cons_append, ← List.append_assoc] at heq
    exact h before other front (List.append_inj' heq rfl).1

end AttemptEnd

/-! ## The phases -/

namespace CallPhase

/-- An attempt was started and has not ended. -/
def IsRunning : CallPhase → Prop
  | .connecting | .preparing | .prepareSending _ | .prepareWaiting _ _ | .sending | .waiting => True
  | .starting | .finishing _ | .resolved _ => False

/-- The next attempt is to come and has not started. -/
def IsBetween : CallPhase → Prop
  | .starting | .finishing none => True
  | .connecting | .preparing | .prepareSending _ | .prepareWaiting _ _ | .sending | .waiting
  | .finishing (some _) | .resolved _ => False

/-- What the call will be resolved with, once that is certain. -/
def outcome : CallPhase → Option (Except CallError Unit)
  | .finishing next => next
  | .resolved result => some result
  | .starting | .connecting | .preparing | .prepareSending _ | .prepareWaiting _ _ | .sending
  | .waiting => none

variable {phase : CallPhase}

theorem IsOpen.isRunning (h : phase.IsOpen) : phase.IsRunning := by
  cases phase with
  | starting | connecting | finishing | resolved => exact h.elim
  | preparing | prepareSending | prepareWaiting | sending | waiting => trivial

theorem IsRunning.outcome_eq (h : phase.IsRunning) : phase.outcome = none := by
  cases phase with
  | starting | finishing | resolved => exact h.elim
  | connecting | preparing | prepareSending | prepareWaiting | sending | waiting => rfl

theorem IsRunning.not_isBetween (h : phase.IsRunning) : ¬ phase.IsBetween := by
  cases phase with
  | starting | finishing | resolved => exact h.elim
  | connecting | preparing | prepareSending | prepareWaiting | sending | waiting =>
    exact fun h => h

end CallPhase

namespace SessionCall

open AttemptEnd

variable {κ : Type} {maxRetries : Nat} {c d : SessionCall κ}

/-! ## The contract -/

/-- A call of one of the three functions for a valid command with this number of retries. -/
inductive IsCall (maxRetries : Nat) : SessionCall κ → Prop
  | query (prepareAllQueries : Bool) (query : Query) :
      IsCall maxRetries (Session.query prepareAllQueries (some (query, maxRetries)))
  | execute (prepareAllQueries : Bool) (query : Query) :
      IsCall maxRetries (Session.execute prepareAllQueries (some (query, maxRetries)))
  | batchExecute (prepareAllQueries : Bool) (queries : List Query) :
      IsCall maxRetries (Session.batchExecute prepareAllQueries (some ⟨queries, maxRetries⟩))

/-- The runs of the calls with this number of retries. Every step of every attempt may
have any outcome. -/
def calls (κ : Type) (maxRetries : Nat) : Math.TransitionSystem (SessionCall κ) (Event κ) where
  start := IsCall maxRetries
  step c event := (c.step event).map Prod.fst

/-- What holds of a call whatever its attempts meet. -/
structure RetryContract (maxRetries : Nat) (c : SessionCall κ) : Prop where
  attempts_le : c.attempts ≤ maxRetries + 2
  /-- The last of these attempts is only made after an UnPreparedQuery. -/
  attempts_le_of_prepared : (∀ attempt ∈ c.ended, ¬ attempt.IsUnPrepared) →
    c.attempts ≤ maxRetries + 1
  /-- No attempt is made after one that stops the call. -/
  stops : ∀ before attempt after, c.ended = before ++ attempt :: after → Stops before attempt →
    after = [] ∧ c.attempts = before.length + 1
  /-- The call resolves with the outcome of its last attempt. An empty batch has none. -/
  resolves : ∀ result, c.phase = .resolved result →
    c.ended.length = c.attempts ∧ (c.ended.getLast?.map AttemptEnd.result).getD (.ok ()) = result
  no_retry : c.phase ≠ .resolved (.error .retry)
  /-- An error response that reaches the caller keeps its code. -/
  errorCode : ∀ code ex, .errorMessage code ex ∈ c.ended → ex ≠ .retry →
    ∃ errorMessage label queries, ex = .responseError code errorMessage label queries

/-! ## The invariant -/

/-- What is certain about the result of a call, with the history behind it. -/
def Concluded (c : SessionCall κ) (result : Except CallError Unit) : Prop :=
  (c.ended = [] ∧ result = .ok ()) ∨
    ∃ before last, c.ended = before ++ [last] ∧ NoneStops before ∧ result = last.result ∧
      result ≠ .error .retry

/-- The attempts that were made and those that may follow, within the limit. -/
structure WithinRetries (maxRetries : Nat) (c : SessionCall κ) : Prop where
  count_le : c.retryFlow.unPreparedErrorCount ≤ 1
  count_eq : c.retryFlow.unPreparedErrorCount = 0 ↔ ∀ attempt ∈ c.ended, ¬ attempt.IsUnPrepared
  running : c.phase.IsRunning → c.attempts = c.ended.length + 1
  notRunning : ¬ c.phase.IsRunning → c.attempts = c.ended.length
  budget : c.attempts + c.retryFlow.budget ≤ maxRetries + 2
  /-- Between two attempts one more of them is still paid for. -/
  between : c.phase.IsBetween → c.attempts + c.retryFlow.budget ≤ maxRetries + 1
  goesOn : c.phase.outcome = none → NoneStops c.ended
  concluded : ∀ result, c.phase.outcome = some result → c.Concluded result
  resultSet : c.kind = .query → c.phase.outcome = some (.ok ()) → c.result ≠ none
  errorCode : ∀ code ex, .errorMessage code ex ∈ c.ended → ex ≠ .retry →
    ∃ errorMessage label queries, ex = .responseError code errorMessage label queries
  fits : c.Fits

/-- What a handler makes of the budget, as far as the retries depend on it. -/
structure Handles (c : SessionCall κ) (flow : RetryFlow) (attempt : AttemptEnd)
    (ex : CallError) : Prop where
  result : attempt.result = .error ex
  count_le : flow.unPreparedErrorCount ≤ 1
  count_eq : flow.unPreparedErrorCount = 0 ↔
    c.retryFlow.unPreparedErrorCount = 0 ∧ ¬ attempt.IsUnPrepared
  budget : flow.budget ≤ c.retryFlow.budget
  stops : Stops c.ended attempt → flow.maxRetries = 0
  no_retry : flow.maxRetries = 0 → ex ≠ .retry
  errorCode : ∀ code thrown, attempt = .errorMessage code thrown → thrown ≠ .retry →
    ∃ errorMessage label queries, thrown = .responseError code errorMessage label queries

theorem handles_exception (h : c.WithinRetries maxRetries) (ex : Exception) :
    c.Handles c.retryFlow (.exception ex) (.exception ex) where
  result := rfl
  count_le := h.count_le
  count_eq := (and_iff_left (fun h => h)).symm
  budget := le_rfl
  stops := fun h => h.elim
  no_retry := fun _ => CallError.noConfusion
  errorCode := fun _ _ h => by cases h

theorem handles_unexpected (h : c.WithinRetries maxRetries) {ex : CallError} (hex : ex ≠ .retry) :
    c.Handles c.retryFlow.handleUnexpected (.unexpected ex) ex where
  result := rfl
  count_le := h.count_le
  count_eq := (and_iff_left (fun h => h)).symm
  budget := Nat.add_le_add_right (Nat.zero_le _) _
  stops := fun _ => rfl
  no_retry := fun _ => hex
  errorCode := fun _ _ h => by cases h

theorem handles_errorMessage (hmax : maxRetries + 1 < 2 ^ 64) (h : c.WithinRetries maxRetries)
    (hrunning : c.phase.IsRunning) {errorCode : Int} {errorMessage queries : Bytes}
    {label : String} {ex : CallError}
    (hex : ex = (c.retryFlow.handleErrorMessage errorCode).errorMessageException errorCode
      errorMessage label queries) :
    c.Handles (c.retryFlow.handleErrorMessage errorCode) (.errorMessage errorCode ex) ex where
  result := rfl
  count_le := RetryFlow.handleErrorMessage_count_le h.count_le
  count_eq := by
    by_cases hevicts : c.retryFlow.Evicts errorCode
    · rw [RetryFlow.handleErrorMessage, if_pos hevicts]
      simp [IsUnPrepared, hevicts.1]
    · have hsame : (c.retryFlow.handleErrorMessage errorCode).unPreparedErrorCount =
          c.retryFlow.unPreparedErrorCount := by
        rw [RetryFlow.handleErrorMessage, if_neg hevicts]
        split
        · rfl
        · rfl
      rw [hsame]
      refine ⟨fun hzero => ⟨hzero, fun hcode => hevicts ⟨hcode, hzero⟩⟩, fun hboth => hboth.1⟩
  budget := by
    refine RetryFlow.handleErrorMessage_budget fun hevicts => ?_
    -- the attempt that runs has been paid for, so the budget is below the limit by one
    have hattempts := h.running hrunning
    have hbudget := h.budget
    rw [RetryFlow.budget, hevicts.2] at hbudget
    omega
  stops := by
    rintro ⟨hbegin, hend, hnotFirst⟩
    have hevicts : ¬ c.retryFlow.Evicts errorCode :=
      fun hevicts => hnotFirst ⟨hevicts.1, h.count_eq.mp hevicts.2⟩
    rw [RetryFlow.handleErrorMessage_user hevicts hbegin hend]
    rfl
  no_retry := by
    intro hzero
    rw [hex, RetryFlow.errorMessageException_ne_retry hzero]
    exact CallError.noConfusion
  errorCode := by
    rintro code thrown heq hne
    cases heq
    rw [hex, RetryFlow.errorMessageException] at hne ⊢
    split at hne
    · exact absurd rfl hne
    next hzero =>
      rw [if_neg hzero]
      exact ⟨_, _, _, rfl⟩

/-! ## One step -/

theorem forall_concat {P : AttemptEnd → Prop} {ended : List AttemptEnd} {attempt : AttemptEnd} :
    (∀ a ∈ ended ++ [attempt], P a) ↔ (∀ a ∈ ended, P a) ∧ P attempt := by
  simp [or_imp, forall_and]

/-- An attempt that ends with an exception is followed by another one that was paid for,
or is the last one. -/
theorem WithinRetries.endsWith {flow : RetryFlow} {attempt : AttemptEnd} {ex : CallError}
    (h : c.WithinRetries maxRetries) (hrunning : c.phase.IsRunning)
    (hhandles : c.Handles flow attempt ex) (hends : EndsWith c flow attempt ex d) :
    d.WithinRetries maxRetries := by
  have hgoesOn := h.goesOn hrunning.outcome_eq
  have hattempts := h.running hrunning
  have hlength : d.attempts = d.ended.length := by
    rw [hends.attempts, hends.ended, hattempts, List.length_append, List.length_singleton]
  have hcodes : ∀ code thrown, .errorMessage code thrown ∈ d.ended → thrown ≠ .retry →
      ∃ errorMessage label queries, thrown = .responseError code errorMessage label queries := by
    intro code thrown hmem hne
    rw [hends.ended] at hmem
    rcases List.mem_append.mp hmem with hbefore | hlast
    · exact h.errorCode code thrown hbefore hne
    · exact hhandles.errorCode code thrown (List.mem_singleton.mp hlast).symm hne
  have hfits : d.Fits := by
    rw [Fits, hends.prepareIndexes, hends.queries]
    exact h.fits
  have hcount : flow.unPreparedErrorCount = 0 ↔ ∀ a ∈ d.ended, ¬ a.IsUnPrepared := by
    rw [hends.ended, forall_concat, hhandles.count_eq, h.count_eq]
  have hbudget := h.budget
  have hflow := hhandles.budget
  cases hdet : flow.determinate ex with | mk next thrown =>
  have hflow' : d.retryFlow = next := by rw [hends.retryFlow, hdet]
  cases thrown with
  | none =>
    -- there is another attempt, and the retry that pays for it is taken off
    obtain ⟨hpaid, hsame⟩ := RetryFlow.determinate_budget hdet
    have hpos : flow.maxRetries ≠ 0 := by
      intro hzero
      rw [RetryFlow.determinate, if_neg (by omega)] at hdet
      cases hdet
    have hphase : d.phase = .finishing none := by rw [hends.phase, hdet]; rfl
    have hless : d.attempts + d.retryFlow.budget ≤ maxRetries + 1 := by
      rw [hends.attempts, hflow']
      omega
    constructor
    · rw [hflow', hsame]; exact hhandles.count_le
    · rw [hflow', hsame]; exact hcount
    · rw [hphase]; exact fun h => h.elim
    · exact fun _ => hlength
    · exact hless.trans (Nat.le_succ _)
    · exact fun _ => hless
    · intro _
      rw [hends.ended]
      exact hgoesOn.concat fun hstops => hpos (hhandles.stops hstops)
    · rw [hphase]; intro result h; cases h
    · rw [hphase]; intro _ h; cases h
    · exact hcodes
    · exact hfits
  | some thrown =>
    obtain ⟨rfl, rfl, hzero⟩ := RetryFlow.determinate_stops hdet
    have hphase : d.phase = .finishing (some (.error thrown)) := by rw [hends.phase, hdet]; rfl
    constructor
    · rw [hflow']; exact hhandles.count_le
    · rw [hflow']; exact hcount
    · rw [hphase]; exact fun h => h.elim
    · exact fun _ => hlength
    · rw [hends.attempts, hflow']
      exact (Nat.add_le_add_left hflow _).trans hbudget
    · rw [hphase]; exact fun h => h.elim
    · rw [hphase]; intro h; cases h
    · rw [hphase]
      intro result h
      cases h
      refine .inr ⟨c.ended, attempt, hends.ended, hgoesOn, hhandles.result.symm, ?_⟩
      exact fun h => hhandles.no_retry hzero (Except.error.inj h)
    · rw [hphase]; intro _ h; cases h
    · exact hcodes
    · exact hfits

theorem WithinRetries.succeeds (h : c.WithinRetries maxRetries) (hrunning : c.phase.IsRunning)
    (hsame : SameAttempt c d) (hflow : d.retryFlow = c.retryFlow)
    (hphase : d.phase = .finishing (some (.ok ()))) (hended : d.ended = c.ended ++ [.success])
    (hindexes : d.prepareIndexes = c.prepareIndexes)
    (hresult : d.kind = .query → d.result ≠ none) : d.WithinRetries maxRetries := by
  have hlength : d.attempts = d.ended.length := by
    rw [hsame.attempts, hended, h.running hrunning, List.length_append, List.length_singleton]
  constructor
  · rw [hflow]; exact h.count_le
  · rw [hflow, hended, forall_concat, h.count_eq]
    exact (and_iff_left (fun h => h)).symm
  · rw [hphase]; exact fun h => h.elim
  · exact fun _ => hlength
  · rw [hsame.attempts, hflow]; exact h.budget
  · rw [hphase]; exact fun h => h.elim
  · rw [hphase]; intro h; cases h
  · rw [hphase]
    intro result hresult
    cases hresult
    exact .inr ⟨c.ended, .success, hended, h.goesOn hrunning.outcome_eq, rfl, fun h => by cases h⟩
  · exact fun hquery _ => hresult hquery
  · intro code ex hmem
    rw [hended] at hmem
    rcases List.mem_append.mp hmem with hbefore | hlast
    · exact h.errorCode code ex hbefore
    · cases List.mem_singleton.mp hlast
  · rw [Fits, hindexes, hsame.queries]
    exact h.fits

/-- Steps that end no attempt and start none. -/
theorem WithinRetries.move (h : c.WithinRetries maxRetries) (hflow : d.retryFlow = c.retryFlow)
    (hended : d.ended = c.ended) (hattempts : d.attempts = c.attempts)
    (hrunning : d.phase.IsRunning ↔ c.phase.IsRunning)
    (hbetween : d.phase.IsBetween → c.phase.IsBetween)
    (houtcome : d.phase.outcome = c.phase.outcome)
    (hresult : d.kind = .query → d.phase.outcome = some (.ok ()) → d.result ≠ none)
    (hfits : d.Fits) : d.WithinRetries maxRetries := by
  constructor
  · rw [hflow]; exact h.count_le
  · rw [hflow, hended]; exact h.count_eq
  · rw [hrunning, hattempts, hended]; exact h.running
  · rw [hrunning, hattempts, hended]; exact h.notRunning
  · rw [hattempts, hflow]; exact h.budget
  · rw [hattempts, hflow]; exact fun hd => h.between (hbetween hd)
  · rw [houtcome, hended]; exact h.goesOn
  · intro result hd
    have hc := h.concluded result (houtcome ▸ hd)
    rwa [Concluded, ← hended] at hc
  · exact hresult
  · rw [hended]; exact h.errorCode
  · exact hfits

/-- The assertion at the end of `query` holds. -/
theorem WithinRetries.resolve_eq (h : c.WithinRetries maxRetries)
    {result : Except CallError Unit} (hphase : c.phase = .finishing (some result)) :
    c.resolve result = result := by
  cases result with
  | error ex => rfl
  | ok done =>
    have hresult := fun hquery => h.resultSet hquery (by rw [hphase]; rfl)
    rw [resolve]
    split
    next hquery hnone => exact absurd hnone (hresult hquery)
    · rfl

/-- The end of an attempt leaves what is certain about the result. -/
theorem WithinRetries.nextPhase (h : c.WithinRetries maxRetries)
    {next : Option (Except CallError Unit)} (hphase : c.phase = .finishing next) :
    (c.nextPhase next).outcome = c.phase.outcome ∧ ¬ (c.nextPhase next).IsRunning ∧
      ¬ c.phase.IsRunning ∧ ((c.nextPhase next).IsBetween → c.phase.IsBetween) := by
  rw [hphase]
  cases next with
  | none => exact ⟨rfl, fun h => h, fun h => h, fun h => h⟩
  | some result =>
    rw [SessionCall.nextPhase, h.resolve_eq hphase]
    exact ⟨rfl, fun h => h, fun h => h, fun h => h⟩

/-- A step stays within the retries. -/
theorem WithinRetries.step (hmax : maxRetries + 1 < 2 ^ 64) (h : c.WithinRetries maxRetries)
    (hstep : c.StepTo d) : d.WithinRetries maxRetries := by
  cases hstep with
  | started hphase =>
    have hlength := h.notRunning (by rw [hphase]; exact fun h => h)
    have hpaid := h.between (by rw [hphase]; trivial)
    refine ⟨h.count_le, h.count_eq, ?_, ?_, ?_, ?_, ?_, ?_, ?_, h.errorCode, h.fits⟩
    · exact fun _ => congrArg (· + 1) hlength
    · exact fun hnot => absurd trivial hnot
    · show c.attempts + 1 + c.retryFlow.budget ≤ _
      omega
    · exact fun h => h.elim
    · exact fun _ => h.goesOn (by rw [hphase]; rfl)
    · intro result h
      cases h
    · intro _ h
      cases h
  | connected hphase =>
    have hrunning : c.phase.IsRunning := by rw [hphase]; trivial
    exact h.move rfl rfl rfl (iff_of_true trivial hrunning) (fun h => h.elim)
      hrunning.outcome_eq.symm (fun _ h => by cases h) h.fits
  | goesOn hopen hgoes =>
    have hrunning := hopen.isRunning
    have hstill := hgoes.isOpen.isRunning
    refine h.move hgoes.retryFlow hgoes.ended hgoes.attempts (iff_of_true hstill hrunning)
      (fun hbetween => absurd hbetween hstill.not_isBetween)
      (hstill.outcome_eq.trans hrunning.outcome_eq.symm) ?_ (hgoes.fits h.fits).1
    intro _ hsome
    rw [hstill.outcome_eq] at hsome
    cases hsome
  | ends hopen hends =>
    have hrunning := hopen.isRunning
    cases hends with
    | exception hends => exact h.endsWith hrunning (handles_exception h _) hends
    | errorMessage hex hends =>
      exact h.endsWith hrunning (handles_errorMessage hmax h hrunning hex) hends
    | unexpected hex hends => exact h.endsWith hrunning (handles_unexpected h hex) hends
    | success hsame hflow hphase hended hindexes hresult =>
      exact h.succeeds hrunning hsame hflow hphase hended hindexes hresult
  | @notConnected ex hphase =>
    have hrunning : c.phase.IsRunning := by rw [hphase]; trivial
    exact h.endsWith hrunning (handles_exception h ex)
      ⟨⟨rfl, rfl, rfl, rfl, rfl, rfl, rfl⟩, rfl, rfl, rfl, rfl⟩
  | returned hphase =>
    obtain ⟨houtcome, hnot, hwas, hbetween⟩ := h.nextPhase hphase
    refine h.move rfl rfl rfl (iff_of_false hnot hwas) hbetween houtcome ?_ h.fits
    intro hquery hsome
    exact h.resultSet hquery (houtcome ▸ hsome)
  | nothingToReturn hphase =>
    obtain ⟨houtcome, hnot, hwas, hbetween⟩ := h.nextPhase hphase
    refine h.move rfl rfl rfl (iff_of_false hnot hwas) hbetween houtcome ?_ h.fits
    intro hquery hsome
    exact h.resultSet hquery (houtcome ▸ hsome)

/-! ## Whole calls -/

theorem withinRetries_call {kind : CallKind} {prepareAllQueries : Bool} {command : CommandData}
    (hqueries : kind = .query → command.queries ≠ []) :
    (Session.call kind prepareAllQueries (some command) : SessionCall κ).WithinRetries
      command.maxRetries := by
  by_cases hempty : command.queries = []
  · have hphase : (Session.call kind prepareAllQueries (some command) : SessionCall κ).phase =
        .resolved (.ok ()) := if_pos hempty
    refine ⟨Nat.zero_le _, by simp [Session.call, Session.start, RetryFlow.create], ?_,
      fun _ => rfl, ?_, ?_, ?_, ?_, fun hquery => absurd hempty (hqueries hquery),
      fun _ _ hmem => (by cases hmem), Nat.zero_le _⟩
    · rw [hphase]; exact fun h => h.elim
    · show 0 + (command.maxRetries + 1) ≤ _
      omega
    · rw [hphase]; exact fun h => h.elim
    · rw [hphase]; intro h; cases h
    · rw [hphase]
      intro result h
      cases h
      exact .inl ⟨rfl, rfl⟩
  · have hphase : (Session.call kind prepareAllQueries (some command) : SessionCall κ).phase =
        .starting := if_neg hempty
    refine ⟨Nat.zero_le _, by simp [Session.call, Session.start, RetryFlow.create], ?_,
      fun _ => rfl, ?_, ?_, fun _ => noneStops_nil, ?_, ?_, fun _ _ hmem => (by cases hmem),
      Nat.zero_le _⟩
    · rw [hphase]; exact fun h => h.elim
    · show 0 + (command.maxRetries + 1) ≤ _
      omega
    · show _ → 0 + (command.maxRetries + 1) ≤ _
      omega
    · rw [hphase]; intro result h; cases h
    · rw [hphase]; intro _ h; cases h

theorem IsCall.withinRetries (h : c.IsCall maxRetries) : c.WithinRetries maxRetries := by
  cases h with
  | query prepareAllQueries query =>
    exact @withinRetries_call _ _ _ ⟨[query], maxRetries⟩ fun _ => List.cons_ne_nil _ _
  | execute prepareAllQueries query =>
    exact @withinRetries_call _ _ _ ⟨[query], maxRetries⟩ fun h => by cases h
  | batchExecute prepareAllQueries queries =>
    exact @withinRetries_call _ _ _ ⟨queries, maxRetries⟩ fun h => by cases h

theorem stepTo_of_calls {event : Event κ} (h : (calls κ maxRetries).step c event = some d) :
    c.StepTo d := by
  obtain ⟨⟨e, writes⟩, hstep, rfl⟩ := Option.map_eq_some_iff.mp h
  exact stepTo hstep

theorem withinRetries_of_reachable (hmax : maxRetries + 1 < 2 ^ 64)
    (h : (calls κ maxRetries).Reachable c) : c.WithinRetries maxRetries :=
  Math.TransitionSystem.Reachable.invariant (WithinRetries maxRetries)
    (fun _ hcall => IsCall.withinRetries hcall)
    (fun _ _ _ hc hstep => hc.step hmax (stepTo_of_calls hstep)) h

theorem retryContract_of_reachable (hmax : maxRetries + 1 < 2 ^ 64) (h : (calls κ maxRetries).Reachable c) :
    c.RetryContract maxRetries := by
  have hinv := withinRetries_of_reachable hmax h
  have hended : ∀ result, c.phase.outcome = some result → c.attempts = c.ended.length := by
    intro result hsome
    refine hinv.notRunning fun hrunning => ?_
    rw [hrunning.outcome_eq] at hsome
    cases hsome
  constructor
  · exact (Nat.le_add_right _ _).trans hinv.budget
  · intro hprepared
    have hbudget := hinv.budget
    rw [RetryFlow.budget, hinv.count_eq.mpr hprepared] at hbudget
    omega
  · intro before attempt after heq hstops
    cases houtcome : c.phase.outcome with
    | none => exact absurd hstops (hinv.goesOn houtcome before attempt after heq)
    | some result =>
      have hafter : after = [] := by
        rcases hinv.concluded result houtcome with ⟨hnil, -⟩ | ⟨front, last, hlast, hnone, -⟩
        · exact absurd (heq.symm.trans hnil) (by simp)
        · rcases List.eq_nil_or_concat after with rfl | ⟨rest, other, rfl⟩
          · rfl
          · -- an attempt with another one behind it is among those that do not stop
            rw [List.concat_eq_append, ← List.cons_append, ← List.append_assoc, hlast] at heq
            exact absurd hstops (hnone before attempt rest (List.append_inj' heq rfl).1)
      subst hafter
      refine ⟨rfl, ?_⟩
      rw [hended result houtcome, heq, List.length_append, List.length_singleton]
  · intro result hphase
    have houtcome : c.phase.outcome = some result := by rw [hphase]; rfl
    refine ⟨(hended result houtcome).symm, ?_⟩
    rcases hinv.concluded result houtcome with ⟨hnil, rfl⟩ | ⟨front, last, hlast, -, rfl, -⟩
    · rw [hnil]
      rfl
    · simp [hlast]
  · intro hphase
    rcases hinv.concluded (.error .retry) (by rw [hphase]; rfl) with ⟨-, hok⟩ | ⟨_, _, _, _, _, hne⟩
    · cases hok
    · exact hne rfl
  · exact hinv.errorCode

/-! ## The end of a call -/

/-- The tasks that a call may still need: for each attempt that may follow, and for the
one it is in. -/
def remainingTasks (c : SessionCall κ) : Nat :=
  c.retryFlow.budget * (2 * c.queries.length + 8) + c.rank

theorem remainingTasks_lt_of_endsWith {flow : RetryFlow} {attempt : AttemptEnd} {ex : CallError}
    (hbudget : flow.budget ≤ c.retryFlow.budget) (hrank : 1 < c.rank)
    (hends : EndsWith c flow attempt ex d) : d.remainingTasks < c.remainingTasks := by
  rw [remainingTasks, remainingTasks, hends.queries, hends.retryFlow]
  cases hdet : flow.determinate ex with | mk next thrown =>
  cases thrown with
  | none =>
    obtain ⟨hpaid, -⟩ := RetryFlow.determinate_budget hdet
    have hrankd : d.rank = 2 * c.queries.length + 8 := by
      rw [rank, hends.phase, hdet, hends.queries]
      rfl
    calc next.budget * (2 * c.queries.length + 8) + d.rank
        = (next.budget + 1) * (2 * c.queries.length + 8) := by
          rw [hrankd]
          exact (Nat.add_one_mul _ _).symm
      _ ≤ c.retryFlow.budget * (2 * c.queries.length + 8) :=
          Nat.mul_le_mul_right _ (hpaid.trans_le hbudget)
      _ < c.retryFlow.budget * (2 * c.queries.length + 8) + c.rank :=
          Nat.lt_add_of_pos_right (Nat.zero_lt_of_lt hrank)
  | some thrown =>
    obtain ⟨rfl, rfl, -⟩ := RetryFlow.determinate_stops hdet
    have hrankd : d.rank = 1 := by
      rw [rank, hends.phase, hdet]
      rfl
    rw [hrankd]
    exact Nat.add_lt_add_of_le_of_lt (Nat.mul_le_mul_right _ hbudget) hrank

theorem one_lt_rank (h : c.phase.IsRunning) : 1 < c.rank := by
  rw [rank]
  cases hphase : c.phase with
  | starting | finishing | resolved => rw [hphase] at h; exact h.elim
  | connecting | preparing | prepareSending | prepareWaiting | sending | waiting => simp only; omega

/-- Every step leaves fewer tasks. -/
theorem remainingTasks_lt (hmax : maxRetries + 1 < 2 ^ 64) (h : c.WithinRetries maxRetries)
    (hstep : c.StepTo d) : d.remainingTasks < c.remainingTasks := by
  have hgoing : ∀ {next}, c.phase = .finishing next → (c.nextPhase next) = .starting ∧
      c.rank = 2 * c.queries.length + 8 ∨ (∃ r, c.nextPhase next = .resolved r) ∧ c.rank = 1 := by
    intro next hphase
    rw [rank, hphase]
    cases next with
    | none => exact .inl ⟨rfl, rfl⟩
    | some result => exact .inr ⟨⟨_, rfl⟩, rfl⟩
  -- an attempt that is over is followed by the next one or by the result
  have hfinished : ∀ {next} {d : SessionCall κ}, c.phase = .finishing next →
      d.phase = c.nextPhase next → d.queries = c.queries → d.rank < c.rank := by
    intro next d hphase hd hqueries
    rcases hgoing hphase with ⟨hnext, hrank⟩ | ⟨⟨result, hnext⟩, hrank⟩
    · rw [hrank, rank, hd, hnext, hqueries]
      exact Nat.lt_succ_self _
    · rw [hrank, rank, hd, hnext]
      exact Nat.zero_lt_one
  cases hstep with
  | started hphase =>
    have hrank : c.rank = 2 * c.queries.length + 7 := by rw [rank, hphase]
    exact Nat.add_lt_add_left (hrank ▸ Nat.lt_succ_self _) _
  | connected hphase =>
    have hrank : c.rank = 2 * c.queries.length + 6 := by rw [rank, hphase]
    exact Nat.add_lt_add_left (hrank ▸ Nat.lt_succ_self _) _
  | goesOn hopen hgoes =>
    rw [remainingTasks, remainingTasks, hgoes.retryFlow, hgoes.queries]
    exact Nat.add_lt_add_left (hgoes.fits h.fits).2 _
  | ends hopen hends =>
    have hrank := one_lt_rank hopen.isRunning
    cases hends with
    | exception hends => exact remainingTasks_lt_of_endsWith le_rfl hrank hends
    | errorMessage hex hends =>
      have hhandles := handles_errorMessage hmax h hopen.isRunning hex
      exact remainingTasks_lt_of_endsWith hhandles.budget hrank hends
    | unexpected hex hends =>
      exact remainingTasks_lt_of_endsWith (handles_unexpected h hex).budget hrank hends
    | success hsame hflow hphase =>
      have hrankd : d.rank = 1 := by rw [rank, hphase]
      rw [remainingTasks, remainingTasks, hflow, hsame.queries, hrankd]
      exact Nat.add_lt_add_left hrank _
  | @notConnected ex hphase =>
    exact remainingTasks_lt_of_endsWith le_rfl (one_lt_rank (by rw [hphase]; trivial))
      ⟨⟨rfl, rfl, rfl, rfl, rfl, rfl, rfl⟩, rfl, rfl, rfl, rfl⟩
  | returned hphase =>
    refine Nat.add_lt_add_left ?_ _
    exact hfinished hphase rfl rfl
  | nothingToReturn hphase =>
    refine Nat.add_lt_add_left ?_ _
    exact hfinished hphase rfl rfl

theorem IsCall.remainingTasks_lt (h : c.IsCall maxRetries) :
    c.remainingTasks < (maxRetries + 2) * (2 * c.queries.length + 8) := by
  have hbudget : c.retryFlow.budget = maxRetries + 1 := by
    cases h with
    | query | execute | batchExecute => rfl
  have hrank : c.rank < 2 * c.queries.length + 8 := by
    cases h with
    | query | execute => exact Nat.lt_succ_self _
    | batchExecute prepareAllQueries queries =>
      by_cases hempty : queries = []
      · subst hempty
        exact Nat.zero_lt_succ _
      · have hphase : (Session.batchExecute prepareAllQueries (some ⟨queries, maxRetries⟩) :
            SessionCall κ).phase = .starting := if_neg hempty
        rw [rank, hphase]
        exact Nat.lt_succ_self _
  rw [remainingTasks, hbudget, show maxRetries + 2 = maxRetries + 1 + 1 from rfl,
    Nat.add_one_mul (maxRetries + 1)]
  exact Nat.add_lt_add_left hrank _

/-- A call comes to its end after a bounded number of tasks. -/
theorem run_length_lt (hmax : maxRetries + 1 < 2 ^ 64) (h : c.IsCall maxRetries)
    {events : List (Event κ)} (hrun : (calls κ maxRetries).run c events = some d) :
    events.length < (maxRetries + 2) * (2 * c.queries.length + 8) := by
  have hle := Math.TransitionSystem.length_add_measure_le remainingTasks
    (fun s a t hs hstep =>
      remainingTasks_lt hmax (withinRetries_of_reachable hmax hs) (stepTo_of_calls hstep))
    (.of_start h) hrun
  exact (Nat.le_of_add_right_le hle).trans_lt h.remainingTasks_lt

/-- Whatever happens in the attempts of a call, it keeps the contract, and its tasks are
bounded. -/
theorem retryContract (hmax : maxRetries + 1 < 2 ^ 64) (h : c.IsCall maxRetries)
    {events : List (Event κ)} (hrun : (calls κ maxRetries).run c events = some d) :
    d.RetryContract maxRetries ∧
      events.length < (maxRetries + 2) * (2 * c.queries.length + 8) :=
  ⟨retryContract_of_reachable hmax (Math.TransitionSystem.reachable_of_run h hrun),
    run_length_lt hmax h hrun⟩

/-- A call without retries whose prepared id the server has forgotten: it is evicted,
prepared again, and then a syntax error ends the call. -/
theorem retryContract_run :
    ∃ d : SessionCall Nat, d.attempts = 2 ∧ d.phase = .resolved
        (.error (.responseError 0x2000 [0x45] ", query: " [0x51])) ∧ d.RetryContract 0 := by
  have hcall : (Session.execute true (some (⟨[0x51], none⟩, 0)) : SessionCall Nat).IsCall 0 :=
    .execute true ⟨[0x51], none⟩
  have hrun : ∃ d, (calls Nat 0).run (Session.execute true (some (⟨[0x51], none⟩, 0)))
      [.attempt, .connected 7 1, .prepare fun _ => [0x01], .sent,
        .received (.error 0x2500 []), .finished false,
        .attempt, .connected 7 2, .prepare fun _ => [], .sent,
        .received (.result 4 [0x02]), .sent, .received (.error 0x2000 [0x45]),
        .finished true] = some d ∧ d.attempts = 2 ∧ d.phase = .resolved
          (.error (.responseError 0x2000 [0x45] ", query: " [0x51])) := ⟨_, rfl, rfl, rfl⟩
  obtain ⟨d, hd, hattempts, hphase⟩ := hrun
  exact ⟨d, hattempts, hphase, (retryContract (by decide) hcall hd).1⟩

end SessionCall

end CqlDriver
