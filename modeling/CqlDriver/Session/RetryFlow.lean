import CqlDriver.Protocol.ResultMessage

/-!
# The retry budget of a session call

`RetryFlow` counts the retries that are left. Error responses and unexpected messages
are handled where they are received, in the prepare phase or in the execute phase, and
may change the budget there; whether the call is tried again is decided later, by
`determinate`.

## Main definitions

* `Answer` — a response as the session reads it
* `CallError` — what a session call fails with
* `RetryFlow.handleErrorMessage`, `RetryFlow.handleUnexpected`, `RetryFlow.determinate`

## Main results

* `RetryFlow.handleErrorMessage_budget`, `RetryFlow.determinate_budget` — an attempt
  that is followed by another one costs one retry
-/

namespace CqlDriver

/-- The code for which a prepared query is evicted and prepared again. -/
def ErrorCode.unPreparedQuery : Int := 0x2500

/-- A response message as the session reads it. -/
inductive Answer
  | result (kind : Int) (preparedQueryId : Bytes)
  | error (errorCode : Int) (errorMessage : Bytes)
  | other (opCode : Nat)
  deriving DecidableEq, Repr

/-- What a step of a session call fails with. -/
inductive CallError
  /-- `RetryException`, only for retry. -/
  | retry
  /-- `ResponseErrorException` with the code, the message of the server, and the
  queries behind their label. -/
  | responseError (errorCode : Int) (errorMessage : Bytes) (label : String) (queries : Bytes)
  | exception (ex : Exception)
  deriving DecidableEq, Repr

/-- Used to control retry flow. -/
structure RetryFlow where
  /-- A `std::size_t`. -/
  maxRetries : Nat
  unPreparedErrorCount : Nat
  deriving DecidableEq, Repr

namespace RetryFlow

/-- The constructor. -/
def create (maxRetries : Nat) : RetryFlow := ⟨maxRetries, 0⟩

def userErrorCodeBegin : Nat := 0x2000

def userErrorCodeEnd : Nat := 0x3000

/-- The value of an error code as a `std::size_t`. -/
def errorCodeValue (errorCode : Int) : Nat := (errorCode % 2 ^ 64).toNat

/-- Errors like SyntaxError should not be retried. -/
def shouldRetryFor (errorCode : Int) : Bool :=
  let isUserError := decide (userErrorCodeBegin ≤ errorCodeValue errorCode) &&
    decide (errorCodeValue errorCode < userErrorCodeEnd)
  !isUserError

/-- The first UnPreparedQuery evicts what the node has cached for the call. -/
def Evicts (flow : RetryFlow) (errorCode : Int) : Prop :=
  errorCode = ErrorCode.unPreparedQuery ∧ flow.unPreparedErrorCount = 0

instance (flow : RetryFlow) (errorCode : Int) : Decidable (flow.Evicts errorCode) :=
  inferInstanceAs (Decidable (_ ∧ _))

/-- What an error message does to the budget. -/
def handleErrorMessage (flow : RetryFlow) (errorCode : Int) : RetryFlow :=
  if flow.Evicts errorCode then
    ⟨(flow.maxRetries + 1) % 2 ^ 64, flow.unPreparedErrorCount + 1⟩
  else if !shouldRetryFor errorCode then
    -- stop retry
    { flow with maxRetries := 0 }
  else
    flow

/-- The exception an error message is turned into, with the budget it has left. -/
def errorMessageException (flow : RetryFlow) (errorCode : Int) (errorMessage : Bytes)
    (label : String) (queries : Bytes) : CallError :=
  if 0 < flow.maxRetries then .retry else .responseError errorCode errorMessage label queries

/-- What an unexpected message or result kind does to the budget. -/
def handleUnexpected (flow : RetryFlow) : RetryFlow := { flow with maxRetries := 0 }

/-- Determinate whether should retry or not. -/
def determinate (flow : RetryFlow) (ex : CallError) : RetryFlow × Option CallError :=
  if 0 < flow.maxRetries then
    ({ flow with maxRetries := flow.maxRetries - 1 }, none)
  else
    (flow, some ex)

/-! ## The budget -/

/-- The attempts that may still follow: the retries, and one more for the first
UnPreparedQuery. -/
def budget (flow : RetryFlow) : Nat := flow.maxRetries + (1 - flow.unPreparedErrorCount)

variable {flow : RetryFlow} {errorCode : Int} {ex : CallError}

theorem shouldRetryFor_user (hbegin : 0x2000 ≤ errorCode) (hend : errorCode < 0x3000) :
    shouldRetryFor errorCode = false := by
  have hvalue : errorCodeValue errorCode = errorCode.toNat := by
    rw [errorCodeValue, Int.emod_eq_of_lt (by omega) (by omega)]
  simp only [shouldRetryFor, hvalue, userErrorCodeBegin, userErrorCodeEnd]
  simp
  omega

theorem handleErrorMessage_evicts (h : flow.Evicts errorCode)
    (hfits : flow.maxRetries + 1 < 2 ^ 64) :
    flow.handleErrorMessage errorCode = ⟨flow.maxRetries + 1, 1⟩ := by
  rw [handleErrorMessage, if_pos h, Nat.mod_eq_of_lt hfits, h.2]

theorem handleErrorMessage_user (h : ¬ flow.Evicts errorCode) (hbegin : 0x2000 ≤ errorCode)
    (hend : errorCode < 0x3000) :
    flow.handleErrorMessage errorCode = flow.handleUnexpected := by
  rw [handleErrorMessage, if_neg h, shouldRetryFor_user hbegin hend]
  rfl

/-- An error message adds nothing to the budget. -/
theorem handleErrorMessage_budget (hfits : flow.Evicts errorCode → flow.maxRetries + 1 < 2 ^ 64) :
    (flow.handleErrorMessage errorCode).budget ≤ flow.budget := by
  by_cases h : flow.Evicts errorCode
  · rw [handleErrorMessage_evicts h (hfits h), budget, budget, h.2]
    exact le_rfl
  · rw [handleErrorMessage, if_neg h]
    split
    · exact Nat.add_le_add_right (Nat.zero_le _) _
    · exact le_rfl

theorem handleErrorMessage_count_le (h : flow.unPreparedErrorCount ≤ 1) :
    (flow.handleErrorMessage errorCode).unPreparedErrorCount ≤ 1 := by
  rw [handleErrorMessage]
  split
  next hevicts =>
    rw [hevicts.2]
  · split
    · exact h
    · exact h

/-- A retry takes one off the budget. -/
theorem determinate_budget {next : RetryFlow} (h : flow.determinate ex = (next, none)) :
    next.budget + 1 = flow.budget ∧ next.unPreparedErrorCount = flow.unPreparedErrorCount := by
  rw [determinate] at h
  split at h
  next hpos =>
    cases h
    refine ⟨?_, rfl⟩
    rw [budget, budget]
    simp only
    omega
  · cases h

/-- Without retries left the exception is passed on. -/
theorem determinate_stops {next : RetryFlow} {thrown : CallError}
    (h : flow.determinate ex = (next, some thrown)) :
    next = flow ∧ thrown = ex ∧ flow.maxRetries = 0 := by
  rw [determinate] at h
  split at h
  · cases h
  next hzero =>
    cases h
    exact ⟨rfl, rfl, Nat.eq_zero_of_not_pos hzero⟩

/-- The internal exception is only made while retries are left. -/
theorem errorMessageException_ne_retry {errorMessage queries : Bytes} {label : String}
    (h : flow.maxRetries = 0) :
    flow.errorMessageException errorCode errorMessage label queries =
      .responseError errorCode errorMessage label queries :=
  if_neg (Nat.not_lt.mpr (Nat.le_of_eq h))

end RetryFlow

end CqlDriver
