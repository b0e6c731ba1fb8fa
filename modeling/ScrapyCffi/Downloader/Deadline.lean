import Mathlib.Algebra.BigOperators.Group.List.Basic
import Mathlib.Algebra.Order.Floor.Defs
import ScrapyCffi.Downloader.RateLimit

/-!
# The deadline of a request and its attempts

`Downloader._request_deadline`, `fetch_http` and `_fetch_stream`
(`core/downloader/fetch.py:77–121,153–167`), and `_request_retryer`, `do_request`,
`do_request_once` and `open_stream` of `SessionWrapper` (`core/sessions.py:387–445,558–579`). The
attempts of a request are given with what each of them meets in the limiter of its session.
-/

namespace ScrapyCffi.Downloader

/-- The settings that the attempts of a request fall back to. -/
structure Settings where
  timeout : Option ℚ
  maxReqTimes : Option ℤ
  delayReqTime : Option ℚ

/-- A request; its constructor refuses `max_retry_times` below 1 and a negative `retry_delay`. -/
structure Request where
  timeout : Option ℚ
  maxRetryTimes : Option ℤ
  retryDelay : Option ℚ
  isMedia : Bool
  stream : Bool
  retries : ∀ times ∈ maxRetryTimes, 1 ≤ times
  delays : ∀ delay ∈ retryDelay, 0 ≤ delay

/-- One attempt: when it calls `wait`, `_next_start` is `lag` seconds off and the callers `ahead`
come first; then its transport takes its `duration`, and it ends with an error that is `retried`
or otherwise. -/
structure Attempt where
  lag : ℚ
  ahead : List Waiter
  duration : ℚ
  retried : Bool

/-- `a or b` of Python, where 0 counts as absent. -/
def pythonOr {α : Type} [Zero α] [DecidableEq α] (a b : Option α) : Option α :=
  a.filter (· ≠ 0) <|> b

variable (settings : Settings) (request : Request)

/-- `request.timeout or TIMEOUT or 30`. -/
def Request.perAttempt : ℚ :=
  (pythonOr request.timeout (pythonOr settings.timeout (some 30))).getD 30

/-- `request.max_retry_times or MAX_REQ_TIMES`. -/
def Request.retryTimes : Option ℤ := pythonOr request.maxRetryTimes settings.maxReqTimes

/-- `request.retry_delay`, or else `DELAY_REQ_TIME`. -/
def Request.delay : Option ℚ := request.retryDelay <|> settings.delayReqTime

/-- `_request_deadline`. -/
def requestDeadline : Option ℚ :=
  if request.isMedia && !request.stream then none
  else
    let timeout := max (request.perAttempt settings) 1
    let attempts : ℤ := (pythonOr (request.retryTimes settings) (some 1)).getD 1
    let retryDelay := (request.delay settings).getD 0
    some (timeout * attempts + retryDelay * (max (attempts - 1) 0 : ℤ) + 2)

variable (l : SessionRequestLimiter) (attempts : ℕ → Attempt)

/-- The loop over the attempts of a request, `left` of them from the one with this `number` on,
begun at `now`: the time at which it returns or raises. A delay that is not positive is none. -/
def retrying (delay : ℚ) : (left number : ℕ) → (now : ℚ) → ℚ
  | 0, _, now => now
  | left + 1, number, now =>
    let attempt := attempts number
    let ended := l.wait now attempt.lag attempt.ahead + attempt.duration
    if attempt.retried && left ≠ 0 then retrying delay left (number + 1) (ended + max delay 0)
    else ended

/-- The number of attempts that `_request_retryer` permits: it stops after the first when its
number is not positive, and raises after the first without one. -/
def Request.permitted : ℕ := (max ((request.retryTimes settings).getD 1) 1).toNat

/-- `do_request` and `open_stream`, begun at 0; without a delay `_request_retryer` raises. -/
def doRequest : ℚ :=
  match request.delay settings with
  | some delay => retrying l attempts delay (request.permitted settings) 0 0
  | none => 0

/-- What `asyncio.wait_for` makes of a call: its result, after some time, or a timeout. -/
inductive Awaited
  | ended (time : ℚ)
  | timedOut
  deriving DecidableEq

/-- `asyncio.wait_for` of a call that takes its `time`. -/
def waitFor (timeout : Option ℚ) (time : ℚ) : Awaited :=
  match timeout with
  | some timeout => if timeout ≤ 0 ∨ timeout < time then .timedOut else .ended time
  | none => .ended time

/-- The transport of `fetch_http` and of `_fetch_stream`. -/
def fetchHttp : Awaited :=
  waitFor (requestDeadline settings request) (doRequest settings request l attempts)

/-! ## What the attempts take -/

/-- The attempts that are made of `left` from the one with this `number` on. -/
def made : (left number : ℕ) → List Attempt
  | 0, _ => []
  | left + 1, number =>
    attempts number :: if (attempts number).retried && left ≠ 0 then made left (number + 1) else []

/-- The attempts of a request. -/
def Request.attempted : List Attempt :=
  if (request.delay settings).isSome then made attempts (request.permitted settings) 0 else []

/-- The time in the queue of the limiter. -/
def Attempt.queueing (attempt : Attempt) : ℚ := l.queueing attempt.lag attempt.ahead

/-- What all attempts may take: a timeout of at least a second for each, a delay for each but the
first, and two seconds. -/
def allowance : ℚ :=
  let times : ℤ := (pythonOr (request.retryTimes settings) (some 1)).getD 1
  max (request.perAttempt settings) 1 * times +
    (request.delay settings).getD 0 * (max (times - 1) 0 : ℤ) + 2

/-- What the transport and the delays of the attempts take. -/
def spent : ℚ :=
  ((request.attempted settings attempts).map (·.duration)).sum +
    max ((request.delay settings).getD 0) 0 *
      ((request.attempted settings attempts).length - 1 : ℕ)

/-- The queues of the attempts fit into what the others leave of their allowance. -/
structure QueuesFit : Prop where
  positive : 0 < allowance settings request
  queueing : ((request.attempted settings attempts).map (·.queueing l)).sum ≤
    allowance settings request - spent settings request attempts

variable {settings : Settings} {request : Request} {l : SessionRequestLimiter}
  {attempts : ℕ → Attempt}

/-- The loop takes the queues, the transports and the delays of its attempts. -/
theorem retrying_eq (delay : ℚ) (left number : ℕ) (now : ℚ) :
    retrying l attempts delay (left + 1) number now =
      now + ((made attempts (left + 1) number).map (·.queueing l)).sum +
        (((made attempts (left + 1) number).map (·.duration)).sum +
          max delay 0 * ((made attempts (left + 1) number).length - 1 : ℕ)) := by
  induction left generalizing number now with
  | zero =>
    simp [retrying, made, wait_eq, Attempt.queueing]
  | succ left ih =>
    rw [retrying, made]
    split
    · next h =>
      have hlength : (((made attempts (left + 1) (number + 1)).length - 1 : ℕ) : ℚ) =
          (made attempts (left + 1) (number + 1)).length - 1 := by
        rw [made, List.length_cons, Nat.add_sub_cancel]
        push_cast
        ring
      rw [ih, wait_eq, List.map_cons, List.sum_cons, List.map_cons, List.sum_cons,
        List.length_cons, Nat.add_sub_cancel, hlength, Attempt.queueing]
      ring
    · rw [wait_eq]
      simp [Attempt.queueing]

/-- A request takes its queues and what its attempts take. -/
theorem doRequest_eq : doRequest settings request l attempts =
    ((request.attempted settings attempts).map (·.queueing l)).sum +
      spent settings request attempts := by
  rw [doRequest, spent, Request.attempted]
  cases request.delay settings with
  | none => simp
  | some delay =>
    obtain ⟨left, hleft⟩ : ∃ left, request.permitted settings = left + 1 := by
      refine ⟨request.permitted settings - 1, ?_⟩
      rw [Request.permitted]
      omega
    simp only [hleft, Option.isSome_some, if_true, Option.getD_some]
    rw [retrying_eq, zero_add]

/-- The deadline is the allowance. -/
theorem requestDeadline_eq (hmedia : request.isMedia = false) :
    requestDeadline settings request = some (allowance settings request) := by
  simp [requestDeadline, allowance, hmedia]

/-- There are no more attempts than permitted. -/
theorem length_made_le (left number : ℕ) : (made attempts left number).length ≤ left := by
  induction left generalizing number with
  | zero => exact Nat.le_refl _
  | succ left ih =>
    rw [made, List.length_cons]
    split
    · exact Nat.succ_le_succ (ih (number + 1))
    · exact Nat.succ_le_succ (Nat.zero_le _)

/-- The transports of the attempts that are made. -/
theorem sum_duration_made_le {timeout : ℚ} (htimeout : 0 ≤ timeout)
    (hends : ∀ k, (attempts k).duration ≤ timeout) (left number : ℕ) :
    ((made attempts left number).map (·.duration)).sum ≤ timeout * (left : ℕ) := by
  induction left generalizing number with
  | zero => simp [made]
  | succ left ih =>
    have hhead := hends number
    rw [made, List.map_cons, List.sum_cons]
    push_cast
    split
    · linarith [ih (number + 1)]
    · have hrest : 0 ≤ timeout * (left : ℕ) := mul_nonneg htimeout (Nat.cast_nonneg left)
      rw [List.map_nil, List.sum_nil]
      linarith

/-- Two seconds in the queues fit when the settings are sound and no transport takes longer than
its timeout. -/
theorem queuesFit_of_le_two (htimes : ∀ times ∈ request.retryTimes settings, 0 ≤ times)
    (hdelay : ∀ delay ∈ request.delay settings, 0 ≤ delay)
    (hends : ∀ k, (attempts k).duration ≤ request.perAttempt settings)
    (hqueueing : ((request.attempted settings attempts).map (·.queueing l)).sum ≤ 2) :
    QueuesFit settings request l attempts := by
  -- the number of the deadline is that of the loop
  have htimes' : (pythonOr (request.retryTimes settings) (some 1)).getD 1 =
      (request.permitted settings : ℤ) := by
    rw [Request.permitted]
    cases htimes'' : request.retryTimes settings with
    | none => rfl
    | some times =>
      have hpos := htimes times htimes''
      by_cases hzero : times = 0
      · subst hzero
        rfl
      · have hfilter : Option.filter (fun x : ℤ ↦ decide (x ≠ 0)) (some times) = some times := by
          simp [Option.filter, hzero]
        rw [pythonOr, hfilter]
        simp only [Option.orElse_eq_orElse, Option.orElse_eq_or, Option.some_or, Option.getD_some]
        omega
  have hlength : (request.attempted settings attempts).length ≤ request.permitted settings := by
    rw [Request.attempted]
    split
    · exact length_made_le _ _
    · exact Nat.zero_le _
  have hone : 1 ≤ request.permitted settings := by
    rw [Request.permitted]
    omega
  have hdelay' : 0 ≤ (request.delay settings).getD 0 := by
    cases hd : request.delay settings with
    | none => exact Rat.le_refl
    | some delay => exact hdelay delay hd
  have htransport : ((request.attempted settings attempts).map (·.duration)).sum ≤
      max (request.perAttempt settings) 1 * (request.permitted settings : ℕ) := by
    have htimeout : 0 ≤ max (request.perAttempt settings) 1 := le_max_of_le_right zero_le_one
    rw [Request.attempted]
    split
    · exact sum_duration_made_le htimeout (fun k ↦ (hends k).trans (le_max_left ..)) _ _
    · exact mul_nonneg htimeout (Nat.cast_nonneg _)
  have hsleeping : (request.delay settings).getD 0 *
      ((request.attempted settings attempts).length - 1 : ℕ) ≤
      (request.delay settings).getD 0 * (request.permitted settings - 1 : ℕ) :=
    mul_le_mul_of_nonneg_left (Nat.cast_le.mpr (by omega)) hdelay'
  have hallowance : allowance settings request =
      max (request.perAttempt settings) 1 * (request.permitted settings : ℕ) +
        (request.delay settings).getD 0 * (request.permitted settings - 1 : ℕ) + 2 := by
    have hcast : ((request.permitted settings - 1 : ℕ) : ℚ) =
        ((max ((request.permitted settings : ℤ) - 1) 0 : ℤ) : ℚ) := by
      rw [max_eq_left (by omega)]
      push_cast [Nat.cast_sub hone]
      ring
    simp only [allowance, htimes', hcast]
    rfl
  have hleft : 0 ≤ max (request.perAttempt settings) 1 * (request.permitted settings : ℕ) :=
    mul_nonneg (le_max_of_le_right zero_le_one) (Nat.cast_nonneg _)
  have hsleep : 0 ≤ (request.delay settings).getD 0 * (request.permitted settings - 1 : ℕ) :=
    mul_nonneg hdelay' (Nat.cast_nonneg _)
  refine ⟨?_, ?_⟩
  · linarith
  · rw [spent, max_eq_left hdelay']
    linarith

/-- The deadline of a request that is not media leaves it all its attempts exactly when their
queues fit. -/
theorem fetchHttp_ended_iff (hmedia : request.isMedia = false) :
    fetchHttp settings request l attempts ≠ .timedOut ↔ QueuesFit settings request l attempts := by
  rw [fetchHttp, requestDeadline_eq hmedia, waitFor, doRequest_eq]
  split
  · next h =>
    refine ⟨fun hne ↦ absurd rfl hne, fun ⟨hpositive, hqueueing⟩ ↦ ?_⟩
    rcases h with h | h <;> linarith
  · next h =>
    rw [not_or, not_le, not_lt] at h
    refine ⟨fun _ ↦ ⟨h.1, ?_⟩, fun _ hended ↦ by cases hended⟩
    linarith [h.2]

/-- The default settings. -/
def defaults : Settings := ⟨some 30, some 2, some 3⟩

/-- A request with one attempt of a second. -/
def impatient : Request where
  timeout := some 1
  maxRetryTimes := some 1
  retryDelay := none
  isMedia := false
  stream := false
  retries := by simp
  delays := by simp

/-- One request every two seconds. -/
def halfRate : SessionRequestLimiter where
  requestsPerSecond := some (1 / 2)
  positive := by simp

/-- Attempts behind a request that starts and one that is cancelled in the queue. -/
def shortQueue (_ : ℕ) : Attempt := ⟨0, [.starts, .leaves 1], 1, true⟩

theorem fetchHttp_ended_shortQueue :
    fetchHttp defaults impatient halfRate shortQueue ≠ .timedOut ↔
      QueuesFit defaults impatient halfRate shortQueue :=
  fetchHttp_ended_iff rfl

/-- Attempts behind two requests that start. -/
def longQueue (_ : ℕ) : Attempt := ⟨0, [.starts, .starts], 1, true⟩

/-- The third of three requests queues for four seconds, and its deadline is three seconds off. -/
theorem queued_request_times_out : ¬ ∀ (settings : Settings) (request : Request)
    (l : SessionRequestLimiter) (attempts : ℕ → Attempt), request.isMedia = false →
    (∀ k, 0 ≤ (attempts k).duration ∧ (attempts k).duration ≤ request.perAttempt settings) →
    fetchHttp settings request l attempts ≠ .timedOut := by
  intro h
  have hends : 0 ≤ (longQueue 0).duration ∧
      (longQueue 0).duration ≤ impatient.perAttempt defaults := by decide +kernel
  exact h defaults impatient halfRate longQueue rfl (fun _ ↦ hends) (by decide +kernel)

end ScrapyCffi.Downloader
