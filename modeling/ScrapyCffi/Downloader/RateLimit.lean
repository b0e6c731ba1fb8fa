import Mathlib.Algebra.Order.Field.Rat
import Mathlib.Tactic.Linarith
import Mathlib.Tactic.Ring

/-!
# The rate limit of a session

`SessionRequestLimiter` (`core/sessions.py:314–345`). The clock of the event loop gives exact
rational seconds, and a task that can run does so at once.
-/

namespace ScrapyCffi.Downloader

/-- `SessionRequestLimiter`; `configure` refuses a rate that is not positive. -/
structure SessionRequestLimiter where
  requestsPerSecond : Option ℚ
  positive : ∀ rate ∈ requestsPerSecond, 0 < rate

/-- `_interval`. -/
def SessionRequestLimiter.interval (l : SessionRequestLimiter) : ℚ :=
  match l.requestsPerSecond with
  | some rate => 1 / rate
  | none => 0

/-- A caller of `wait` that came before: it starts, or is cancelled at a time while it waits. -/
inductive Waiter
  | starts
  | leaves (time : ℚ)
  deriving DecidableEq

/-- When `_lock` is free for the next caller, and `_next_start`. -/
structure Admission where
  now : ℚ
  nextStart : ℚ

/-- The body of `wait` under `_lock`. -/
def SessionRequestLimiter.serve (l : SessionRequestLimiter) (a : Admission) : Admission :=
  let delay := a.nextStart - a.now
  let now := if 0 < delay then a.now + delay else a.now
  { now, nextStart := max now a.nextStart + l.interval }

/-- A caller that holds the lock starts, or leaves it. -/
def SessionRequestLimiter.pass (l : SessionRequestLimiter) (a : Admission) : Waiter → Admission
  | .starts => l.serve a
  | .leaves time => { a with now := max a.now (min time a.nextStart) }

/-- `wait`, called at `now` when `_next_start` is `lag` seconds off and the callers `ahead` hold
the lock and wait for it: the time at which it returns. -/
def SessionRequestLimiter.wait (l : SessionRequestLimiter) (now lag : ℚ) (ahead : List Waiter) :
    ℚ :=
  if l.interval ≤ 0 then now else (l.serve (ahead.foldl l.pass ⟨now, now + lag⟩)).now

/-- How long a caller queues behind others. -/
def SessionRequestLimiter.queueing (l : SessionRequestLimiter) (lag : ℚ) (ahead : List Waiter) :
    ℚ :=
  if l.interval ≤ 0 then 0 else max lag 0 + l.interval * (ahead.count .starts : ℕ)

/-- When a caller that gets the lock starts. -/
def Admission.start (a : Admission) : ℚ := max a.now a.nextStart

variable {l : SessionRequestLimiter}

/-- A caller starts when the lock is free and `_next_start` is reached. -/
theorem serve_now (a : Admission) : (l.serve a).now = a.start := by
  rw [SessionRequestLimiter.serve, Admission.start]
  dsimp only
  split
  · next h =>
    rw [max_eq_right (by linarith)]
    ring
  · next h => rw [max_eq_left (by linarith)]

/-- The next caller starts one interval later. -/
theorem start_admit (hl : 0 < l.interval) (a : Admission) :
    (l.serve a).start = a.start + l.interval := by
  have hnow : (l.serve a).now = a.start := serve_now a
  have hle : a.nextStart ≤ a.start := le_max_right ..
  have hnext : (l.serve a).nextStart = max (l.serve a).now a.nextStart + l.interval := rfl
  rw [hnow, max_eq_left hle] at hnext
  rw [Admission.start, hnow, hnext, max_eq_right]
  linarith

/-- A caller that leaves delays nobody. -/
theorem start_leaves (a : Admission) (time : ℚ) : (l.pass a (.leaves time)).start = a.start := by
  simp only [SessionRequestLimiter.pass, Admission.start]
  rw [max_assoc, max_eq_right (min_le_right time a.nextStart)]

/-- Behind a queue a caller starts one interval later for each of the others that starts. -/
theorem start_foldl (hl : 0 < l.interval) (ahead : List Waiter) (a : Admission) :
    (ahead.foldl l.pass a).start = a.start + l.interval * (ahead.count .starts : ℕ) := by
  induction ahead generalizing a with
  | nil => simp
  | cons waiter ahead ih =>
    rw [List.foldl_cons, ih]
    cases waiter with
    | starts =>
      have hstart : (l.pass a .starts).start = a.start + l.interval := start_admit hl a
      rw [hstart, List.count_cons_self]
      push_cast
      ring
    | leaves time =>
      rw [start_leaves, List.count_cons_of_ne (by intro h; cases h)]

/-- `wait` returns after the time of its queue. -/
theorem wait_eq (now lag : ℚ) (ahead : List Waiter) :
    l.wait now lag ahead = now + l.queueing lag ahead := by
  rw [SessionRequestLimiter.wait, SessionRequestLimiter.queueing]
  split
  · rw [add_zero]
  · next h =>
    have hl : 0 < l.interval := not_le.mp h
    have hstart : (⟨now, now + lag⟩ : Admission).start = now + max lag 0 := by
      rw [Admission.start, max_comm, ← max_add_add_left, add_zero]
    rw [serve_now, start_foldl hl, hstart]
    ring

end ScrapyCffi.Downloader
