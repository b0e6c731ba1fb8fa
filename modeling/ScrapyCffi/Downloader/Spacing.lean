import Mathlib.Data.List.Chain
import ScrapyCffi.Base.Machine
import ScrapyCffi.Downloader.RateLimit

/-!
# Spacing of the admissions of a session

`SessionRequestLimiter.wait` (`core/sessions.py:334–345`) between its `await`s. The clock only
advances, the lock is FIFO, and neither the task that gets the lock nor the one that wakes from its
sleep needs to run at once.
-/

namespace ScrapyCffi.Downloader

open ScrapyCffi.Base

/-- The caller that holds `_lock` across its sleep, and the time until which it asked to sleep. -/
structure Sleeper where
  caller : Nat
  deadline : ℚ
  deriving DecidableEq

/-- A limiter and its callers, numbered as they arrive. `admitted` and `cancelled` are history:
the callers whose `wait` returned, with the time they read last, and those cancelled in it. -/
structure LimiterState where
  clock : ℚ
  nextStart : ℚ
  holder : Option Sleeper
  waiting : List Nat
  arrived : Nat
  admitted : List (Nat × ℚ)
  cancelled : List Nat
  deriving DecidableEq

/-- What happens next: the clock advances, `wait` is called, the first waiter gets the free lock,
the holder of the lock wakes, or a caller is cancelled. -/
inductive LimiterEvent
  | elapse (time : ℚ)
  | arrive
  | acquire
  | wake
  | cancel (caller : Nat)

namespace LimiterState

/-- `__init__`, at any time of the clock. -/
def Initial (s : LimiterState) : Prop :=
  s.nextStart = 0 ∧ s.holder = none ∧ s.waiting = [] ∧ s.admitted = [] ∧ s.cancelled = []

/-- The last statement of `wait`, and its return. -/
def start (l : SessionRequestLimiter) (s : LimiterState) (caller : Nat) : LimiterState :=
  { s with
    nextStart := max s.clock s.nextStart + l.interval
    admitted := s.admitted ++ [(caller, s.clock)] }

/-- The body of `wait` under `_lock`, up to its `await`. -/
def enter (l : SessionRequestLimiter) (s : LimiterState) (caller : Nat) : LimiterState :=
  let delay := s.nextStart - s.clock
  if 0 < delay then { s with holder := some ⟨caller, s.clock + delay⟩ } else s.start l caller

/-- `wait` is called. -/
def arrive (l : SessionRequestLimiter) (s : LimiterState) : LimiterState :=
  if l.interval ≤ 0 then
    { s with arrived := s.arrived + 1, admitted := s.admitted ++ [(s.arrived, s.clock)] }
  else { s with arrived := s.arrived + 1, waiting := s.waiting ++ [s.arrived] }

/-- `CancelledError` in a caller that waits for the lock, or in the one that holds it. -/
def cancel (s : LimiterState) (caller : Nat) : Option LimiterState :=
  if caller ∈ s.waiting then
    some { s with waiting := s.waiting.erase caller, cancelled := caller :: s.cancelled }
  else if s.holder.any fun holder ↦ holder.caller = caller then
    some { s with holder := none, cancelled := caller :: s.cancelled }
  else none

/-- One event. -/
def step (l : SessionRequestLimiter) (s : LimiterState) : LimiterEvent → Option LimiterState
  | .elapse time => if s.clock ≤ time then some { s with clock := time } else none
  | .arrive => some (s.arrive l)
  | .acquire =>
    match s.holder, s.waiting with
    | none, caller :: waiting => some ({ s with waiting := waiting }.enter l caller)
    | _, _ => none
  | .wake =>
    match s.holder with
    | some holder =>
      if holder.deadline ≤ s.clock then some ({ s with holder := none }.start l holder.caller)
      else none
    | none => none
  | .cancel caller => s.cancel caller

end LimiterState

/-- A limiter and its callers. -/
def SessionRequestLimiter.machine (l : SessionRequestLimiter) :
    Machine LimiterState LimiterEvent where
  init := LimiterState.Initial
  step := LimiterState.step l

namespace LimiterState

/-- Everybody who called `wait`. -/
def callers (s : LimiterState) : List Nat :=
  (s.holder.map Sleeper.caller).toList ++ s.waiting ++ s.admitted.map Prod.fst ++ s.cancelled

/-- The time that the admissions so far leave for the next one. -/
def free (l : SessionRequestLimiter) (s : LimiterState) : ℚ :=
  match s.admitted.getLast? with
  | some last => last.2 + l.interval
  | none => 0

/-- Admissions are spaced, the next one is due an interval after the last, the holder of the lock
sleeps until then, and every caller is in one place. -/
structure Spaced (l : SessionRequestLimiter) (s : LimiterState) : Prop where
  chain : s.admitted.IsChain fun a b ↦ a.2 + l.interval ≤ b.2
  next : s.nextStart = s.free l
  deadline : ∀ holder ∈ s.holder, holder.deadline = s.nextStart
  nodup : s.callers.Nodup
  fresh : ∀ caller ∈ s.callers, caller < s.arrived

variable {l : SessionRequestLimiter} {s : LimiterState}

/-- A caller that left the lock and its queue is admitted once its start is due. -/
theorem Spaced.start (hchain : s.admitted.IsChain fun a b ↦ a.2 + l.interval ≤ b.2)
    (hnext : s.nextStart = s.free l) (hholder : s.holder = none) {caller : Nat}
    (hnodup : (caller :: s.callers).Nodup) (hfresh : ∀ c ∈ caller :: s.callers, c < s.arrived)
    (hdue : s.nextStart ≤ s.clock) : Spaced l (s.start l caller) := by
  have hcallers : (s.start l caller).callers.Perm (caller :: s.callers) := by
    rw [List.perm_iff_count]
    intro c
    simp only [callers, LimiterState.start, List.map_append, List.map_cons, List.map_nil,
      List.count_append, List.count_cons, List.count_nil]
    omega
  constructor
  case chain =>
    rw [LimiterState.start, List.isChain_append]
    refine ⟨hchain, .singleton _, fun a ha b hb ↦ ?_⟩
    cases hb
    rw [free, ha] at hnext
    rwa [hnext] at hdue
  case next =>
    simp [LimiterState.start, free, max_eq_left hdue]
  case deadline =>
    simp [LimiterState.start, hholder]
  case nodup => exact hcallers.nodup_iff.mpr hnodup
  case fresh => exact fun c hc ↦ hfresh c (hcallers.mem_iff.mp hc)

/-- The first waiter gets the lock. -/
theorem Spaced.acquire {caller : Nat} {waiting : List Nat} (h : Spaced l s)
    (hholder : s.holder = none) (hwaiting : s.waiting = caller :: waiting) :
    Spaced l ({ s with waiting := waiting }.enter l caller) := by
  have hcallers : s.callers.Perm (caller :: { s with waiting := waiting }.callers) := by
    rw [List.perm_iff_count]
    intro c
    simp only [callers, hwaiting, List.count_append, List.count_cons]
    omega
  rw [enter]
  split
  · next hdelay =>
    refine ⟨h.chain, h.next, ?_, ?_, ?_⟩
    · intro holder hmem
      cases hmem
      ring
    · have hnodup := hcallers.nodup_iff.mp h.nodup
      simpa [callers, hholder] using hnodup
    · intro c hc
      apply h.fresh c
      rw [hcallers.mem_iff]
      simpa [callers, hholder] using hc
  · next hdelay =>
    apply Spaced.start (s := { s with waiting := waiting }) h.chain h.next hholder
    · exact hcallers.nodup_iff.mp h.nodup
    · exact fun c hc ↦ h.fresh c (hcallers.mem_iff.mpr hc)
    · linarith

/-- The holder of the lock wakes from its sleep. -/
theorem Spaced.wake {holder : Sleeper} (h : Spaced l s) (hholder : s.holder = some holder)
    (hdue : holder.deadline ≤ s.clock) :
    Spaced l ({ s with holder := none }.start l holder.caller) := by
  have hcallers : s.callers = holder.caller :: { s with holder := none }.callers := by
    simp [callers, hholder]
  apply Spaced.start (s := { s with holder := none }) h.chain h.next rfl
  · rw [← hcallers]
    exact h.nodup
  · rw [← hcallers]
    exact h.fresh
  · rwa [← h.deadline holder hholder]

/-- A caller is cancelled. -/
theorem Spaced.cancel {caller : Nat} {t : LimiterState} (h : Spaced l s)
    (hstep : s.cancel caller = some t) : Spaced l t := by
  rw [LimiterState.cancel] at hstep
  split at hstep
  · next hmem =>
    cases hstep
    have hcallers : s.callers.Perm
        { s with waiting := s.waiting.erase caller, cancelled := caller :: s.cancelled }.callers := by
      rw [List.perm_iff_count]
      intro c
      have := (List.perm_cons_erase hmem).count_eq c
      simp only [callers, List.count_append, List.count_cons] at this ⊢
      omega
    refine ⟨h.chain, h.next, h.deadline, hcallers.nodup_iff.mp h.nodup, fun c hc ↦ ?_⟩
    exact h.fresh c (hcallers.mem_iff.mpr hc)
  · split at hstep
    · next hmem =>
      cases hstep
      obtain ⟨holder, hholder⟩ : ∃ holder, s.holder = some holder :=
        Option.isSome_iff_exists.mp (Option.isSome_of_any hmem)
      rw [hholder, Option.any_some] at hmem
      have hcaller : holder.caller = caller := of_decide_eq_true hmem
      have hcallers : s.callers.Perm
          { s with holder := none, cancelled := caller :: s.cancelled }.callers := by
        rw [List.perm_iff_count]
        intro c
        simp only [callers, hholder, hcaller, Option.map_some, Option.map_none, Option.toList_some,
          Option.toList_none, List.count_append, List.count_cons, List.count_nil]
        omega
      refine ⟨h.chain, h.next, by simp, hcallers.nodup_iff.mp h.nodup, fun c hc ↦ ?_⟩
      exact h.fresh c (hcallers.mem_iff.mpr hc)
    · cases hstep

/-- A caller is taken into the queue. -/
theorem Spaced.arrive (hl : 0 < l.interval) (h : Spaced l s) : Spaced l (s.arrive l) := by
  rw [LimiterState.arrive, if_neg (not_le.mpr hl)]
  have hcallers : { s with
      arrived := s.arrived + 1, waiting := s.waiting ++ [s.arrived] }.callers.Perm
      (s.arrived :: s.callers) := by
    rw [List.perm_iff_count]
    intro c
    simp only [callers, List.count_append, List.count_cons, List.count_nil]
    omega
  refine ⟨h.chain, h.next, h.deadline, ?_, ?_⟩
  · rw [hcallers.nodup_iff, List.nodup_cons]
    exact ⟨fun hmem ↦ (h.fresh _ hmem).false, h.nodup⟩
  · intro c hc
    have hc := hcallers.mem_iff.mp hc
    rcases List.mem_cons.mp hc with rfl | hc
    · exact Nat.lt_succ_self _
    · exact Nat.lt_succ_of_lt (h.fresh c hc)

/-- Every event keeps the spacing. -/
theorem Spaced.step (hl : 0 < l.interval) {e : LimiterEvent} {t : LimiterState} (h : Spaced l s)
    (hstep : s.step l e = some t) : Spaced l t := by
  cases e with
  | elapse time =>
    rw [LimiterState.step] at hstep
    split at hstep
    · cases hstep
      exact ⟨h.chain, h.next, h.deadline, h.nodup, h.fresh⟩
    · cases hstep
  | arrive =>
    cases hstep
    exact h.arrive hl
  | acquire =>
    rw [LimiterState.step] at hstep
    split at hstep
    · next caller waiting hholder hwaiting =>
      cases hstep
      exact h.acquire hholder hwaiting
    · cases hstep
  | wake =>
    rw [LimiterState.step] at hstep
    split at hstep
    · next holder hholder =>
      split at hstep
      · next hdue =>
        cases hstep
        exact h.wake hholder hdue
      · cases hstep
    · cases hstep
  | cancel caller => exact h.cancel hstep

/-- In every run the admissions are spaced. -/
theorem spaced_of_reachable (hl : 0 < l.interval) (h : l.machine.Reachable s) : Spaced l s := by
  apply h.invariant
  · intro s hs
    obtain ⟨hnext, hholder, hwaiting, hadmitted, hcancelled⟩ := hs
    refine ⟨by simp [hadmitted], by simp [free, hadmitted, hnext], by simp [hholder], ?_, ?_⟩
    · simp [callers, hholder, hwaiting, hadmitted, hcancelled]
    · simp [callers, hholder, hwaiting, hadmitted, hcancelled]
  · intro s e t _ hs _ hstep
    exact hs.step hl hstep

/-- A cancelled caller leaves the schedule as it is. -/
theorem cancel_schedule {caller : Nat} {t : LimiterState} (h : s.cancel caller = some t) :
    t.nextStart = s.nextStart ∧ t.admitted = s.admitted := by
  rw [LimiterState.cancel] at h
  split at h
  · cases h
    exact ⟨rfl, rfl⟩
  · split at h
    · cases h
      exact ⟨rfl, rfl⟩
    · cases h

/-- What consecutive times are apart adds up. -/
theorem add_mul_le_of_isChain {d : ℚ} {admitted : List (Nat × ℚ)}
    (h : admitted.IsChain fun a b ↦ a.2 + d ≤ b.2) {first last : Nat × ℚ} {k : Nat}
    (hfirst : admitted[0]? = some first) (hlast : admitted[k]? = some last) :
    first.2 + k * d ≤ last.2 := by
  induction k generalizing last with
  | zero =>
    cases hfirst.symm.trans hlast
    simp
  | succ k ih =>
    obtain ⟨hk, hget⟩ := List.getElem?_eq_some_iff.mp hlast
    have hprev := ih (List.getElem?_eq_getElem (Nat.lt_of_succ_lt hk))
    have hstep := List.isChain_iff_getElem.mp h k hk
    rw [hget] at hstep
    push_cast
    linarith

end LimiterState

variable {l : SessionRequestLimiter}

/-- `wait` at `r` requests per second in every run, whatever the clock shows at first: admissions
that follow each other are `1 / r` apart, so that the one `k` places after the first comes `k / r`
later or still later. The next start is `1 / r` after the last admission, a caller that sleeps does
so until then, and one that is cancelled is not admitted and changes neither. -/
theorem LimiterState.admissions_spaced {r : ℚ} (hr : l.requestsPerSecond = some r)
    {s : LimiterState} (h : l.machine.Reachable s) :
    s.admitted.IsChain (fun a b ↦ a.2 + 1 / r ≤ b.2) ∧
    (∀ (first last) (k : ℕ), s.admitted[0]? = some first → s.admitted[k]? = some last →
      first.2 + k / r ≤ last.2) ∧
    (∀ last ∈ s.admitted.getLast?, s.nextStart = last.2 + 1 / r) ∧
    (s.admitted = [] → s.nextStart = 0) ∧
    (∀ holder ∈ s.holder, holder.deadline = s.nextStart) ∧
    (∀ caller ∈ s.cancelled, caller ∉ s.admitted.map Prod.fst) ∧
    (∀ caller t, s.step l (.cancel caller) = some t →
      t.nextStart = s.nextStart ∧ t.admitted = s.admitted) := by
  have hinterval : l.interval = 1 / r := by
    rw [SessionRequestLimiter.interval, hr]
  have hl : 0 < l.interval := by
    rw [hinterval]
    exact one_div_pos.mpr (l.positive r hr)
  have hspaced := spaced_of_reachable hl h
  have hchain := hspaced.chain
  have hnext := hspaced.next
  rw [hinterval] at hchain
  refine ⟨hchain, ?_, ?_, ?_, hspaced.deadline, ?_, fun _ _ ↦ cancel_schedule⟩
  · intro first last k hfirst hlast
    have := add_mul_le_of_isChain hchain hfirst hlast
    rwa [mul_one_div] at this
  · intro last hlast
    rw [hnext, free, hlast, hinterval]
  · intro hnone
    rw [hnext, free, hnone]
    rfl
  · intro caller hcancelled hadmitted
    have hdisjoint := (List.nodup_append.mp hspaced.nodup).2.2
    exact hdisjoint caller (List.mem_append_right _ hadmitted) caller hcancelled rfl

/-- A second caller sleeps for half a second and is late by two. -/
theorem LimiterState.admissions_spaced_late :
    let l : SessionRequestLimiter := ⟨some 2, fun _ h ↦ Option.mem_some_iff.mp h ▸ two_pos⟩
    ∃ s, l.machine.Reachable s ∧ s.admitted = [(0, 7), (1, 9)] ∧
      s.admitted.IsChain fun a b ↦ a.2 + 1 / 2 ≤ b.2 := by
  intro l
  have h : l.machine.Reachable ⟨9, 19 / 2, none, [], 2, [(0, 7), (1, 9)], []⟩ := by
    apply Machine.Reachable.run (s := ⟨7, 0, none, [], 0, [], []⟩)
      [.arrive, .acquire, .arrive, .acquire, .elapse 9, .wake]
    · exact .init ⟨rfl, rfl, rfl, rfl, rfl⟩
    · decide +kernel
  exact ⟨_, h, rfl, (LimiterState.admissions_spaced (l := l) rfl h).1⟩

end ScrapyCffi.Downloader
