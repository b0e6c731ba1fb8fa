import ScrapyCffi.Base.Machine
import ScrapyCffi.Monitoring.Store

/-!
# Replayed monitoring events

An event that was accepted for a run that is still kept changes nothing when it is recorded again,
and a call returns unless the event is stale and its worker instance is not kept.
-/

namespace ScrapyCffi.Monitoring

open ScrapyCffi.Base

variable {τ : Type} [LinearOrder τ]

/-- A store with the events that were accepted for the runs that it has kept since. -/
structure Observed (τ : Type) where
  store : MonitorStore τ
  accepted : List (RunEvent τ)

/-- Whether a store keeps the run of an event. -/
def MonitorStore.keepsRun (s : MonitorStore τ) (e : RunEvent τ) : Bool :=
  e.runId.any fun runId ↦ (s.runs.get runId).isSome

/-- The history after a call. -/
def Observed.record (s : Observed τ) (e : RunEvent τ) (now : τ) : Observed τ :=
  let store := (s.store.record e now).2
  let accepted := if e.runId.any (s.store.accepts e) then e :: s.accepted else s.accepted
  { store, accepted := accepted.filter store.keepsRun }

/-- Every sequence of calls, in the order in which they take the lock, on a store with any
limits. -/
def monitorMachine (τ : Type) [LinearOrder τ] : Machine (Observed τ) (RunEvent τ × τ) where
  init s := ∃ maxWorkers maxRuns maxWorkers_pos maxRuns_pos,
    s = ⟨.init maxWorkers maxRuns maxWorkers_pos maxRuns_pos, []⟩
  step s call := some (s.record call.1 call.2)

/-- A stale event of a run comes from a worker instance that is kept. -/
def MonitorStore.Answers (s : MonitorStore τ) (e : RunEvent τ) : Prop :=
  ∀ runId, e.runId = some runId → s.accepts e runId = false → s.workers.get e.worker ≠ none

/-! ## The runs after a call -/

/-- Runs are only taken away. -/
theorem runs_evictRuns (fuel : Nat) (s : MonitorStore τ) {runId : String} {run : RunSnapshot τ}
    (h : (s.evictRuns fuel).runs.get runId = some run) : s.runs.get runId = some run := by
  induction fuel generalizing s with
  | zero => exact h
  | succ fuel ih =>
    rw [MonitorStore.evictRuns] at h
    split at h
    · exact h
    · split at h
      · exact h
      · have herase := ih _ h
        rw [Dict.get_erase] at herase
        split at herase
        · cases herase
        · exact herase

@[simp] theorem runs_evictWorkers (fuel : Nat) (s : MonitorStore τ) :
    (s.evictWorkers fuel).runs = s.runs := by
  induction fuel generalizing s with
  | zero => rfl
  | succ fuel ih =>
    rw [MonitorStore.evictWorkers]
    split
    · rfl
    · split
      · rfl
      · exact ih _

theorem runs_enforceLimits {s : MonitorStore τ} {runId : String} {run : RunSnapshot τ}
    (h : s.enforceLimits.runs.get runId = some run) : s.runs.get runId = some run := by
  rw [MonitorStore.enforceLimits, runs_evictWorkers] at h
  exact runs_evictRuns _ _ h

omit [LinearOrder τ] in
@[simp] theorem runs_releaseTerminalEngines (s : MonitorStore τ) (e : RunEvent τ) :
    (s.releaseTerminalEngines e).runs = s.runs := by
  rw [MonitorStore.releaseTerminalEngines]
  split
  · rfl
  · split <;> rfl

/-- A run that is kept after an event is merged was there before, or is that of the event; and its
sequence number does not fall. -/
theorem runs_merge {s : MonitorStore τ} {e : RunEvent τ} {now : τ} {runId : String}
    {run : RunSnapshot τ} (h : (s.merge e now).2.runs.get runId = some run) :
    (e.runId = some runId → e.sequence ≤ run.sequence) ∧
      ∀ previous, s.runs.get runId = some previous → previous.sequence ≤ run.sequence := by
  rw [MonitorStore.merge] at h
  split at h
  · next hrun =>
    have h := runs_enforceLimits h
    rw [MonitorStore.recordWorker, runs_releaseTerminalEngines] at h
    rw [hrun, h]
    refine ⟨fun he ↦ (by cases he), fun previous hp ↦ ?_⟩
    cases hp
    exact Nat.le_refl _
  · next merged hrun =>
    have h := runs_enforceLimits h
    dsimp only at h
    rw [MonitorStore.recordRun, MonitorStore.recordWorker] at h
    dsimp only at h
    rw [runs_releaseTerminalEngines, Dict.get_set] at h
    split at h
    · next hid =>
      cases h
      refine ⟨fun _ ↦ Nat.le_max_left _ _, fun previous hp ↦ ?_⟩
      rw [← hid, hp]
      exact Nat.le_max_right _ _
    · next hid =>
      rw [hrun, h]
      refine ⟨fun he ↦ ?_, fun previous hp ↦ ?_⟩
      · exact absurd (Option.some.inj he).symm hid
      · cases hp
        exact Nat.le_refl _

/-- Every accepted event has a run that is kept and has come as far. -/
def Observed.Kept (s : Observed τ) : Prop :=
  ∀ e ∈ s.accepted, ∃ runId run, e.runId = some runId ∧ s.store.runs.get runId = some run ∧
    e.sequence ≤ run.sequence

/-- An accepted event is not accepted again. -/
theorem Observed.Kept.replay {s : Observed τ} (h : s.Kept) {e : RunEvent τ} (he : e ∈ s.accepted)
    (hpos : 0 < e.sequence) (now : τ) : (s.store.record e now).2 = s.store := by
  obtain ⟨runId, run, hid, hrun, hle⟩ := h e he
  have hstale : s.store.accepts e runId = false := by
    rw [MonitorStore.accepts, hrun]
    split
    · rfl
    · simp [hpos, hle]
  rw [MonitorStore.record, hid]
  dsimp only
  rw [hstale, if_neg Bool.false_ne_true]
  split <;> rfl

/-- The store after an event that is not accepted. -/
theorem record_stale {s : MonitorStore τ} {e : RunEvent τ} {runId : String}
    (hid : e.runId = some runId) (hstale : s.accepts e runId = false) (now : τ) :
    (s.record e now).2 = s := by
  rw [MonitorStore.record, hid]
  dsimp only
  rw [hstale, if_neg Bool.false_ne_true]
  split <;> rfl

/-- The store after an event that is accepted. -/
theorem record_accepted {s : MonitorStore τ} {e : RunEvent τ} {runId : String}
    (hid : e.runId = some runId) (haccepts : s.accepts e runId = true) (now : τ) :
    (s.record e now).2 = ((s.accept e runId).merge e now).2 := by
  rw [MonitorStore.record, hid]
  dsimp only
  rw [haccepts, if_pos rfl]
  rfl

/-- An event that is merged keeps the history as far as the runs are kept. -/
theorem Observed.Kept.merge {s : Observed τ} (h : s.Kept) {e : RunEvent τ} {now : τ}
    {store : MonitorStore τ} {accepted : List (RunEvent τ)} (hruns : store.runs = s.store.runs)
    (haccepted : ∀ f ∈ accepted, f ∈ s.accepted ∨ f = e) :
    Observed.Kept ⟨(store.merge e now).2, accepted.filter (store.merge e now).2.keepsRun⟩ := by
  intro f hf
  obtain ⟨hmem, hkeeps⟩ := List.mem_filter.mp hf
  rw [MonitorStore.keepsRun, Option.any_eq_true] at hkeeps
  obtain ⟨runId, hid, hsome⟩ := hkeeps
  obtain ⟨run, hrun⟩ := Option.isSome_iff_exists.mp hsome
  obtain ⟨hsequence, hprevious⟩ := runs_merge hrun
  refine ⟨runId, run, hid, hrun, ?_⟩
  obtain hold | rfl := haccepted f hmem
  · obtain ⟨oldId, previous, hold, hget, hle⟩ := h f hold
    rw [hold] at hid
    cases hid
    rw [hruns] at hprevious
    exact Nat.le_trans hle (hprevious previous hget)
  · exact hsequence hid

/-- One call keeps the history. -/
theorem Observed.Kept.record {s : Observed τ} (h : s.Kept) (e : RunEvent τ) (now : τ) :
    (s.record e now).Kept := by
  rw [Observed.record]
  cases hid : e.runId with
  | none =>
    have hstore : (s.store.record e now).2 = (s.store.merge e now).2 := by
      rw [MonitorStore.record, hid]
      rfl
    rw [hstore]
    exact h.merge rfl fun f hf ↦ .inl hf
  | some runId =>
    rw [Option.any_some]
    by_cases haccepts : s.store.accepts e runId = true
    · rw [record_accepted hid haccepts, if_pos haccepts]
      exact h.merge rfl fun f hf ↦ (List.mem_cons.mp hf).symm
    · rw [record_stale hid (by simpa using haccepts), if_neg haccepts]
      exact fun f hf ↦ h f (List.mem_filter.mp hf).1

/-- A call returns a snapshot when the store answers. -/
theorem record_returns_iff (s : MonitorStore τ) (e : RunEvent τ) (now : τ) :
    (∃ worker, (s.record e now).1 = .ok worker) ↔ s.Answers e := by
  rw [MonitorStore.record, MonitorStore.Answers]
  cases hid : e.runId with
  | none => exact ⟨fun _ _ h ↦ (by cases h), fun _ ↦ ⟨_, rfl⟩⟩
  | some runId =>
    dsimp only
    cases haccepts : s.accepts e runId with
    | true =>
      refine ⟨fun _ id h hstale ↦ ?_, fun _ ↦ ⟨_, rfl⟩⟩
      cases h
      rw [haccepts] at hstale
      cases hstale
    | false =>
      rw [if_neg Bool.false_ne_true]
      cases hworker : s.workers.get e.worker with
      | none =>
        refine ⟨fun ⟨_, h⟩ ↦ (by cases h), fun h ↦ ?_⟩
        exact absurd rfl (h runId rfl haccepts)
      | some worker => exact ⟨fun _ _ _ _ ↦ Option.some_ne_none _, fun _ ↦ ⟨worker, rfl⟩⟩

/-- After every sequence of events, recording an event returns, and changes nothing when the event
was accepted for a run kept since, exactly when its worker instance is kept or it is not stale. -/
theorem record_total_iff {s : Observed τ} (h : (monitorMachine τ).Reachable s) (e : RunEvent τ)
    (now : τ) :
    (∃ worker, (s.store.record e now).1 = .ok worker) ∧
      (e ∈ s.accepted → 0 < e.sequence → (s.store.record e now).2 = s.store) ↔
    s.store.Answers e := by
  have hkept : s.Kept := by
    refine h.invariant (fun u hinit ↦ ?_) fun u call v _ ih _ hstep ↦ ?_
    · obtain ⟨_, _, _, _, rfl⟩ := hinit
      exact fun _ hf ↦ by cases hf
    · cases hstep
      exact ih.record call.1 call.2
  rw [record_returns_iff, and_iff_left_iff_imp]
  exact fun _ he hpos ↦ hkept.replay he hpos now

/-- An event of a worker, and of a run of it. -/
def workerEvent (eventId : String) (sequence : Nat) (workerId : String) (runId : Option String)
    (runId_ne : runId ≠ some "") (event : String) (runState : Option RunState) : RunEvent Nat where
  eventId := eventId
  sequence := sequence
  workerId := workerId
  instanceId := "instance"
  runId := runId
  taskId := none
  workerType := "crawler"
  event := event
  timestamp := sequence
  workerState := none
  runState := runState
  spiderName := none
  counters := .empty
  detail := none
  runId_ne := runId_ne

/-- An event of a run that runs. -/
def firstEvent : RunEvent Nat :=
  workerEvent "a" 1 "one" (some "run") (by decide) "heartbeat" (some .running)

/-- A heartbeat of another worker. -/
def otherEvent : RunEvent Nat := workerEvent "b" 0 "two" none (by decide) "heartbeat" none

/-- A store that keeps one worker, after both events. -/
def evictedWorker : Observed Nat :=
  ((monitorMachine Nat).run ⟨.init 1 1 Nat.one_pos Nat.one_pos, []⟩
    [(firstEvent, 1), (otherEvent, 2)]).getD ⟨.init 1 1 Nat.one_pos Nat.one_pos, []⟩

theorem record_total_iff_otherEvent :
    (∃ worker, (evictedWorker.store.record otherEvent 3).1 = .ok worker) ∧
      (otherEvent ∈ evictedWorker.accepted → 0 < otherEvent.sequence →
        (evictedWorker.store.record otherEvent 3).2 = evictedWorker.store) ↔
    evictedWorker.store.Answers otherEvent :=
  record_total_iff (.run [(firstEvent, 1), (otherEvent, 2)] (.init ⟨1, 1, _, _, rfl⟩) rfl)
    otherEvent 3

/-- The first event again raises a `KeyError`. -/
theorem replayed_event_raises : ¬ ∀ s, (monitorMachine Nat).Reachable s → ∀ e now,
    (∃ worker, (s.store.record e now).1 = .ok worker) ∧
      (e ∈ s.accepted → 0 < e.sequence → (s.store.record e now).2 = s.store) := by
  intro h
  have hreached : (monitorMachine Nat).Reachable evictedWorker :=
    .run [(firstEvent, 1), (otherEvent, 2)] (.init ⟨1, 1, _, _, rfl⟩) rfl
  obtain ⟨⟨worker, hok⟩, -⟩ := h evictedWorker hreached firstEvent 3
  have hraises : (evictedWorker.store.record firstEvent 3).1 = .error ("one", "instance") := rfl
  rw [hraises] at hok
  cases hok

end ScrapyCffi.Monitoring
