import ScrapyCffi.Base.Machine
import ScrapyCffi.Monitoring.Store

/-!
# Engine counts of workers and runs

While nothing is evicted, the engines of a worker are those of its runs, as long as an
`engine_stopped` neither ends its run nor reports one without engines next to other engines of the
worker.
-/

namespace ScrapyCffi.Monitoring

open ScrapyCffi.Base

variable {τ : Type}

namespace MonitorStore

/-- What an entry of the runs adds to the engines of a worker instance. -/
def engines (s : MonitorStore τ) (key : WorkerKey) (run : String × RunSnapshot τ) : Nat :=
  if run.2.worker = key then s.runEngines run.1 else 0

/-- The engines of a worker's other runs. -/
def otherEngines (s : MonitorStore τ) (key : WorkerKey) (runId : String) : Nat :=
  ((s.runs.erase runId).entries.map (s.engines key)).sum

/-- The engines of every worker instance are those of its runs. -/
def Consistent (s : MonitorStore τ) : Prop :=
  ∀ key, s.workerEngines key = (s.runs.entries.map (s.engines key)).sum

/-- An event of a run, of the one worker instance that reports it, that evicts nothing. -/
structure Attributed (s : MonitorStore τ) (e : RunEvent τ) : Prop where
  run : e.runId ≠ none
  worker : ∀ runId run, e.runId = some runId → s.runs.get runId = some run → run.worker = e.worker
  keepsRuns : ∀ runId, e.runId = some runId →
    s.runs.get runId ≠ none ∨ s.runs.entries.length < s.maxRuns
  keepsWorkers : s.workers.get e.worker ≠ none ∨ s.workers.entries.length < s.maxWorkers

/-- An `engine_stopped` that is accepted does not end its run and comes from one with engines, or
no other run of the worker has engines. -/
def StopsOne (s : MonitorStore τ) (e : RunEvent τ) : Prop :=
  ∀ runId, e.runId = some runId → s.accepts e runId = true → e.event = "engine_stopped" →
    e.runState.any (·.isTerminal) = false ∧ s.runEngines runId ≠ 0 ∨
      s.otherEngines e.worker runId = 0

/-- What holds beside the counts while nothing is evicted. -/
structure Sized (s : MonitorStore τ) : Prop where
  runs : s.runs.entries.length ≤ s.maxRuns
  workers : s.workers.entries.length ≤ s.maxWorkers
  fresh : ∀ runId, s.runs.get runId = none → s.runEngines runId = 0

variable {s : MonitorStore τ} {e : RunEvent τ} {runId : String} {now : τ}

/-! ## The store after an event that is merged -/

/-- The number of a run's engines that stay when the run ends, or goes on. -/
def remaining (s : MonitorStore τ) (e : RunEvent τ) (runId : String) : Nat :=
  if e.runState.any (·.isTerminal) then 0 else s.runEngines runId

/-- The store after an event of a run that evicts nothing. -/
structure Merged (s : MonitorStore τ) (e : RunEvent τ) (runId : String) (t : MonitorStore τ) :
    Prop where
  workerEngines : ∀ key, t.workerEngines key =
    if key = e.worker then
      countEngines e (s.workerEngines key - (s.runEngines runId - s.remaining e runId))
    else s.workerEngines key
  runEngines : ∀ other, t.runEngines other =
    if other = runId then countEngines e (s.remaining e runId) else s.runEngines other
  runs : ∃ run, t.runs = s.runs.set runId run ∧ run.worker = e.worker
  keepsRuns : t.runs.entries.length ≤ t.maxRuns
  keepsWorkers : t.workers.entries.length ≤ t.maxWorkers

theorem workerEngines_set {t : MonitorStore τ} {key : WorkerKey} {count : Nat}
    (h : t.activeEngines = s.activeEngines.set key count) (other : WorkerKey) :
    t.workerEngines other = if other = key then count else s.workerEngines other := by
  rw [workerEngines, h, Dict.get_set]
  split <;> rfl

theorem runEngines_set {t : MonitorStore τ} {key : String} {count : Nat}
    (h : t.runActiveEngines = s.runActiveEngines.set key count) (other : String) :
    t.runEngines other = if other = key then count else s.runEngines other := by
  rw [runEngines, h, Dict.get_set]
  split <;> rfl

/-- What a terminal event releases. -/
theorem releaseTerminalEngines_engines (hid : e.runId = some runId) :
    (∀ key, (s.releaseTerminalEngines e).workerEngines key =
      if key = e.worker then s.workerEngines key - (s.runEngines runId - s.remaining e runId)
      else s.workerEngines key) ∧
    ∀ other, (s.releaseTerminalEngines e).runEngines other =
      if other = runId then s.remaining e runId else s.runEngines other := by
  rw [releaseTerminalEngines, hid]
  dsimp only
  split
  · next hterminal =>
    rw [remaining, if_pos hterminal.1, Nat.sub_zero]
    refine ⟨fun key ↦ ?_, runEngines_set rfl⟩
    refine (workerEngines_set rfl key).trans ?_
    split
    · next hkey => rw [hkey]
    · rfl
  · next hterminal =>
    have hsame : s.remaining e runId = s.runEngines runId := by
      rw [remaining]
      split
      · next h =>
        rw [not_and_not_right] at hterminal
        exact (hterminal h).symm
      · rfl
    rw [hsame, Nat.sub_self]
    refine ⟨fun key ↦ ?_, fun other ↦ ?_⟩
    · rw [Nat.sub_zero, ite_self]
    · split
      · next hother => rw [hother]
      · rfl

theorem releaseTerminalEngines_same (s : MonitorStore τ) (e : RunEvent τ) :
    (s.releaseTerminalEngines e).runs = s.runs ∧
      (s.releaseTerminalEngines e).workers = s.workers ∧
      (s.releaseTerminalEngines e).maxRuns = s.maxRuns ∧
      (s.releaseTerminalEngines e).maxWorkers = s.maxWorkers := by
  rw [releaseTerminalEngines]
  split
  · exact ⟨rfl, rfl, rfl, rfl⟩
  · split <;> exact ⟨rfl, rfl, rfl, rfl⟩

/-! ## Counts -/

/-- The engines of a worker are those of one run and of the others. -/
theorem sum_engines (s : MonitorStore τ) (key : WorkerKey) (runId : String) :
    (s.runs.entries.map (s.engines key)).sum =
      ((s.runs.get runId).elim 0 fun run ↦ s.engines key (runId, run)) +
        s.otherEngines key runId :=
  Dict.sum_erase s.runs runId (s.engines key)

/-- What an event adds to a run it adds to the worker, unless it stops what is not there. -/
theorem countEngines_add (e : RunEvent τ) (own other : Nat) :
    countEngines e (own + other) = countEngines e own + other ↔
      (e.event = "engine_stopped" → own ≠ 0 ∨ other = 0) := by
  rw [countEngines, countEngines]
  by_cases hstarted : e.event = "engine_started"
  · have hne : ¬ e.event = "engine_stopped" := by
      rw [hstarted]
      decide
    rw [if_pos hstarted, if_pos hstarted]
    refine ⟨fun _ h ↦ absurd h hne, fun _ ↦ by omega⟩
  · rw [if_neg hstarted, if_neg hstarted]
    by_cases hstopped : e.event = "engine_stopped"
    · rw [if_pos hstopped, if_pos hstopped]
      refine ⟨fun h _ ↦ by omega, fun h ↦ ?_⟩
      have := h hstopped
      omega
    · rw [if_neg hstopped, if_neg hstopped]
      exact ⟨fun _ h ↦ absurd h hstopped, fun _ ↦ rfl⟩

theorem remaining_le (s : MonitorStore τ) (e : RunEvent τ) (runId : String) :
    s.remaining e runId ≤ s.runEngines runId := by
  rw [remaining]
  split
  · exact Nat.zero_le _
  · exact Nat.le_refl _

theorem remaining_ne_zero : s.remaining e runId ≠ 0 ↔
    e.runState.any (·.isTerminal) = false ∧ s.runEngines runId ≠ 0 := by
  rw [remaining]
  split
  · next h => simp [h]
  · next h => simp [h]

/-- The engines of a worker and its runs after an event. -/
theorem Merged.sum_engines {t : MonitorStore τ} (h : s.Merged e runId t) (key : WorkerKey) :
    (t.runs.entries.map (t.engines key)).sum =
      (if key = e.worker then countEngines e (s.remaining e runId) else 0) +
        s.otherEngines key runId := by
  obtain ⟨run, hruns, hworker⟩ := h.runs
  have hother : t.otherEngines key runId = s.otherEngines key runId := by
    rw [otherEngines, hruns, Dict.erase_set, otherEngines]
    refine congrArg List.sum (List.map_congr_left fun entry hentry ↦ ?_)
    rw [engines, h.runEngines, if_neg (Dict.ne_of_mem_erase hentry), engines]
  rw [MonitorStore.sum_engines t key runId, hother, hruns, Dict.get_set_self, Option.elim_some,
    engines, hworker, h.runEngines, if_pos rfl]
  simp only [eq_comm]

/-- The engines of a worker before an event of a run that no other worker reports. -/
theorem Consistent.workerEngines (h : s.Consistent) (hs : s.Sized) (ha : s.Attributed e)
    (hid : e.runId = some runId) (key : WorkerKey) : s.workerEngines key =
      (if key = e.worker then s.runEngines runId else 0) + s.otherEngines key runId := by
  rw [h key, MonitorStore.sum_engines s key runId]
  cases hrun : s.runs.get runId with
  | none =>
    rw [hs.fresh runId hrun, ite_self]
    rfl
  | some run =>
    rw [Option.elim_some, engines, ha.worker runId run hid hrun]
    simp only [eq_comm]

/-- An event keeps the counts consistent exactly when it does not stop what is not there. -/
theorem Merged.consistent_iff {t : MonitorStore τ} (h : s.Merged e runId t) (hc : s.Consistent)
    (hs : s.Sized) (ha : s.Attributed e) (hid : e.runId = some runId) :
    t.Consistent ↔ (e.event = "engine_stopped" →
      e.runState.any (·.isTerminal) = false ∧ s.runEngines runId ≠ 0 ∨
        s.otherEngines e.worker runId = 0) := by
  rw [← remaining_ne_zero, ← countEngines_add]
  have hle := remaining_le s e runId
  have hafter : ∀ key, t.workerEngines key = if key = e.worker then
      countEngines e (s.remaining e runId + s.otherEngines e.worker runId)
      else s.otherEngines key runId := by
    intro key
    rw [h.workerEngines key, hc.workerEngines hs ha hid key]
    split
    · next hkey =>
      rw [hkey]
      congr 1
      omega
    · rw [Nat.zero_add]
  refine ⟨fun ht ↦ ?_, fun heq key ↦ ?_⟩
  · have hworker := ht e.worker
    rw [hafter, h.sum_engines, if_pos rfl, if_pos rfl] at hworker
    exact hworker
  · rw [hafter, h.sum_engines]
    split
    · next hkey =>
      rw [hkey]
      exact heq
    · exact (Nat.zero_add _).symm

/-- The sizes after an event of a run that evicts nothing. -/
theorem Merged.sized {t : MonitorStore τ} (h : s.Merged e runId t) (hs : s.Sized) : t.Sized := by
  obtain ⟨run, hruns, -⟩ := h.runs
  refine ⟨h.keepsRuns, h.keepsWorkers, fun other hother ↦ ?_⟩
  rw [hruns, Dict.get_set] at hother
  split at hother
  · cases hother
  · next hne =>
    rw [h.runEngines, if_neg hne]
    exact hs.fresh other hother

/-- A new store is empty. -/
theorem sized_init (maxWorkers maxRuns : Nat) (hworkers : 0 < maxWorkers) (hruns : 0 < maxRuns) :
    (init maxWorkers maxRuns hworkers hruns : MonitorStore τ).Sized :=
  ⟨Nat.zero_le _, Nat.zero_le _, fun _ _ ↦ rfl⟩

/-! ## Runs of the store -/

variable [LinearOrder τ]

/-- The limits of a store that keeps to them. -/
theorem enforceLimits_eq (hruns : s.runs.entries.length ≤ s.maxRuns)
    (hworkers : s.workers.entries.length ≤ s.maxWorkers) : s.enforceLimits = s := by
  have hevict : s.evictRuns s.runs.entries.length = s := by
    cases s.runs.entries.length with
    | zero => rfl
    | succ fuel => rw [evictRuns, if_pos hruns]
  rw [enforceLimits, hevict]
  cases s.workers.entries.length with
  | zero => rfl
  | succ fuel => rw [evictWorkers, if_pos hworkers]

/-- An event of a run that evicts nothing. -/
theorem merged (now : τ) (hid : e.runId = some runId) (ha : s.Attributed e) (hs : s.Sized) :
    s.Merged e runId (s.merge e now).2 := by
  obtain ⟨hruns, hworkers, hmaxRuns, hmaxWorkers⟩ := releaseTerminalEngines_same s e
  obtain ⟨hworkerEngines, hrunEngines⟩ := releaseTerminalEngines_engines (s := s) hid
  rw [merge, hid]
  dsimp only
  have hkeepsRuns := hs.runs
  have hkeepsWorkers := hs.workers
  have hfitsRuns := ha.keepsRuns runId hid
  have hfitsWorkers := ha.keepsWorkers
  rw [← hruns, ← hmaxRuns] at hkeepsRuns hfitsRuns
  rw [← hworkers, ← hmaxWorkers] at hkeepsWorkers hfitsWorkers
  rw [enforceLimits_eq]
  · refine ⟨fun key ↦ ?_, fun other ↦ ?_, ?_, ?_, ?_⟩
    · refine (workerEngines_set rfl key).trans ?_
      rw [hworkerEngines key]
      split
      · next hkey => rw [← hkey, hworkerEngines key, if_pos hkey]
      · rfl
    · refine (runEngines_set rfl other).trans ?_
      rw [show ∀ r, ((s.releaseTerminalEngines e).recordWorker e now).2.runEngines r =
        (s.releaseTerminalEngines e).runEngines r from fun _ ↦ rfl, hrunEngines, if_pos rfl,
        show ((s.releaseTerminalEngines e).recordWorker e now).2.runEngines other =
        (s.releaseTerminalEngines e).runEngines other from rfl, hrunEngines]
      split <;> rfl
    · refine ⟨_, congrArg (Dict.set · runId _) hruns, rfl⟩
    · exact Dict.length_set_le hfitsRuns hkeepsRuns
    · refine Dict.length_set_le (.inl ?_) (Dict.length_set_le hfitsWorkers hkeepsWorkers)
      simp [recordRun, recordWorker]
  · exact Dict.length_set_le hfitsRuns hkeepsRuns
  · refine Dict.length_set_le (.inl ?_) (Dict.length_set_le hfitsWorkers hkeepsWorkers)
    simp [recordRun, recordWorker]

/-- The store after a call is that of before, or that of a merged event. -/
theorem record_cases (now : τ) (hid : e.runId = some runId) (ha : s.Attributed e) (hs : s.Sized) :
    s.accepts e runId = false ∧ (s.record e now).2 = s ∨
      s.accepts e runId = true ∧ s.Merged e runId (s.record e now).2 := by
  rw [record, hid]
  dsimp only
  split
  · next haccepts =>
    have ha' : (s.accept e runId).Attributed e := ⟨ha.run, ha.worker, ha.keepsRuns, ha.keepsWorkers⟩
    have hs' : (s.accept e runId).Sized := ⟨hs.runs, hs.workers, hs.fresh⟩
    obtain ⟨hworkers, hrunEngines, hruns, hkeepsRuns, hkeepsWorkers⟩ :=
      merged now hid ha' hs'
    exact .inr ⟨haccepts, hworkers, hrunEngines, hruns, hkeepsRuns, hkeepsWorkers⟩
  · next haccepts =>
    refine .inl ⟨by simpa using haccepts, ?_⟩
    split <;> rfl

/-- Every sequence of calls on a store with any limits. -/
def machine (τ : Type) [LinearOrder τ] : Machine (MonitorStore τ) (RunEvent τ × τ) where
  init s := ∃ maxWorkers maxRuns maxWorkers_pos maxRuns_pos,
    s = .init maxWorkers maxRuns maxWorkers_pos maxRuns_pos
  step s call := some (s.record call.1 call.2).2

/-- In every run of run-attributed events without eviction that stop only what is there, the
counts are consistent, and the next such event keeps them so exactly when it does that. -/
theorem counts_consistent
    (h : (machine τ).Reach (fun s call ↦ s.Attributed call.1 ∧ s.StopsOne call.1) s) :
    s.Consistent ∧ ∀ e now, s.Attributed e → ((s.record e now).2.Consistent ↔ s.StopsOne e) := by
  have hiff : ∀ u : MonitorStore τ, u.Consistent → u.Sized → ∀ e now, u.Attributed e →
      ((u.record e now).2.Consistent ↔ u.StopsOne e) := by
    intro u hc hs e now ha
    obtain ⟨runId, hid⟩ := Option.ne_none_iff_exists'.mp ha.run
    obtain ⟨haccepts, hsame⟩ | ⟨haccepts, hmerged⟩ := record_cases now hid ha hs
    · rw [hsame]
      refine ⟨fun _ other hother haccepts' ↦ ?_, fun _ ↦ hc⟩
      rw [hid] at hother
      cases hother
      rw [haccepts] at haccepts'
      cases haccepts'
    · rw [hmerged.consistent_iff hc hs ha hid]
      refine ⟨fun hstop other hother _ ↦ ?_, fun hstop ↦ hstop runId hid haccepts⟩
      rw [hid] at hother
      cases hother
      exact hstop
  have hinv : s.Consistent ∧ s.Sized := by
    refine h.invariant (I := fun u : MonitorStore τ ↦ u.Consistent ∧ u.Sized)
      (fun u hinit ↦ ?_) fun u call v _ ih hg hstep ↦ ?_
    · obtain ⟨_, _, _, _, rfl⟩ := hinit
      exact ⟨fun _ ↦ rfl, sized_init _ _ _ _⟩
    · cases hstep
      refine ⟨(hiff u ih.1 ih.2 call.1 call.2 hg.1).mpr hg.2, ?_⟩
      obtain ⟨runId, hid⟩ := Option.ne_none_iff_exists'.mp hg.1.run
      obtain ⟨-, hsame⟩ | ⟨-, hmerged⟩ := record_cases call.2 hid hg.1 ih.2
      · rw [hsame]
        exact ih.2
      · exact hmerged.sized ih.2
  exact ⟨hinv.1, hiff s hinv.1 hinv.2⟩

/-- An event of a worker's run. -/
def engineEvent (eventId : String) (sequence : Nat) (runId : String) (runId_ne : runId ≠ "")
    (event : String) (runState : Option RunState) : RunEvent Nat where
  eventId := eventId
  sequence := sequence
  workerId := "worker"
  instanceId := "instance"
  runId := some runId
  taskId := none
  workerType := "crawler"
  event := event
  timestamp := sequence
  workerState := none
  runState := runState
  spiderName := none
  counters := .empty
  detail := none
  runId_ne h := runId_ne (Option.some.inj h)

/-- The first engine of a run starts. -/
def engineStarted (runId : String) (runId_ne : runId ≠ "") : RunEvent Nat :=
  engineEvent (runId ++ "+") 1 runId runId_ne "engine_started" (some .running)

/-- The last engine of a run stops, as the crawler's extension reports it. -/
def engineStopped (runId : String) (runId_ne : runId ≠ "") : RunEvent Nat :=
  engineEvent (runId ++ "-") 2 runId runId_ne "engine_stopped" (some .completed)

/-- A store that keeps two runs. -/
def smallStore : MonitorStore Nat := .init 1 2 (by decide) (by decide)

/-- A run without others on its worker is counted right. -/
theorem counts_consistent_engineStopped :
    ((smallStore.record (engineStarted "one" (by decide)) 1).2.record
      (engineStopped "one" (by decide)) 2).2.Consistent := by
  refine (counts_consistent (.step (e := (engineStopped "one" (by decide), 2))
    (.step (e := (engineStarted "one" (by decide), 1)) (.init ⟨1, 2, by decide, by decide, rfl⟩)
      ⟨⟨by decide, fun _ _ _ h ↦ ?_, fun _ _ ↦ .inr (by decide), .inr (by decide)⟩,
        fun _ _ _ h ↦ ?_⟩ rfl)
    ⟨⟨by decide, fun _ _ hid h ↦ ?_, fun _ _ ↦ .inr (by decide), .inl (by decide)⟩,
      fun _ hid _ _ ↦ .inr ?_⟩ rfl)).1
  · cases h
  · exact absurd h (by decide)
  · cases hid
    cases h
    rfl
  · cases hid
    rfl

/-- Two runs on one worker, of which the first ends. -/
def runsOnOneWorker : MonitorStore Nat :=
  (((smallStore.record (engineStarted "one" (by decide)) 1).2.record
    (engineStarted "two" (by decide)) 2).2.record (engineStopped "one" (by decide)) 3).2

/-- Its end takes an engine of the other away. -/
theorem completed_run_stops_twice : ¬ ∀ s : MonitorStore Nat,
    (machine Nat).Reach (fun s call ↦ s.Attributed call.1) s → s.Consistent := by
  intro h
  have hreached : (machine Nat).Reach (fun s call ↦ s.Attributed call.1) runsOnOneWorker := by
    refine .step (e := (engineStopped "one" (by decide), 3))
      (.step (e := (engineStarted "two" (by decide), 2))
        (.step (e := (engineStarted "one" (by decide), 1))
          (.init ⟨1, 2, by decide, by decide, rfl⟩)
          ⟨by decide, fun _ _ _ hrun ↦ ?_, fun _ _ ↦ .inr (by decide), .inr (by decide)⟩ rfl)
        ⟨by decide, fun _ _ hid hrun ↦ ?_, fun _ _ ↦ .inr (by decide), .inl (by decide)⟩ rfl)
      ⟨by decide, fun _ _ hid hrun ↦ ?_, fun _ hid ↦ .inl ?_, .inl (by decide)⟩ rfl
    · cases hrun
    · cases hid
      cases hrun
    · cases hid
      cases hrun
      rfl
    · cases hid
      decide
  exact absurd (h runsOnOneWorker hreached ("worker", "instance")) (by decide)

end MonitorStore
end ScrapyCffi.Monitoring
