import Mathlib.Data.List.Sort
import Mathlib.Order.Basic
import ScrapyCffi.Base.Dict

/-!
# The monitoring store

`MonitorStore.record` (`monitoring/store.py:17–208`) with the events and snapshots it reads and
writes (`runtime/state.py:88–104`, `monitoring/models.py`). Times are compared only, so they are of
any linear order; `now` is what `time.time()` returns during a call.
-/

namespace ScrapyCffi.Monitoring

open ScrapyCffi.Base

/-- `WorkerState`. -/
inductive WorkerState
  | registered
  | starting
  | running
  | draining
  | stopped
  deriving DecidableEq

/-- `WorkerAvailability`. -/
inductive WorkerAvailability
  | online
  | unreachable
  deriving DecidableEq

/-- `RunState`. -/
inductive RunState
  | accepted
  | starting
  | running
  | stopping
  | completed
  | failed
  | cancelled
  | killed
  deriving DecidableEq

/-- The states in which a run is over. -/
def RunState.isTerminal : RunState → Bool
  | .completed | .failed | .cancelled | .killed => true
  | .accepted | .starting | .running | .stopping => false

/-- A worker id and an instance id. -/
abbrev WorkerKey := String × String

variable (τ : Type)

/-- `RunEvent`; a run id has at least one character. -/
structure RunEvent where
  eventId : String
  sequence : Nat
  workerId : String
  instanceId : String
  runId : Option String
  taskId : Option String
  workerType : String
  event : String
  timestamp : τ
  workerState : Option WorkerState
  runState : Option RunState
  spiderName : Option String
  counters : Dict String Int
  detail : Option String
  runId_ne : runId ≠ some ""

/-- `WorkerSnapshot`. -/
structure WorkerSnapshot where
  workerId : String
  instanceId : String
  workerType : String
  status : WorkerState
  availability : WorkerAvailability
  lastEvent : String
  lastSeen : τ
  observedAt : τ
  activeRuns : Nat
  spiders : List String
  counters : Dict String Int
  detail : Option String

/-- `RunSnapshot`. -/
structure RunSnapshot where
  runId : String
  workerId : String
  instanceId : String
  taskId : Option String
  workerType : String
  state : RunState
  lastEvent : String
  lastSeen : τ
  observedAt : τ
  sequence : Nat
  spiders : List String
  counters : Dict String Int
  detail : Option String

/-- `MonitorStore`, with positive limits. -/
structure MonitorStore where
  maxWorkers : Nat
  maxRuns : Nat
  workers : Dict WorkerKey (WorkerSnapshot τ)
  runs : Dict String (RunSnapshot τ)
  activeEngines : Dict WorkerKey Nat
  runActiveEngines : Dict String Nat
  runEventIds : Dict String String
  maxWorkers_pos : 0 < maxWorkers
  maxRuns_pos : 0 < maxRuns

variable {τ}

/-- The worker instance that reports an event. -/
def RunEvent.worker (e : RunEvent τ) : WorkerKey := (e.workerId, e.instanceId)

/-- The worker instance that reported a run last. -/
def RunSnapshot.worker (run : RunSnapshot τ) : WorkerKey := (run.workerId, run.instanceId)

namespace MonitorStore

/-- A new store. -/
def init (maxWorkers maxRuns : Nat) (maxWorkers_pos : 0 < maxWorkers) (maxRuns_pos : 0 < maxRuns) :
    MonitorStore τ where
  maxWorkers := maxWorkers
  maxRuns := maxRuns
  workers := .empty
  runs := .empty
  activeEngines := .empty
  runActiveEngines := .empty
  runEventIds := .empty
  maxWorkers_pos := maxWorkers_pos
  maxRuns_pos := maxRuns_pos

/-- Whether `_accept_run_event` returns `True` for an event of this run. -/
def accepts (s : MonitorStore τ) (e : RunEvent τ) (runId : String) : Bool :=
  if s.runEventIds.get runId = some e.eventId then false
  else
    match s.runs.get runId with
    | some previous => !(decide (e.sequence > 0) && decide (e.sequence ≤ previous.sequence))
    | none => true

/-- `_accept_run_event` of an event that is accepted. -/
def accept (s : MonitorStore τ) (e : RunEvent τ) (runId : String) : MonitorStore τ :=
  { s with runEventIds := s.runEventIds.set runId e.eventId }

/-- `_active_engines.get(key, 0)`. -/
def workerEngines (s : MonitorStore τ) (key : WorkerKey) : Nat := (s.activeEngines.get key).getD 0

/-- `_run_active_engines.get(run_id, 0)`. -/
def runEngines (s : MonitorStore τ) (runId : String) : Nat :=
  (s.runActiveEngines.get runId).getD 0

/-- `_release_terminal_engines`. -/
def releaseTerminalEngines (s : MonitorStore τ) (e : RunEvent τ) : MonitorStore τ :=
  match e.runId with
  | none => s
  | some runId =>
    if e.runState.any (·.isTerminal) ∧ s.runEngines runId ≠ 0 then
      { s with
        activeEngines := s.activeEngines.set e.worker
          (s.workerEngines e.worker - s.runEngines runId)
        runActiveEngines := s.runActiveEngines.set runId 0 }
    else s

/-- The number of engines after an event. -/
def countEngines (e : RunEvent τ) (activeEngines : Nat) : Nat :=
  if e.event = "engine_started" then activeEngines + 1
  else if e.event = "engine_stopped" then activeEngines - 1
  else activeEngines

/-- `_merge_spiders`. -/
def mergeSpiders (spiders : List String) (spiderName : Option String) : List String :=
  let merged := match spiderName with
    | some name => if name ≠ "" ∧ name ∉ spiders then spiders ++ [name] else spiders
    | none => spiders
  merged.insertionSort (· ≤ ·)

/-- The status of a worker after an event. -/
def workerStatus (e : RunEvent τ) (previous : WorkerState) (activeEngines : Nat) : WorkerState :=
  match e.workerState with
  | some state => state
  | none =>
    if e.event = "engine_started" ∨ e.event = "spider_opened" then .running
    else if e.event = "engine_stopped" then if activeEngines ≠ 0 then .running else .stopped
    else previous

/-- `_record_worker`, with the snapshot it returns. -/
def recordWorker (s : MonitorStore τ) (e : RunEvent τ) (now : τ) :
    WorkerSnapshot τ × MonitorStore τ :=
  let previous := s.workers.get e.worker
  let activeEngines := countEngines e (s.workerEngines e.worker)
  let snapshot : WorkerSnapshot τ :=
    { workerId := e.workerId
      instanceId := e.instanceId
      workerType := e.workerType
      status := workerStatus e (previous.elim .registered (·.status)) activeEngines
      availability := .online
      lastEvent := e.event
      lastSeen := e.timestamp
      observedAt := now
      activeRuns := previous.elim 0 (·.activeRuns)
      spiders := mergeSpiders (previous.elim [] (·.spiders)) e.spiderName
      counters := e.counters
      detail := e.detail }
  (snapshot, { s with
    activeEngines := s.activeEngines.set e.worker activeEngines
    workers := s.workers.set e.worker snapshot })

/-- The state of a run after an event. -/
def nextRunState (e : RunEvent τ) (previous : RunState) (activeEngines : Nat) : RunState :=
  match e.runState with
  | some state => state
  | none =>
    if e.event = "engine_started" ∨ e.event = "spider_opened" then .running
    else if e.event = "engine_stopped" ∧ activeEngines = 0 then .completed
    else previous

/-- `_record_run` of an event of this run. -/
def recordRun (s : MonitorStore τ) (e : RunEvent τ) (runId : String) (now : τ) : MonitorStore τ :=
  let previous := s.runs.get runId
  let activeEngines := countEngines e (s.runEngines runId)
  let snapshot : RunSnapshot τ :=
    { runId
      workerId := e.workerId
      instanceId := e.instanceId
      taskId := e.taskId
      workerType := e.workerType
      state := nextRunState e (previous.elim .accepted (·.state)) activeEngines
      lastEvent := e.event
      lastSeen := e.timestamp
      observedAt := now
      sequence := max e.sequence (previous.elim 0 (·.sequence))
      spiders := mergeSpiders (previous.elim [] (·.spiders)) e.spiderName
      counters := e.counters
      detail := e.detail }
  { s with
    runActiveEngines := s.runActiveEngines.set runId activeEngines
    runs := s.runs.set runId snapshot }

/-- `_count_active_runs`. -/
def countActiveRuns (s : MonitorStore τ) (key : WorkerKey) : Nat :=
  (s.runs.entries.filter fun run ↦ run.2.worker = key ∧ run.2.state.isTerminal = false).length

variable [LinearOrder τ]

/-- `min` of a dictionary's keys by a pair of a Boolean and a time: the first of the least. -/
def oldest {κ α : Type} (age : α → Bool × τ) (entries : List (κ × α)) : Option κ :=
  match entries with
  | [] => none
  | entry :: rest =>
    some (rest.foldl (fun best other ↦
      let (a, b) := (age other.2, age best.2)
      if a.1 < b.1 ∨ a.1 = b.1 ∧ a.2 < b.2 then other else best) entry).1

/-- The first loop of `_enforce_limits`, with a bound on its rounds. -/
def evictRuns (s : MonitorStore τ) : Nat → MonitorStore τ
  | 0 => s
  | fuel + 1 =>
    if s.runs.entries.length ≤ s.maxRuns then s
    else
      match oldest (fun run ↦ (!run.state.isTerminal, run.observedAt)) s.runs.entries with
      | none => s
      | some runId =>
        evictRuns { s with
          runs := s.runs.erase runId
          runActiveEngines := s.runActiveEngines.erase runId
          runEventIds := s.runEventIds.erase runId } fuel

/-- The second loop of `_enforce_limits`, with a bound on its rounds. -/
def evictWorkers (s : MonitorStore τ) : Nat → MonitorStore τ
  | 0 => s
  | fuel + 1 =>
    if s.workers.entries.length ≤ s.maxWorkers then s
    else
      match oldest (fun worker ↦ (decide (worker.status ≠ .stopped), worker.observedAt))
          s.workers.entries with
      | none => s
      | some key =>
        evictWorkers { s with
          workers := s.workers.erase key
          activeEngines := s.activeEngines.erase key } fuel

/-- `_enforce_limits`; every round of a loop takes an entry away. -/
def enforceLimits (s : MonitorStore τ) : MonitorStore τ :=
  let s := s.evictRuns s.runs.entries.length
  s.evictWorkers s.workers.entries.length

/-- `record` of an event that is accepted, or has no run. -/
def merge (s : MonitorStore τ) (e : RunEvent τ) (now : τ) : WorkerSnapshot τ × MonitorStore τ :=
  let recorded := (s.releaseTerminalEngines e).recordWorker e now
  match e.runId with
  | none => (recorded.1, recorded.2.enforceLimits)
  | some runId =>
    let s := recorded.2.recordRun e runId now
    let worker := { recorded.1 with activeRuns := s.countActiveRuns e.worker }
    (worker, ({ s with workers := s.workers.set e.worker worker } : MonitorStore τ).enforceLimits)

/-- `record`: the snapshot it returns or the key of its `KeyError`, and the store after it. -/
def record (s : MonitorStore τ) (e : RunEvent τ) (now : τ) :
    Except WorkerKey (WorkerSnapshot τ) × MonitorStore τ :=
  match e.runId with
  | none => ((s.merge e now).map .ok id)
  | some runId =>
    if s.accepts e runId then ((s.accept e runId).merge e now).map .ok id
    else
      match s.workers.get e.worker with
      | some worker => (.ok worker, s)
      | none => (.error e.worker, s)

end MonitorStore
end ScrapyCffi.Monitoring
