import ScrapyCffi.Base.Counter
import ScrapyCffi.Base.Machine

/-!
# The task manager

`TaskManager` (`scrapy_cffi/core/tasks.py:11–156,292–315`): `create`, the body `wrapped` of a
managed task, `cancel_all` and `wait_for_object_idle`. The sections under `self.lock` never await,
so that no task waits for this lock and each section is one step. The counters go up in `create`
and down in the `finally` of `wrapped`, inside the global lock.
-/

namespace ScrapyCffi.Tasks

open ScrapyCffi.Base

/-- Where a managed task is: before its first step, waiting for the global lock, or inside the
`try` of `wrapped`. -/
inductive Phase
  | created
  | waiting
  | running
  deriving DecidableEq, Repr

/-- A managed task that has not ended: `get_func_name()` and `obj_id` of its `CallFunction`, and
whether a cancellation is on its way. -/
structure Task where
  identity : Nat
  name : String
  objId : Option Nat
  phase : Phase
  cancelling : Bool
  deriving DecidableEq, Repr

/-- `TaskManager`. An event is `none` until it is created and otherwise tells whether it is set.
`limit` is the number of permits of the global lock, `blocked` the owners in whose
`wait_for_object_idle` some caller waits, and `spawned` the number of tasks so far. -/
structure State where
  stopEvent : Bool
  activeTasks : Int
  activeTaskNames : String → Option Int
  activeObjectTasks : Nat → Option Int
  objectIdleEvents : Nat → Option Bool
  objectActivityEvents : Nat → Option Bool
  tasksDoneEvent : Bool
  errorEvent : Bool
  limit : Option Nat
  tasks : List Task
  blocked : List Nat
  spawned : Nat

/-- `active_tasks` of a new manager. -/
def initialTasks (isDistributed : Bool) : Int := if isDistributed then 1 else 0

/-- `__init__`. -/
def State.start (isDistributed : Bool) (limit : Option Nat) : State where
  stopEvent := false
  activeTasks := initialTasks isDistributed
  activeTaskNames _ := none
  activeObjectTasks _ := none
  objectIdleEvents _ := none
  objectActivityEvents _ := none
  tasksDoneEvent := true
  errorEvent := false
  limit
  tasks := []
  blocked := []
  spawned := 0

/-- The first section of `create` under the lock. -/
def State.countUp (s : State) (name : String) (objId : Option Nat) : State :=
  let t := { s with
    activeTasks := s.activeTasks + 1
    activeTaskNames := increment s.activeTaskNames name
    tasksDoneEvent := false }
  match objId with
  | none => t
  | some owner => { t with
      activeObjectTasks := increment s.activeObjectTasks owner
      objectIdleEvents := Function.update s.objectIdleEvents owner (some false)
      objectActivityEvents := Function.update s.objectActivityEvents owner (some true) }

/-- The section that ends a task. Setting an idle event wakes the callers that wait for it. -/
def State.countDown (s : State) (name : String) (objId : Option Nat) : State :=
  let t := { s with
    activeTasks := s.activeTasks - 1
    activeTaskNames := decrement s.activeTaskNames name
    tasksDoneEvent := s.tasksDoneEvent || decide (s.activeTasks - 1 ≤ 0) }
  match objId with
  | none => t
  | some owner =>
    let t := { t with
      activeObjectTasks := decrement s.activeObjectTasks owner
      objectActivityEvents := Function.update s.objectActivityEvents owner (some true) }
    if (s.activeObjectTasks owner).getD 1 - 1 ≤ 0 then { t with
      objectIdleEvents := Function.update s.objectIdleEvents owner (some true)
      blocked := s.blocked.filter (· ≠ owner) }
    else t

/-- `create`; `spawns` says that `loop.create_task` returns. -/
def State.create (s : State) (name : String) (objId : Option Nat) (spawns : Bool) : State :=
  if s.stopEvent then s
  else
    let t := s.countUp name objId
    if spawns then { t with
      tasks := ⟨s.spawned, name, objId, .created, false⟩ :: s.tasks
      spawned := s.spawned + 1 }
    else t.countDown name objId

/-- Whether the global lock has a permit left. -/
def State.free (s : State) : Bool :=
  match s.limit with
  | none => true
  | some limit => (s.tasks.filter (·.phase = .running)).length < limit

/-- Replace a task. -/
def State.replace (s : State) (task changed : Task) : State :=
  { s with tasks := changed :: s.tasks.erase task }

/-- The first step of a task, or the step of one that waits for the global lock, when no
cancellation is on its way. -/
def State.enter (s : State) (task : Task) : Option State :=
  if task ∈ s.tasks ∧ task.cancelling = false ∧ task.phase ≠ .running then
    some (s.replace task { task with phase := if s.free then .running else .waiting })
  else none

/-- `task.cancel()`, also from `cancel_all`. -/
def State.cancel (s : State) (task : Task) : Option State :=
  if task ∈ s.tasks then some (s.replace task { task with cancelling := true }) else none

/-- A cancelled task ends before it has entered its `try`. -/
def State.drop (s : State) (task : Task) : Option State :=
  if task ∈ s.tasks ∧ task.cancelling = true ∧ task.phase ≠ .running then
    some { s with tasks := s.tasks.erase task }
  else none

/-- The function of a task catches its cancellation. -/
def State.swallow (s : State) (task : Task) : Option State :=
  if task ∈ s.tasks ∧ task.cancelling = true ∧ task.phase = .running then
    some (s.replace task { task with cancelling := false })
  else none

/-- The function of a task returns, raises or is cancelled; `fails` for an exception that sets
`error_event`. -/
def State.finish (s : State) (task : Task) (fails : Bool) : Option State :=
  if task ∈ s.tasks ∧ task.phase = .running then
    some { s.countDown task.name task.objId with
      tasks := s.tasks.erase task
      errorEvent := s.errorEvent || fails }
  else none

/-- `wait_for_object_idle` up to the wait; `true` when it returns at once. -/
def State.waitForObjectIdle (s : State) (owner : Nat) : Bool × State :=
  if (s.activeObjectTasks owner).getD 0 ≤ 0 then (true, s)
  else
    match s.objectIdleEvents owner with
    | some true => (true, s)
    | _ => (false, { s with
        objectIdleEvents := Function.update s.objectIdleEvents owner (some false)
        blocked := owner :: s.blocked })

/-- What happens to the manager and its tasks. -/
inductive Event
  | create (name : String) (objId : Option Nat) (spawns : Bool)
  | enter (task : Task)
  | cancel (task : Task)
  | drop (task : Task)
  | swallow (task : Task)
  | finish (task : Task) (fails : Bool)
  | waitForObjectIdle (owner : Nat)
  | stop
  deriving DecidableEq, Repr

/-- One event. -/
def State.step (s : State) : Event → Option State
  | .create name objId spawns => some (s.create name objId spawns)
  | .enter task => s.enter task
  | .cancel task => s.cancel task
  | .drop task => s.drop task
  | .swallow task => s.swallow task
  | .finish task fails => s.finish task fails
  | .waitForObjectIdle owner => some (s.waitForObjectIdle owner).2
  | .stop => some { s with stopEvent := true }

/-- Every interleaving. -/
def machine (isDistributed : Bool) (limit : Option Nat) : Machine State Event where
  init s := s = State.start isDistributed limit
  step := State.step

end ScrapyCffi.Tasks
