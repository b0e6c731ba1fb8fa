import ScrapyCffi.Tasks.Covering

/-!
# Back-pressure of the downloader

`_wait_for_downloader_capacity`, the scheduler loops, `process_downloadInterceptor_chain` with a
request and the creation of `process_downloader` (`scrapy_cffi/core/engine.py:39–44,92–96,212–242,
340–351`) over the `TaskManager` that the engines share. A loop runs without a pause from a pass of
the check to `scheduler.get`, and from its answer to the next check; the check counts the tasks of
`process_downloader`, and what a loop creates is a task of the request interceptors.
-/

namespace ScrapyCffi.Backpressure

open ScrapyCffi.Base ScrapyCffi.Tasks

/-- What an engine is built with: its `id`, the settings it reads, whether the run is distributed
and the permits of the global lock. -/
structure Setup where
  owner : Nat
  maxConcurrentReq : Option Nat
  maxSchedulerLoopNum : Nat
  isDistributed : Bool
  limit : Option Nat
  owner_ne_zero : owner ≠ 0

namespace Setup

/-- `max_inflight_downloader_tasks`; `engine.py:39–44`. -/
def maxInflightDownloaderTasks (x : Setup) : Option Nat :=
  x.maxConcurrentReq.map fun base ↦ max (base * 2) 50

/-- `CallFunction(func=self.scheduler_loop)`; `engine.py:52–55,92–96`. -/
def schedulerLoop (x : Setup) : CallFunction where
  funcName := if x.isDistributed then "_distributed_scheduler_loop" else "_local_scheduler_loop"
  objId := some x.owner
  plain := by cases x.isDistributed <;> decide

/-- `CallFunction(func=self.process_downloadInterceptor_chain, …)`. -/
def processDownloadInterceptorChain (x : Setup) : CallFunction where
  funcName := "process_downloadInterceptor_chain"
  objId := some x.owner
  plain := by decide

/-- The name of a function has no bracket. -/
theorem plain_process_downloader : '[' ∉ "process_downloader".toList := by decide

/-- `CallFunction(func=self.process_downloader, …)`. -/
def processDownloader (x : Setup) : CallFunction where
  funcName := "process_downloader"
  objId := some x.owner
  plain := plain_process_downloader

/-- What `_wait_for_downloader_capacity` waits for, unless there is no limit. -/
def capacity (x : Setup) : Option Condition :=
  x.maxInflightDownloaderTasks.map fun limit : Nat ↦
    .countBelow [x.processDownloader.funcName] limit

end Setup

/-- Where a scheduler loop is: before the check of `stop_event`, in
`_wait_for_downloader_capacity`, or in `scheduler.get`. -/
inductive Place
  | head
  | waiting
  | getting
  deriving DecidableEq

/-- A scheduler loop: its managed task and where it is. -/
structure Loop where
  identity : Nat
  place : Place
  deriving DecidableEq

/-- The manager and its waiters, the loops of the engine and how many `start` has created, and the
managed tasks in which a request is in its interceptors. -/
structure State where
  activity : Activity
  loops : List Loop
  started : Nat
  chains : List Nat

/-- The engine before `start`. -/
def State.start (x : Setup) : State := ⟨.start x.isDistributed x.limit, [], 0, []⟩

/-- A managed task that goes on: inside its `try`, with no cancellation on its way. -/
def State.Runs (s : State) (task : Tasks.Task) : Prop :=
  task ∈ s.activity.manager.tasks ∧ task.phase = .running ∧ task.cancelling = false

instance (s : State) (task : Tasks.Task) : Decidable (s.Runs task) := inferInstanceAs <|
  Decidable (task ∈ s.activity.manager.tasks ∧ task.phase = .running ∧ task.cancelling = false)

/-- `start` creates one more of its loops; `engine.py:91–96`. -/
def State.startLoop (x : Setup) (s : State) (spawns : Bool) : Option State :=
  if s.started < x.maxSchedulerLoopNum then
    some { s with
      activity := s.activity.create x.schedulerLoop spawns
      loops := if s.activity.manager.stopEvent || !spawns then s.loops
        else ⟨s.activity.manager.spawned, .head⟩ :: s.loops
      started := s.started + 1 }
  else none

/-- A loop goes on at another place. -/
def State.move (s : State) (loop : Loop) (place : Place) : State :=
  { s with loops := ⟨loop.identity, place⟩ :: s.loops.erase loop }

/-- Whether `_wait_for_downloader_capacity` returns. -/
def State.passes (x : Setup) (s : State) : Bool :=
  match x.capacity with
  | none => true
  | some condition => s.activity.holds x.owner condition

/-- `_wait_for_downloader_capacity`: a round of the check. -/
def State.waitForDownloaderCapacity (x : Setup) (s : State) (loop : Loop) : State :=
  { s.move loop (if s.passes x then .getting else .waiting) with
    activity := match x.capacity with
      | none => s.activity
      | some condition => s.activity.check x.owner condition }

/-- `while not self.stop_event.is_set()` and the first round of the check. -/
def State.check (x : Setup) (s : State) (task : Tasks.Task) : Option State :=
  if s.Runs task ∧ ⟨task.identity, .head⟩ ∈ s.loops then
    if s.activity.manager.stopEvent then
      some { s with loops := s.loops.erase ⟨task.identity, .head⟩ }
    else some (s.waitForDownloaderCapacity x ⟨task.identity, .head⟩)
  else none

/-- A waiter less. -/
def State.leaveEvent (s : State) (w : Tasks.Waiter) : State :=
  { s with activity := { s.activity with waiters := s.activity.waiters.erase w } }

/-- A loop that was woken checks again. -/
def State.resume (x : Setup) (s : State) (task : Tasks.Task) : Option State :=
  x.capacity.bind fun condition ↦
    if s.Runs task ∧ ⟨task.identity, .waiting⟩ ∈ s.loops ∧
        ⟨x.owner, condition, true⟩ ∈ s.activity.waiters then
      some ((s.leaveEvent ⟨x.owner, condition, true⟩).waitForDownloaderCapacity x
        ⟨task.identity, .waiting⟩)
    else none

/-- A loop that waits is cancelled. -/
def State.abandon (x : Setup) (s : State) (task : Tasks.Task) (woken : Bool) : Option State :=
  x.capacity.bind fun condition ↦
    if (task ∈ s.activity.manager.tasks ∧ task.phase = .running ∧ task.cancelling = true) ∧
        ⟨task.identity, .waiting⟩ ∈ s.loops ∧
        ⟨x.owner, condition, woken⟩ ∈ s.activity.waiters then
      some { s.leaveEvent ⟨x.owner, condition, woken⟩ with
        loops := s.loops.erase ⟨task.identity, .waiting⟩ }
    else none

/-- `scheduler.get` answers with a request or with anything else, and a request gets the task of
its interceptors; when the event loop does not take that task, the loop ends.
`engine.py:226–230,238–240`. -/
def State.get (x : Setup) (s : State) (task : Tasks.Task) (isRequest spawns : Bool) :
    Option State :=
  if s.Runs task ∧ ⟨task.identity, .getting⟩ ∈ s.loops then
    if !isRequest || s.activity.manager.stopEvent then some (s.move ⟨task.identity, .getting⟩ .head)
    else if spawns then some { s.move ⟨task.identity, .getting⟩ .head with
      activity := s.activity.create x.processDownloadInterceptorChain spawns
      chains := s.activity.manager.spawned :: s.chains }
    else some { s with
      activity := s.activity.create x.processDownloadInterceptorChain spawns
      loops := s.loops.erase ⟨task.identity, .getting⟩ }
  else none

/-- The interceptors of a request have returned; it `passes` when each of them returned `None`, and
is then given to the downloader. `engine.py:340–351`. -/
def State.intercept (x : Setup) (s : State) (task : Tasks.Task) (passes spawns : Bool) :
    Option State :=
  if s.Runs task ∧ task.identity ∈ s.chains then
    some { s with
      activity := if passes then s.activity.create x.processDownloader spawns else s.activity
      chains := s.chains.erase task.identity }
  else none

/-- A waiter of this engine's check. -/
def Setup.waits (x : Setup) (owner : Nat) (condition : Condition) : Bool :=
  owner = x.owner && x.capacity = some condition

/-- The events of the manager that are left: those of other tasks, engines and waiters. A task of
`process_downloader` is created by `intercept` only, and the waiters of the check are the loops. -/
def State.Foreign (x : Setup) (s : State) : ActivityEvent → Prop
  | .create f _ => f.getFuncName ≠ x.processDownloader.getFuncName
  | .wait owner condition => x.waits owner condition = false
  | .resume w => x.waits w.owner w.condition = false
  | .cancel w => x.waits w.owner w.condition = false
  | .manager (.finish task _) => ⟨task.identity, .waiting⟩ ∉ s.loops
  | .manager _ => True

instance (x : Setup) (s : State) : (e : ActivityEvent) → Decidable (s.Foreign x e)
  | .create f _ => inferInstanceAs (Decidable (f.getFuncName ≠ x.processDownloader.getFuncName))
  | .wait owner condition => inferInstanceAs (Decidable (x.waits owner condition = false))
  | .resume w => inferInstanceAs (Decidable (x.waits w.owner w.condition = false))
  | .cancel w => inferInstanceAs (Decidable (x.waits w.owner w.condition = false))
  | .manager (.finish task _) => inferInstanceAs (Decidable (⟨task.identity, .waiting⟩ ∉ s.loops))
  | .manager (.create ..) | .manager (.enter _) | .manager (.cancel _) | .manager (.drop _)
  | .manager (.swallow _) | .manager (.waitForObjectIdle _) | .manager .stop => .isTrue trivial

/-- The task that ends in an event. -/
def ended : ActivityEvent → Option Nat
  | .manager (.finish task _) | .manager (.drop task) => some task.identity
  | _ => none

/-- A task that ends takes its loop or its interceptors along. -/
def State.forget (s : State) (event : ActivityEvent) : State :=
  match ended event with
  | none => s
  | some identity => { s with
      loops := s.loops.filter (·.identity ≠ identity)
      chains := s.chains.filter (· ≠ identity) }

/-- What happens. -/
inductive Event
  | startLoop (spawns : Bool)
  | check (task : Tasks.Task)
  | resume (task : Tasks.Task)
  | abandon (task : Tasks.Task) (woken : Bool)
  | get (task : Tasks.Task) (isRequest spawns : Bool)
  | intercept (task : Tasks.Task) (passes spawns : Bool)
  | activity (event : ActivityEvent)

/-- One event. -/
def State.step (x : Setup) (s : State) : Event → Option State
  | .startLoop spawns => s.startLoop x spawns
  | .check task => s.check x task
  | .resume task => s.resume x task
  | .abandon task woken => s.abandon x task woken
  | .get task isRequest spawns => s.get x task isRequest spawns
  | .intercept task passes spawns => s.intercept x task passes spawns
  | .activity event =>
    if s.Foreign x event then
      (s.activity.step event).map fun activity ↦ { s.forget event with activity }
    else none

/-- Every interleaving. -/
def machine (x : Setup) : Machine State Event where
  init s := s = State.start x
  step := State.step x

/-- The tasks of `process_downloader` that have not ended. -/
def State.live (x : Setup) (s : State) : Nat :=
  s.activity.manager.names.count x.processDownloader.getFuncName

/-- How many loops are in `scheduler.get`. -/
def getting (loops : List Loop) : Nat := loops.countP (·.place = .getting)

/-- The requests that have passed the check and have no task of `process_downloader`: a loop waits
for one, or it is in its interceptors. Nothing more is created once the stop event is set. -/
def State.uncounted (s : State) : Nat :=
  if s.activity.manager.stopEvent then 0 else getting s.loops + s.chains.length

/-- Where a loop passes the check, the requests that passed it before and are not counted are fewer
than the free places and the loops. -/
def Roomy (x : Setup) (s : State) : Event → Prop
  | .check _ | .resume _ => s.passes x = true → ∀ limit ∈ x.maxInflightDownloaderTasks,
      s.uncounted < (limit - s.live x) + x.maxSchedulerLoopNum
  | _ => True

instance (x : Setup) (s : State) : (e : Event) → Decidable (Roomy x s e)
  | .check _ | .resume _ => inferInstanceAs <| Decidable <| s.passes x = true →
      ∀ limit ∈ x.maxInflightDownloaderTasks,
        s.uncounted < (limit - s.live x) + x.maxSchedulerLoopNum
  | .startLoop _ | .abandon .. | .get .. | .intercept .. | .activity _ => .isTrue trivial

/-! ## What one event does to the requests past the check -/

/-- The downloads and the requests that may become one. -/
def State.total (x : Setup) (s : State) : Nat := s.live x + s.uncounted

variable {x : Setup} {s t : State}

/-- The place of a loop that is taken out. -/
theorem getting_erase {loops : List Loop} {loop : Loop} (h : loop ∈ loops) :
    getting loops = getting (loops.erase loop) + if loop.place = .getting then 1 else 0 := by
  rw [getting, (List.perm_cons_erase h).countP_eq, List.countP_cons, getting]
  simp only [decide_eq_true_eq]

/-- The place of a loop that is put in. -/
theorem getting_cons (loop : Loop) (loops : List Loop) :
    getting (loop :: loops) = getting loops + if loop.place = .getting then 1 else 0 := by
  rw [getting, List.countP_cons, getting]
  simp only [decide_eq_true_eq]

/-- Fewer loops. -/
theorem getting_filter (p : Loop → Bool) (loops : List Loop) :
    getting (loops.filter p) ≤ getting loops := List.filter_sublist.countP_le

/-- Nothing more comes past the check. -/
theorem total_le (hstop : s.activity.manager.stopEvent = true → t.activity.manager.stopEvent = true)
    (hlive : t.live x ≤ s.live x)
    (hpast : getting t.loops + t.chains.length ≤ getting s.loops + s.chains.length) :
    t.total x ≤ s.total x := by
  have huncounted : t.uncounted ≤ s.uncounted := by
    rw [State.uncounted, State.uncounted]
    cases hs : s.activity.manager.stopEvent with
    | true =>
      rw [hstop hs, if_pos rfl]
      exact Nat.zero_le _
    | false =>
      rw [if_neg Bool.false_ne_true]
      split
      · exact Nat.zero_le _
      · exact hpast
  exact Nat.add_le_add hlive huncounted

/-- The creation of any other task. -/
theorem live_create (s : State) {f : CallFunction} (spawns : Bool)
    (hname : f.getFuncName ≠ x.processDownloader.getFuncName) :
    (s.activity.create f spawns).manager.names.count x.processDownloader.getFuncName ≤
      s.live x := by
  have hcount := (s.activity.creates f spawns).count_le x.processDownloader.getFuncName
  rwa [if_neg hname, Nat.add_zero] at hcount

/-- The loops have another name. -/
theorem schedulerLoop_ne (x : Setup) :
    x.schedulerLoop.getFuncName ≠ x.processDownloader.getFuncName := by
  refine getFuncName_ne rfl ?_
  show (if x.isDistributed then _ else _) ≠ "process_downloader"
  split <;> decide

/-- The interceptors have another name. -/
theorem processDownloadInterceptorChain_ne (x : Setup) :
    x.processDownloadInterceptorChain.getFuncName ≠ x.processDownloader.getFuncName :=
  getFuncName_ne rfl (show "process_downloadInterceptor_chain" ≠ "process_downloader" by decide)

/-- A loop is created. -/
theorem total_startLoop {spawns : Bool} (hs : s.startLoop x spawns = some t) :
    t.total x ≤ s.total x := by
  simp only [State.startLoop, Option.ite_none_right_eq_some] at hs
  obtain ⟨_, he⟩ := hs
  cases he
  refine total_le (s.activity.stopEvent_create x.schedulerLoop spawns).trans ?_ ?_
  · exact live_create s spawns (schedulerLoop_ne x)
  · dsimp only
    split
    · exact Nat.le_refl _
    · rw [getting_cons]
      exact Nat.le_refl _

/-- A round of the check changes no task. -/
theorem rests_waitForDownloaderCapacity (s : State) (loop : Loop) :
    s.activity.Rests (s.waitForDownloaderCapacity x loop).activity := by
  rw [State.waitForDownloaderCapacity]
  cases x.capacity with
  | none => exact ⟨rfl, rfl, rfl, rfl⟩
  | some condition => exact s.activity.rests_check x.owner condition

/-- A round of the check. -/
theorem total_waitForDownloaderCapacity {loop : Loop} (hloop : loop ∈ s.loops)
    (hplace : loop.place ≠ .getting) :
    (s.waitForDownloaderCapacity x loop).total x =
      s.total x + if s.passes x && !s.activity.manager.stopEvent then 1 else 0 := by
  have hrests := rests_waitForDownloaderCapacity (x := x) s loop
  have hlive : (s.waitForDownloaderCapacity x loop).live x = s.live x := by
    rw [State.live, State.live, State.names, State.names, hrests.tasks]
  have hgetting : getting (s.waitForDownloaderCapacity x loop).loops =
      getting s.loops + if s.passes x then 1 else 0 := by
    rw [getting_erase hloop, if_neg hplace, Nat.add_zero]
    refine (getting_cons _ _).trans ?_
    cases s.passes x <;> rfl
  rw [State.total, State.total, hlive, State.uncounted, State.uncounted, hrests.stop, hgetting]
  have hchains : (s.waitForDownloaderCapacity x loop).chains = s.chains := rfl
  rw [hchains]
  cases s.activity.manager.stopEvent with
  | true => rw [if_pos rfl, if_pos rfl, Bool.not_true, Bool.and_false, if_neg Bool.false_ne_true]
  | false =>
    rw [if_neg Bool.false_ne_true, if_neg Bool.false_ne_true, Bool.not_false, Bool.and_true]
    omega

/-- A round of the check adds one request at most. -/
theorem total_waitForDownloaderCapacity_le {loop : Loop} (hloop : loop ∈ s.loops)
    (hplace : loop.place ≠ .getting) :
    (s.waitForDownloaderCapacity x loop).total x ≤
      s.total x + if s.passes x then 1 else 0 := by
  rw [total_waitForDownloaderCapacity hloop hplace]
  cases s.passes x with
  | false => exact Nat.le_refl _
  | true =>
    rw [if_pos rfl]
    split <;> omega

/-- A loop checks the stop event and the capacity. -/
theorem total_check {task : Tasks.Task} (hs : s.check x task = some t) :
    t.total x ≤ s.total x + if s.passes x then 1 else 0 := by
  simp only [State.check, Option.ite_none_right_eq_some] at hs
  obtain ⟨⟨_, hloop⟩, he⟩ := hs
  split at he
  · cases he
    refine Nat.le_trans (total_le (s := s) id (Nat.le_refl _) ?_) (Nat.le_add_right ..)
    rw [getting_erase hloop]
    exact Nat.le_refl _
  · cases he
    exact total_waitForDownloaderCapacity_le hloop (show Place.head ≠ .getting by decide)

/-- What the check says does not depend on the waiters. -/
theorem passes_leaveEvent (s : State) (w : Tasks.Waiter) :
    (s.leaveEvent w).passes x = s.passes x := by
  rw [State.passes, State.passes]
  cases x.capacity with
  | none => rfl
  | some condition => exact holds_congr rfl condition

/-- A loop that was woken checks again. -/
theorem total_resume {task : Tasks.Task} (hs : s.resume x task = some t) :
    t.total x ≤ s.total x + if s.passes x then 1 else 0 := by
  obtain ⟨condition, _, hs⟩ := Option.bind_eq_some_iff.mp hs
  simp only [Option.ite_none_right_eq_some] at hs
  obtain ⟨⟨_, hloop, _⟩, he⟩ := hs
  cases he
  rw [← passes_leaveEvent s ⟨x.owner, condition, true⟩]
  exact total_waitForDownloaderCapacity_le (s := s.leaveEvent _) hloop
    (show Place.waiting ≠ .getting by decide)

/-- A loop that waits is cancelled. -/
theorem total_abandon {task : Tasks.Task} {woken : Bool} (hs : s.abandon x task woken = some t) :
    t.total x ≤ s.total x := by
  obtain ⟨condition, _, hs⟩ := Option.bind_eq_some_iff.mp hs
  simp only [Option.ite_none_right_eq_some] at hs
  obtain ⟨⟨_, hloop, _⟩, he⟩ := hs
  cases he
  refine total_le id (Nat.le_refl _) ?_
  rw [getting_erase hloop]
  exact Nat.le_refl _

/-- The answer of `scheduler.get`: a request moves on to its interceptors. -/
theorem total_get {task : Tasks.Task} {isRequest spawns : Bool}
    (hs : s.get x task isRequest spawns = some t) : t.total x ≤ s.total x := by
  have hlive := live_create s spawns (processDownloadInterceptorChain_ne x)
  have hstop := s.activity.stopEvent_create x.processDownloadInterceptorChain spawns
  simp only [State.get, Option.ite_none_right_eq_some] at hs
  obtain ⟨⟨_, hloop⟩, he⟩ := hs
  have herase : getting s.loops = getting (s.loops.erase ⟨task.identity, .getting⟩) + 1 :=
    getting_erase hloop
  have hhead : getting (s.move ⟨task.identity, .getting⟩ .head).loops =
      getting (s.loops.erase ⟨task.identity, .getting⟩) := getting_cons ..
  split at he
  · cases he
    refine total_le id (Nat.le_refl _) ?_
    rw [hhead, herase]
    exact Nat.add_le_add_right (Nat.le_succ _) _
  · split at he
    · cases he
      refine total_le hstop.trans hlive ?_
      rw [List.length_cons, herase]
      show getting (s.move ⟨task.identity, .getting⟩ .head).loops + _ ≤ _
      rw [hhead]
      omega
    · cases he
      refine total_le hstop.trans hlive ?_
      rw [herase]
      exact Nat.add_le_add_right (Nat.le_succ _) _

/-- The interceptors of a request have returned: it is a download now, or never will be. -/
theorem total_intercept {task : Tasks.Task} {passes spawns : Bool}
    (hs : s.intercept x task passes spawns = some t) : t.total x ≤ s.total x := by
  simp only [State.intercept, Option.ite_none_right_eq_some] at hs
  obtain ⟨⟨_, hchain⟩, he⟩ := hs
  have hlength : s.chains.length = (s.chains.erase task.identity).length + 1 :=
    (List.perm_cons_erase hchain).length_eq
  cases he
  cases passes with
  | false => exact total_le id (Nat.le_refl _) (by dsimp only; omega)
  | true =>
    cases hstop : s.activity.manager.stopEvent with
    | true =>
      have hsame : s.activity.create x.processDownloader spawns = s.activity := if_pos hstop
      rw [if_pos rfl, hsame]
      exact total_le id (Nat.le_refl _) (by dsimp only; omega)
    | false =>
      have hcount := (s.activity.creates x.processDownloader spawns).count_le
        x.processDownloader.getFuncName
      rw [if_pos rfl] at hcount
      rw [if_pos rfl, State.total, State.uncounted, Activity.stopEvent_create, hstop,
        if_neg Bool.false_ne_true, State.total, State.uncounted, hstop,
        if_neg Bool.false_ne_true, hlength]
      have hlive : State.live x { s with
          activity := s.activity.create x.processDownloader spawns
          chains := s.chains.erase task.identity } ≤ s.live x + 1 := hcount
      dsimp only
      omega

/-- An event of another task or of the manager. -/
theorem total_activity {event : ActivityEvent} {b : Activity} (hforeign : s.Foreign x event)
    (hs : s.activity.step event = some b) :
    State.total x { s.forget event with activity := b } ≤ s.total x := by
  have hpast : getting (s.forget event).loops + (s.forget event).chains.length ≤
      getting s.loops + s.chains.length := by
    rw [State.forget]
    cases ended event with
    | none => exact Nat.le_refl _
    | some identity => exact Nat.add_le_add (getting_filter ..) (List.length_filter_le ..)
  obtain ⟨f, spawns, rfl, rfl⟩ | ⟨u, hshrinks, hstop, rfl⟩ | hrests := Activity.step_cases hs
  · exact total_le (s.activity.stopEvent_create f spawns).trans (live_create s spawns hforeign)
      hpast
  · exact total_le hstop (hshrinks.count_le _) hpast
  · refine total_le hrests.stop.trans (Nat.le_of_eq ?_) hpast
    rw [State.live, State.live, State.names, State.names, hrests.tasks]

/-- Only a loop that passes the check adds a request. -/
theorem total_step {e : Event} (hs : s.step x e = some t) :
    t.total x ≤ s.total x ∨ (∃ task, e = .check task ∨ e = .resume task) ∧ s.passes x = true ∧
      t.total x ≤ s.total x + 1 := by
  have hcheck : ∀ task, (e = .check task ∨ e = .resume task) →
      t.total x ≤ s.total x + (if s.passes x then 1 else 0) →
      t.total x ≤ s.total x ∨ (∃ task, e = .check task ∨ e = .resume task) ∧ s.passes x = true ∧
        t.total x ≤ s.total x + 1 := by
    intro task he hle
    cases hpasses : s.passes x with
    | false =>
      rw [hpasses] at hle
      exact .inl hle
    | true =>
      rw [hpasses] at hle
      exact .inr ⟨⟨task, he⟩, rfl, hle⟩
  cases e with
  | startLoop spawns => exact .inl (total_startLoop hs)
  | check task => exact hcheck task (.inl rfl) (total_check hs)
  | resume task => exact hcheck task (.inr rfl) (total_resume hs)
  | abandon task woken => exact .inl (total_abandon hs)
  | get task isRequest spawns => exact .inl (total_get hs)
  | intercept task passes spawns => exact .inl (total_intercept hs)
  | activity event =>
    simp only [State.step, Option.ite_none_right_eq_some] at hs
    obtain ⟨hforeign, hs⟩ := hs
    obtain ⟨b, hb, rfl⟩ := Option.map_eq_some_iff.mp hs
    exact .inl (total_activity hforeign hb)

/-! ## What the check says -/

/-- The manager goes on counting every task. -/
theorem sound_step {e : Event} (h : s.activity.Sound) (hs : s.step x e = some t) :
    t.activity.Sound := by
  have hround : ∀ (u : State) (loop : Loop), u.activity.Sound →
      (u.waitForDownloaderCapacity x loop).activity.Sound :=
    fun u loop hu ↦ hu.rests (rests_waitForDownloaderCapacity u loop)
  have hleave : ∀ w, (s.leaveEvent w).activity.Sound := fun _ ↦ ⟨h.covers, h.listed⟩
  cases e with
  | startLoop spawns =>
    simp only [State.step, State.startLoop, Option.ite_none_right_eq_some] at hs
    obtain ⟨_, he⟩ := hs
    cases he
    exact h.create x.schedulerLoop spawns
  | check task =>
    simp only [State.step, State.check, Option.ite_none_right_eq_some] at hs
    obtain ⟨_, he⟩ := hs
    split at he
    · cases he
      exact h
    · cases he
      exact hround s _ h
  | resume task =>
    obtain ⟨condition, _, hs⟩ := Option.bind_eq_some_iff.mp hs
    simp only [Option.ite_none_right_eq_some] at hs
    obtain ⟨_, he⟩ := hs
    cases he
    exact hround _ _ (hleave _)
  | abandon task woken =>
    obtain ⟨condition, _, hs⟩ := Option.bind_eq_some_iff.mp hs
    simp only [Option.ite_none_right_eq_some] at hs
    obtain ⟨_, he⟩ := hs
    cases he
    exact hleave _
  | get task isRequest spawns =>
    simp only [State.step, State.get, Option.ite_none_right_eq_some] at hs
    obtain ⟨_, he⟩ := hs
    split at he
    · cases he
      exact h
    · split at he
      · cases he
        exact h.create x.processDownloadInterceptorChain spawns
      · cases he
        exact h.create x.processDownloadInterceptorChain spawns
  | intercept task passes spawns =>
    simp only [State.step, State.intercept, Option.ite_none_right_eq_some] at hs
    obtain ⟨_, he⟩ := hs
    cases he
    cases passes with
    | false => exact h
    | true => exact h.create x.processDownloader spawns
  | activity event =>
    simp only [State.step, Option.ite_none_right_eq_some] at hs
    obtain ⟨_, hs⟩ := hs
    obtain ⟨b, hb, rfl⟩ := Option.map_eq_some_iff.mp hs
    exact h.step hb

/-- Where the check returns, a place is free. -/
theorem live_lt_of_passes {limit : Nat} (h : s.activity.Sound)
    (hlimit : x.maxInflightDownloaderTasks = some limit) (hpasses : s.passes x = true) :
    s.live x < limit := by
  have hcapacity : x.capacity = some (.countBelow [x.processDownloader.funcName] limit) := by
    rw [Setup.capacity, hlimit, Option.map_some]
  have hholds : s.activity.holds x.owner
      (.countBelow [x.processDownloader.funcName] limit) = true := by
    rwa [State.passes, hcapacity] at hpasses
  have hnamed := named_lt_of_holds h rfl x.owner_ne_zero hholds
  have hcovers := h.covers x.processDownloader.getFuncName
  rw [State.live]
  omega

end ScrapyCffi.Backpressure
