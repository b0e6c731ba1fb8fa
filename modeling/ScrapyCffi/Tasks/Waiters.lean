import Mathlib.Algebra.Order.Ring.Int
import Mathlib.Data.List.Infix
import ScrapyCffi.Base.Separator
import ScrapyCffi.Tasks.Manager

/-!
# Waiting for the activity of an owner

`wait_for_object_quiescent` and `wait_for_object_task_count_below` of `TaskManager`
(`core/tasks.py:158–183,242–266`) share the activity event of an owner, and the names of managed
tasks are those of `CallFunction` (`utils/concurrency.py:288–330`). `set` of an `asyncio.Event`
wakes all that wait for it, and a waiter that is woken checks again when it runs, whatever has
become of the event by then.
-/

namespace ScrapyCffi.Tasks

open ScrapyCffi.Base

/-- `CallFunction`: the `__name__` of a function has no bracket, and `obj_id` is the `id` of the
object that a method is bound to. -/
structure CallFunction where
  funcName : String
  objId : Option Nat
  plain : '[' ∉ funcName.toList

/-- The end of the name of a method of an object. -/
def scope (owner : Nat) : String := "[" ++ toString owner ++ "]"

/-- `get_func_name`. -/
def CallFunction.getFuncName (f : CallFunction) : String :=
  match f.objId with
  | some owner => if owner ≠ 0 then f.funcName ++ scope owner else f.funcName
  | none => f.funcName

/-- `text in name`. -/
def occursIn (text name : String) : Bool := decide (text.toList <:+: name.toList)

/-- What a waiter waits for: `wait_for_object_quiescent` or `wait_for_object_task_count_below`. -/
inductive Condition
  | quiescent (excludePrefixes : List String)
  | countBelow (prefixes : List String) (limit : Int)
  deriving DecidableEq

/-- A caller that awaits the activity event of an owner; it is `woken` when the event was set
since. -/
structure Waiter where
  owner : Nat
  condition : Condition
  woken : Bool
  deriving DecidableEq

/-- The manager, the keys of `active_task_names` in their order, and the waiters. -/
structure Activity where
  manager : State
  taskNames : List String
  waiters : List Waiter

/-- A new manager. -/
def Activity.start (isDistributed : Bool) (limit : Option Nat) : Activity :=
  ⟨.start isDistributed limit, [], []⟩

/-- `active_task_names.get(name, 0)`. -/
def State.named (s : State) (name : String) : Int := (s.activeTaskNames name).getD 0

/-- The items of `active_task_names` that count tasks of an owner. -/
def Activity.items (a : Activity) (owner : Nat) : List (String × Int) :=
  (a.taskNames.filter fun name ↦ 0 < a.manager.named name && occursIn (scope owner) name).map
    fun name ↦ (name, a.manager.named name)

/-- What a waiter checks under the lock. -/
def Activity.holds (a : Activity) (owner : Nat) : Condition → Bool
  | .quiescent excludePrefixes =>
    !(a.items owner).any fun item ↦ !excludePrefixes.any fun p ↦ p.toList.isPrefixOf item.1.toList
  | .countBelow prefixes limit =>
    (((a.items owner).filter fun item ↦ prefixes.any fun p ↦
      p.toList.isPrefixOf item.1.toList).map Prod.snd).sum < limit

/-- One round of a waiter: it returns, or clears the activity event and waits for it. -/
def Activity.check (a : Activity) (owner : Nat) (condition : Condition) : Activity :=
  if a.holds owner condition then a
  else { a with
    manager := { a.manager with
      objectActivityEvents := Function.update a.manager.objectActivityEvents owner (some false) }
    waiters := ⟨owner, condition, false⟩ :: a.waiters }

/-- A waiter of an event that is set is woken. -/
def Waiter.wake (events : Nat → Option Bool) (w : Waiter) : Waiter :=
  if events w.owner = some true then { w with woken := true } else w

/-- The manager has gone on; `names` holds the keys of its dictionary. -/
def Activity.follow (a : Activity) (names : List String) (manager : State) : Activity where
  manager
  taskNames := names.filter fun name ↦ (manager.activeTaskNames name).isSome
  waiters := a.waiters.map (·.wake manager.objectActivityEvents)

/-- `create`. -/
def Activity.create (a : Activity) (f : CallFunction) (spawns : Bool) : Activity :=
  let name := f.getFuncName
  if a.manager.stopEvent then a
  else a.follow (if name ∈ a.taskNames then a.taskNames else a.taskNames ++ [name])
    (a.manager.create name f.objId spawns)

/-- What happens: a task is created, another event of the manager, a caller begins to wait, a woken
waiter runs, a waiter is cancelled. -/
inductive ActivityEvent
  | create (f : CallFunction) (spawns : Bool)
  | manager (event : Event)
  | wait (owner : Nat) (condition : Condition)
  | resume (w : Waiter)
  | cancel (w : Waiter)

/-- One event. -/
def Activity.step (a : Activity) : ActivityEvent → Option Activity
  | .create f spawns => some (a.create f spawns)
  | .manager (.create ..) => none
  | .manager event => (a.manager.step event).map (a.follow a.taskNames)
  | .wait owner condition => some (a.check owner condition)
  | .resume w =>
    if w ∈ a.waiters ∧ w.woken = true then
      some ({ a with waiters := a.waiters.erase w }.check w.owner w.condition)
    else none
  | .cancel w => if w ∈ a.waiters then some { a with waiters := a.waiters.erase w } else none

/-- Every interleaving. -/
def activityMachine (isDistributed : Bool) (limit : Option Nat) :
    Machine Activity ActivityEvent where
  init a := a = Activity.start isDistributed limit
  step := Activity.step

/-- A waiter that was not woken waits for an event that is cleared, and for a condition that does
not hold. -/
def Activity.NoMissedWakeUp (a : Activity) : Prop :=
  ∀ w ∈ a.waiters, w.woken = false →
    a.manager.objectActivityEvents w.owner = some false ∧ a.holds w.owner w.condition = false

/-! ## The names of the tasks of an owner -/

/-- The name of a task shows its owner only. -/
theorem objId_of_occursIn {f : CallFunction} {owner : Nat}
    (h : occursIn (scope owner) f.getFuncName = true) : f.objId = some owner := by
  have hscope : ∀ other : Nat, (scope other).toList =
      '[' :: (Nat.toDigits 10 other ++ [']']) := by
    intro other
    simp [scope]
  have hdigits : ∀ (other : Nat) (c : Char), c.isDigit = false → c ∉ Nat.toDigits 10 other := by
    intro other c hc hm
    rw [Nat.isDigit_of_mem_toDigits (by decide) (by decide) hm] at hc
    cases hc
  have hinfix : (scope owner).toList <:+: f.getFuncName.toList := of_decide_eq_true h
  have hplain : ¬ (scope owner).toList <:+: f.funcName.toList := by
    intro hin
    exact f.plain (hin.subset (by rw [hscope]; exact List.mem_cons_self))
  rw [CallFunction.getFuncName] at hinfix
  split at hinfix
  · next other hobj =>
    split at hinfix
    · rw [hobj, Option.some.injEq]
      rw [String.toList_append, hscope, hscope] at hinfix
      have hsame := infix_enclosed f.plain (hdigits other '[' rfl) (by decide)
        (hdigits other ']' rfl) (hdigits owner ']' rfl) hinfix
      have hback := congrArg (Nat.ofDigitChars 10 · 0) hsame
      simpa [Nat.ofDigitChars_ten_toDigits] using hback.symm
    · exact absurd hinfix hplain
  · exact absurd hinfix hplain

/-- A step that does not set the activity event of an owner, and changes none of its counts. -/
structure Quiet (s t : State) (owner : Nat) : Prop where
  event : t.objectActivityEvents owner = s.objectActivityEvents owner
  names : ∀ name, occursIn (scope owner) name = true →
    t.activeTaskNames name = s.activeTaskNames name

variable {s t u : State} {owner : Nat} {f : CallFunction}

theorem Quiet.trans (h : Quiet s t owner) (h' : Quiet t u owner) : Quiet s u owner where
  event := h'.event.trans h.event
  names name hn := (h'.names name hn).trans (h.names name hn)

/-- The task of another owner is counted. -/
theorem quiet_countUp (s : State) (hne : f.objId ≠ some owner) :
    Quiet s (s.countUp f.getFuncName f.objId) owner := by
  have hnames : ∀ name, occursIn (scope owner) name = true →
      increment s.activeTaskNames f.getFuncName name = s.activeTaskNames name := by
    intro name hname
    refine Function.update_of_ne ?_ _ _
    rintro rfl
    exact hne (objId_of_occursIn hname)
  cases hobj : f.objId with
  | none => exact ⟨rfl, hnames⟩
  | some other =>
    refine ⟨?_, hnames⟩
    refine Function.update_of_ne ?_ _ _
    rintro rfl
    exact hne hobj

/-- The task of another owner has ended. -/
theorem quiet_countDown (s : State) (hne : f.objId ≠ some owner) :
    Quiet s (s.countDown f.getFuncName f.objId) owner := by
  have hnames : ∀ name, occursIn (scope owner) name = true →
      decrement s.activeTaskNames f.getFuncName name = s.activeTaskNames name := by
    intro name hname
    refine Function.update_of_ne ?_ _ _
    rintro rfl
    exact hne (objId_of_occursIn hname)
  cases hobj : f.objId with
  | none => exact ⟨rfl, hnames⟩
  | some other =>
    have hother : owner ≠ other := by
      rintro rfl
      exact hne hobj
    rw [State.countDown]
    dsimp only
    split <;> exact ⟨Function.update_of_ne hother _ _, hnames⟩

/-- A task of the owner is counted. -/
theorem activity_countUp (s : State) (name : String) (owner : Nat) :
    (s.countUp name (some owner)).objectActivityEvents owner = some true :=
  Function.update_self ..

/-- A task of the owner has ended. -/
theorem activity_countDown (s : State) (name : String) (owner : Nat) :
    (s.countDown name (some owner)).objectActivityEvents owner = some true := by
  rw [State.countDown]
  dsimp only
  split <;> exact Function.update_self ..

/-- The tasks have the names and owners of their functions. -/
def State.WellNamed (s : State) : Prop :=
  ∀ task ∈ s.tasks, ∃ f : CallFunction, task.name = f.getFuncName ∧ task.objId = f.objId

/-- `create` is quiet, or sets the event of the owner. -/
theorem create_activity (s : State) (f : CallFunction) (spawns : Bool) (owner : Nat)
    (hstop : s.stopEvent = false) :
    (s.create f.getFuncName f.objId spawns).objectActivityEvents owner = some true ∨
      (Quiet s (s.create f.getFuncName f.objId spawns) owner ∧
        occursIn (scope owner) f.getFuncName = false) := by
  rw [State.create, hstop, if_neg (by decide)]
  by_cases hobj : f.objId = some owner
  · rw [hobj]
    dsimp only
    split
    · exact .inl (activity_countUp s f.getFuncName owner)
    · exact .inl (activity_countDown ..)
  · have hup := quiet_countUp s hobj
    have hname : occursIn (scope owner) f.getFuncName = false := by
      rw [Bool.eq_false_iff]
      exact fun hname ↦ hobj (objId_of_occursIn hname)
    dsimp only
    split
    · exact .inr ⟨⟨hup.event, hup.names⟩, hname⟩
    · exact .inr ⟨hup.trans (quiet_countDown _ hobj), hname⟩

/-- `countUp` and `countDown` leave the tasks as they are. -/
theorem tasks_countUp (s : State) (name : String) (objId : Option Nat) :
    (s.countUp name objId).tasks = s.tasks := by
  cases objId <;> rfl

theorem tasks_countDown (s : State) (name : String) (objId : Option Nat) :
    (s.countDown name objId).tasks = s.tasks := by
  cases objId with
  | none => rfl
  | some owner =>
    rw [State.countDown]
    dsimp only
    split <;> rfl

/-- `create` names its task. -/
theorem State.WellNamed.create (h : s.WellNamed) (f : CallFunction) (spawns : Bool) :
    (s.create f.getFuncName f.objId spawns).WellNamed := by
  rw [State.create]
  split
  · exact h
  · dsimp only
    split
    · intro task htask
      rcases List.mem_cons.mp htask with rfl | htask
      · exact ⟨f, rfl, rfl⟩
      · exact h task htask
    · intro task htask
      rw [tasks_countDown, tasks_countUp] at htask
      exact h task htask

/-- A task that is replaced keeps its name and owner. -/
theorem State.WellNamed.replace (h : s.WellNamed) {task changed : Task} (htask : task ∈ s.tasks)
    (hname : changed.name = task.name) (hobj : changed.objId = task.objId) :
    (s.replace task changed).WellNamed := by
  intro other ho
  rcases List.mem_cons.mp ho with rfl | ho
  · rw [hname, hobj]
    exact h task htask
  · exact h other (List.mem_of_mem_erase ho)

/-- The other events of the manager are quiet, or set the event of the owner. -/
theorem State.WellNamed.step {e : Event} (h : s.WellNamed) (hs : s.step e = some t)
    (hcreate : ∀ name objId spawns, e ≠ .create name objId spawns) : t.WellNamed ∧
      ∀ owner, t.objectActivityEvents owner = some true ∨ Quiet s t owner := by
  cases e with
  | create name objId spawns => exact absurd rfl (hcreate name objId spawns)
  | enter task =>
    rw [State.step, State.enter] at hs
    split at hs
    · next htask =>
      cases hs
      exact ⟨h.replace htask.1 rfl rfl, fun _ ↦ .inr ⟨rfl, fun _ _ ↦ rfl⟩⟩
    · cases hs
  | cancel task =>
    rw [State.step, State.cancel] at hs
    split at hs
    · next htask =>
      cases hs
      exact ⟨h.replace htask rfl rfl, fun _ ↦ .inr ⟨rfl, fun _ _ ↦ rfl⟩⟩
    · cases hs
  | drop task =>
    rw [State.step, State.drop] at hs
    split at hs
    · cases hs
      exact ⟨fun other ho ↦ h other (List.mem_of_mem_erase ho), fun _ ↦ .inr ⟨rfl, fun _ _ ↦ rfl⟩⟩
    · cases hs
  | swallow task =>
    rw [State.step, State.swallow] at hs
    split at hs
    · next htask =>
      cases hs
      exact ⟨h.replace htask.1 rfl rfl, fun _ ↦ .inr ⟨rfl, fun _ _ ↦ rfl⟩⟩
    · cases hs
  | finish task fails =>
    rw [State.step, State.finish] at hs
    split at hs
    · next htask =>
      cases hs
      obtain ⟨f, hname, hobj⟩ := h task htask.1
      refine ⟨fun other ho ↦ h other (List.mem_of_mem_erase ho), fun owner ↦ ?_⟩
      rw [hname, hobj]
      by_cases howner : f.objId = some owner
      · rw [howner]
        exact .inl (activity_countDown ..)
      · have hdown := quiet_countDown s howner
        exact .inr ⟨hdown.event, hdown.names⟩
    · cases hs
  | waitForObjectIdle owner =>
    cases hs
    rw [State.waitForObjectIdle]
    split
    · exact ⟨h, fun _ ↦ .inr ⟨rfl, fun _ _ ↦ rfl⟩⟩
    · split <;> exact ⟨h, fun _ ↦ .inr ⟨rfl, fun _ _ ↦ rfl⟩⟩
  | stop =>
    cases hs
    exact ⟨h, fun _ ↦ .inr ⟨rfl, fun _ _ ↦ rfl⟩⟩

/-! ## The waiters -/

variable {a b : Activity}

/-- The items of an owner after a quiet step. -/
theorem items_follow {names : List String} (h : Quiet a.manager t owner)
    (hnames : names.filter (occursIn (scope owner)) =
      a.taskNames.filter (occursIn (scope owner))) :
    (a.follow names t).items owner = a.items owner := by
  have hnamed : ∀ name, occursIn (scope owner) name = true → t.named name = a.manager.named name :=
    fun name hn ↦ by rw [State.named, h.names name hn, State.named]
  have hkeys : (a.follow names t).taskNames.filter (fun name ↦
      0 < t.named name && occursIn (scope owner) name) =
      (names.filter (occursIn (scope owner))).filter (0 < a.manager.named ·) := by
    rw [Activity.follow, List.filter_filter, List.filter_filter]
    refine List.filter_congr fun name _ ↦ ?_
    cases hn : occursIn (scope owner) name with
    | false => simp
    | true =>
      rw [hnamed name hn, h.names name hn, Bool.and_true]
      cases hentry : a.manager.activeTaskNames name with
      | none => simp [State.named, hentry]
      | some count => simp
  have hbefore : a.items owner = ((a.taskNames.filter (occursIn (scope owner))).filter
      (0 < a.manager.named ·)).map fun name ↦ (name, a.manager.named name) := by
    rw [Activity.items, List.filter_filter]
  rw [hbefore, ← hnames, Activity.items]
  show ((a.follow names t).taskNames.filter fun name ↦
    0 < t.named name && occursIn (scope owner) name).map (fun name ↦ (name, t.named name)) = _
  rw [hkeys]
  refine List.map_congr_left fun name hm ↦ ?_
  rw [hnamed name (List.mem_filter.mp (List.mem_filter.mp hm).1).2]

/-- The conditions of an owner are those of its items. -/
theorem holds_congr (h : b.items owner = a.items owner) (condition : Condition) :
    b.holds owner condition = a.holds owner condition := by
  cases condition <;> simp only [Activity.holds, h]

/-- After the manager has gone on, a waiter that is not woken waits for what it waited for. -/
theorem Activity.NoMissedWakeUp.follow (h : a.NoMissedWakeUp) {names : List String}
    (ht : ∀ owner, t.objectActivityEvents owner = some true ∨ (Quiet a.manager t owner ∧
      names.filter (occursIn (scope owner)) = a.taskNames.filter (occursIn (scope owner)))) :
    (a.follow names t).NoMissedWakeUp := by
  intro after hafter hwoken
  obtain ⟨w, hw, rfl⟩ := List.mem_map.mp hafter
  rw [Waiter.wake] at hwoken ⊢
  split at hwoken
  · cases hwoken
  · next hset =>
    rw [if_neg hset]
    have hquiet := (ht w.owner).resolve_left hset
    obtain ⟨hevent, hholds⟩ := h w hw hwoken
    refine ⟨hquiet.1.event.trans hevent, ?_⟩
    rw [holds_congr (items_follow hquiet.1 hquiet.2), hholds]

/-- A waiter checks its condition and waits when it does not hold. -/
theorem Activity.NoMissedWakeUp.check (h : a.NoMissedWakeUp) (owner : Nat) (condition : Condition) :
    (a.check owner condition).NoMissedWakeUp := by
  rw [Activity.check]
  split
  · exact h
  · next hholds =>
    intro w hw hwoken
    rcases List.mem_cons.mp hw with rfl | hw
    · refine ⟨Function.update_self .., ?_⟩
      have hfalse : a.holds owner condition = false := by simpa using hholds
      exact (holds_congr (a := a) rfl condition).trans hfalse
    · obtain ⟨hevent, hfalse⟩ := h w hw hwoken
      refine ⟨?_, (holds_congr (a := a) rfl w.condition).trans hfalse⟩
      -- the event is cleared once more, or is that of another owner
      show Function.update a.manager.objectActivityEvents owner (some false) w.owner = some false
      by_cases howner : w.owner = owner
      · rw [howner, Function.update_self]
      · rw [Function.update_of_ne howner, hevent]

/-- A check changes no task. -/
theorem tasks_check (a : Activity) (owner : Nat) (condition : Condition) :
    (a.check owner condition).manager.tasks = a.manager.tasks := by
  rw [Activity.check]
  split <;> rfl

/-- An event of the manager alone creates no task. -/
theorem Activity.step_manager {event : Event} (hs : a.step (.manager event) = some b) :
    (∀ name objId spawns, event ≠ .create name objId spawns) ∧
      ∃ t, a.manager.step event = some t ∧ b = a.follow a.taskNames t := by
  have hcreate : ∀ name objId spawns, event ≠ .create name objId spawns := by
    rintro name objId spawns rfl
    cases hs
  have hmap : (a.manager.step event).map (a.follow a.taskNames) = some b := by
    cases event with
    | create name objId spawns => exact absurd rfl (hcreate name objId spawns)
    | enter | cancel | drop | swallow | finish | waitForObjectIdle | stop => exact hs
  obtain ⟨t, ht, hb⟩ := Option.map_eq_some_iff.mp hmap
  exact ⟨hcreate, t, ht, hb.symm⟩

/-- Fewer waiters. -/
theorem Activity.NoMissedWakeUp.erase (h : a.NoMissedWakeUp) (w : Waiter) :
    ({ a with waiters := a.waiters.erase w } : Activity).NoMissedWakeUp :=
  fun other ho ↦ h other (List.mem_of_mem_erase ho)

/-- One event. -/
theorem Activity.NoMissedWakeUp.step {e : ActivityEvent} (h : a.NoMissedWakeUp)
    (hn : a.manager.WellNamed) (hs : a.step e = some b) :
    b.NoMissedWakeUp ∧ b.manager.WellNamed := by
  have hcheck : ∀ (a' : Activity) (owner : Nat) (condition : Condition),
      a'.manager = a.manager → (a'.check owner condition).manager.WellNamed := by
    intro a' owner condition hmanager task htask
    rw [tasks_check, hmanager] at htask
    exact hn task htask
  cases e with
  | create f spawns =>
    cases hs
    rw [Activity.create]
    split
    · exact ⟨h, hn⟩
    · next hstop =>
      refine ⟨h.follow fun owner ↦ ?_, hn.create f spawns⟩
      refine (create_activity a.manager f spawns owner (by simpa using hstop)).imp_right
        fun hq ↦ ⟨hq.1, ?_⟩
      split
      · rfl
      · rw [List.filter_append, List.filter_singleton, hq.2]
        exact List.append_nil _
  | manager event =>
    obtain ⟨hcreate, t, ht, rfl⟩ := Activity.step_manager hs
    obtain ⟨hnamed, hquiet⟩ := hn.step ht hcreate
    exact ⟨h.follow fun owner ↦ (hquiet owner).imp_right fun hq ↦ ⟨hq, rfl⟩, hnamed⟩
  | wait owner condition =>
    cases hs
    exact ⟨h.check owner condition, hcheck a owner condition rfl⟩
  | resume w =>
    rw [Activity.step] at hs
    split at hs
    · cases hs
      exact ⟨(h.erase w).check w.owner w.condition, hcheck _ w.owner w.condition rfl⟩
    · cases hs
  | cancel w =>
    rw [Activity.step] at hs
    split at hs
    · cases hs
      exact ⟨h.erase w, hn⟩
    · cases hs

/-- In every run no waiter that was not woken waits for a condition that holds. -/
theorem no_missed_wake_up (isDistributed : Bool) (limit : Option Nat)
    (h : (activityMachine isDistributed limit).Reachable a) : a.NoMissedWakeUp := by
  have hboth : a.NoMissedWakeUp ∧ a.manager.WellNamed := by
    refine h.invariant (I := fun a ↦ a.NoMissedWakeUp ∧ a.manager.WellNamed) ?_
      fun _ _ _ _ ih _ hs ↦ ih.1.step ih.2 hs
    rintro a rfl
    exact ⟨fun _ hw ↦ (by cases hw), fun _ htask ↦ by cases htask⟩
  exact hboth.1

/-- A download of the object 5. -/
def download : CallFunction := ⟨"process_downloader", some 5, by decide⟩

/-- One waits for fewer than two downloads and one for none, and one of two downloads ends. -/
def twoDownloads : List ActivityEvent :=
  let task : Task := ⟨1, download.getFuncName, some 5, .running, false⟩
  let last : Waiter := ⟨5, .quiescent [], false⟩
  [.create download true, .create download true, .wait 5 (.countBelow ["process_"] 2),
    .wait 5 (.quiescent []), .manager (.enter { task with phase := .created }),
    .manager (.finish task false), .resume ⟨5, .countBelow ["process_"] 2, true⟩,
    .resume { last with woken := true }]

theorem no_missed_wake_up_twoDownloads :
    (((activityMachine false none).run (.start false none) twoDownloads).getD
      (.start false none)).NoMissedWakeUp ∧
    ((activityMachine false none).run (.start false none) twoDownloads).map (·.waiters) =
      some [⟨5, .quiescent [], false⟩] :=
  ⟨no_missed_wake_up false none (.run twoDownloads (.init rfl) rfl), by decide +kernel⟩

end ScrapyCffi.Tasks
