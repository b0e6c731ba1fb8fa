import Mathlib.Algebra.Order.BigOperators.Group.List
import ScrapyCffi.Tasks.Waiters

/-!
# The counters never fall short

`active_task_names` counts every task that has not ended, whatever is cancelled: a task that ends
before it has entered its `try` leaves its count behind, and no count is taken back twice. What
`wait_for_object_task_count_below` adds up is therefore at least the number of live tasks.
-/

namespace ScrapyCffi.Tasks

open ScrapyCffi.Base

variable {s t : State}

/-- The names of the tasks that have not ended. -/
def State.names (s : State) : List String := s.tasks.map Task.name

/-- Every task that has not ended is counted under its name. -/
def State.Covers (s : State) : Prop := ∀ name, (s.names.count name : Int) ≤ s.named name

/-! ## What an event does to the names -/

/-- An event that creates no task: the names stay as they are, or one of them goes, with or without
its count. -/
inductive Shrinks (s t : State) : Prop
  | kept (names : t.names.Perm s.names) (table : t.activeTaskNames = s.activeTaskNames)
  | ended (name : String) (names : s.names.Perm (name :: t.names))
      (table : t.activeTaskNames = decrement s.activeTaskNames name)
  | dropped (name : String) (names : s.names.Perm (name :: t.names))
      (table : t.activeTaskNames = s.activeTaskNames)

/-- A call of `create`: the stop event is set, the task is counted, or its count is taken back. -/
inductive Creates (name : String) (s t : State) : Prop
  | stopped (same : t = s)
  | counted (names : t.names = name :: s.names)
      (table : t.activeTaskNames = increment s.activeTaskNames name)
  | failed (names : t.names = s.names)
      (table : t.activeTaskNames = decrement (increment s.activeTaskNames name) name)

theorem activeTaskNames_countUp (s : State) (name : String) (objId : Option Nat) :
    (s.countUp name objId).activeTaskNames = increment s.activeTaskNames name := by
  cases objId <;> rfl

theorem activeTaskNames_countDown (s : State) (name : String) (objId : Option Nat) :
    (s.countDown name objId).activeTaskNames = decrement s.activeTaskNames name := by
  cases objId with
  | none => rfl
  | some owner =>
    rw [State.countDown]
    dsimp only
    split <;> rfl

/-- `create`. -/
theorem create_creates (s : State) (name : String) (objId : Option Nat) (spawns : Bool) :
    Creates name s (s.create name objId spawns) := by
  rw [State.create]
  split
  · exact .stopped rfl
  · dsimp only
    split
    · refine .counted ?_ (activeTaskNames_countUp s name objId)
      rw [State.names, List.map_cons, State.names]
    · refine .failed ?_ ?_
      · rw [State.names, tasks_countDown, tasks_countUp, State.names]
      · rw [activeTaskNames_countDown, activeTaskNames_countUp]

/-- A task that is replaced keeps its name. -/
theorem names_replace {task changed : Task} (htask : task ∈ s.tasks)
    (hname : changed.name = task.name) : (s.replace task changed).names.Perm s.names := by
  have hperm := (List.perm_cons_erase htask).symm.map Task.name
  rw [List.map_cons] at hperm
  rw [State.names, State.replace, List.map_cons, hname]
  exact hperm

/-- A task that ends takes its name away. -/
theorem names_erase {task : Task} (htask : task ∈ s.tasks) :
    s.names.Perm (task.name :: (s.tasks.erase task).map Task.name) :=
  (List.perm_cons_erase htask).map Task.name

/-- The other events of the manager. -/
theorem step_shrinks {e : Event} (hs : s.step e = some t)
    (hcreate : ∀ name objId spawns, e ≠ .create name objId spawns) : Shrinks s t := by
  cases e with
  | create name objId spawns => exact absurd rfl (hcreate name objId spawns)
  | enter task =>
    simp only [State.step, State.enter, Option.ite_none_right_eq_some] at hs
    obtain ⟨htask, he⟩ := hs
    cases he
    exact .kept (names_replace htask.1 rfl) rfl
  | cancel task =>
    simp only [State.step, State.cancel, Option.ite_none_right_eq_some] at hs
    obtain ⟨htask, he⟩ := hs
    cases he
    exact .kept (names_replace htask rfl) rfl
  | drop task =>
    simp only [State.step, State.drop, Option.ite_none_right_eq_some] at hs
    obtain ⟨htask, he⟩ := hs
    cases he
    exact .dropped task.name (names_erase htask.1) rfl
  | swallow task =>
    simp only [State.step, State.swallow, Option.ite_none_right_eq_some] at hs
    obtain ⟨htask, he⟩ := hs
    cases he
    exact .kept (names_replace htask.1 rfl) rfl
  | finish task fails =>
    simp only [State.step, State.finish, Option.ite_none_right_eq_some] at hs
    obtain ⟨htask, he⟩ := hs
    cases he
    exact .ended task.name (names_erase htask.1) (activeTaskNames_countDown s task.name task.objId)
  | waitForObjectIdle owner =>
    cases hs
    rw [State.waitForObjectIdle]
    split
    · exact .kept (.refl _) rfl
    · split <;> exact .kept (.refl _) rfl
  | stop =>
    cases hs
    exact .kept (.refl _) rfl

/-- A call of `create` adds at most one task, of its own name. -/
theorem Creates.count_le {name : String} (h : Creates name s t) (other : String) :
    t.names.count other ≤ s.names.count other + if name = other then 1 else 0 := by
  cases h with
  | stopped same => exact same ▸ Nat.le_add_right ..
  | counted names _ =>
    rw [names, List.count_cons]
    simp only [beq_iff_eq]
    exact Nat.le_refl _
  | failed names _ => exact names ▸ Nat.le_add_right ..

/-- The other events add none. -/
theorem Shrinks.count_le (h : Shrinks s t) (name : String) :
    t.names.count name ≤ s.names.count name := by
  cases h with
  | kept names _ => exact Nat.le_of_eq (names.count_eq name)
  | ended _ names _ | dropped _ names _ =>
    rw [names.count_eq, List.count_cons]
    exact Nat.le_add_right ..

/-! ## The stop event -/

theorem stopEvent_countUp (s : State) (name : String) (objId : Option Nat) :
    (s.countUp name objId).stopEvent = s.stopEvent := by
  cases objId <;> rfl

theorem stopEvent_countDown (s : State) (name : String) (objId : Option Nat) :
    (s.countDown name objId).stopEvent = s.stopEvent := by
  cases objId with
  | none => rfl
  | some owner =>
    rw [State.countDown]
    dsimp only
    split <;> rfl

/-- `create` does not touch the stop event. -/
theorem stopEvent_create (s : State) (name : String) (objId : Option Nat) (spawns : Bool) :
    (s.create name objId spawns).stopEvent = s.stopEvent := by
  rw [State.create]
  split
  · rfl
  · dsimp only
    split
    · exact stopEvent_countUp s name objId
    · rw [stopEvent_countDown, stopEvent_countUp]

/-- The stop event stays set. -/
theorem stop_of_step {e : Event} (hs : s.step e = some t) (hstop : s.stopEvent = true) :
    t.stopEvent = true := by
  cases e with
  | create name objId spawns =>
    cases hs
    rw [stopEvent_create, hstop]
  | enter task | cancel task | drop task | swallow task =>
    simp only [State.step, State.enter, State.cancel, State.drop, State.swallow,
      Option.ite_none_right_eq_some] at hs
    obtain ⟨_, he⟩ := hs
    cases he
    exact hstop
  | finish task fails =>
    simp only [State.step, State.finish, Option.ite_none_right_eq_some] at hs
    obtain ⟨_, he⟩ := hs
    cases he
    exact (stopEvent_countDown s task.name task.objId).trans hstop
  | waitForObjectIdle owner =>
    cases hs
    rw [State.waitForObjectIdle]
    split
    · exact hstop
    · split <;> exact hstop
  | stop =>
    cases hs
    rfl

/-! ## The counters -/

theorem State.Covers.of_names (h : s.Covers) (hnames : t.names.Perm s.names)
    (htable : t.activeTaskNames = s.activeTaskNames) : t.Covers := by
  intro name
  rw [hnames.count_eq, State.named, htable]
  exact h name

/-- A task that is created is counted. -/
theorem State.Covers.creates (h : s.Covers) {name : String} (hc : Creates name s t) :
    t.Covers := by
  cases hc with
  | stopped same => exact same ▸ h
  | counted names table =>
    intro other
    have hother := h other
    rw [State.named] at hother
    rw [State.named, table, getD_increment, names, List.count_cons]
    by_cases heq : name = other
    · subst heq
      simp only [beq_self_eq_true, if_true]
      omega
    · simp only [beq_iff_eq, if_neg heq, if_neg (Ne.symm heq)]
      omega
  | failed names table =>
    intro other
    have hname := h name
    have hother := h other
    rw [State.named] at hname hother
    have hpos : 0 < (increment s.activeTaskNames name name).getD 0 := by
      rw [getD_increment, if_pos rfl]
      omega
    rw [State.named, table, getD_decrement _ _ _ hpos, getD_increment, names]
    omega

/-- A count is only taken back for a task that has ended. -/
theorem State.Covers.shrinks (h : s.Covers) (hs : Shrinks s t) : t.Covers := by
  cases hs with
  | kept names table => exact h.of_names names table
  | dropped name names table =>
    intro other
    have hother := h other
    rw [names.count_eq, List.count_cons] at hother
    rw [State.named, table]
    rw [State.named] at hother
    omega
  | ended name names table =>
    intro other
    have hname := h name
    have hother := h other
    rw [names.count_eq, List.count_cons, State.named] at hname hother
    rw [beq_self_eq_true, if_pos rfl] at hname
    rw [State.named, table, getD_decrement _ _ _ (by omega)]
    by_cases heq : name = other
    · subst heq
      rw [beq_self_eq_true, if_pos rfl] at hother
      rw [if_pos rfl]
      omega
    · rw [if_neg (by simpa using heq)] at hother
      rw [if_neg (Ne.symm heq)]
      omega

/-! ## The activity -/

/-- No task is created and none ends. -/
structure Activity.Rests (a b : Activity) : Prop where
  tasks : b.manager.tasks = a.manager.tasks
  table : b.manager.activeTaskNames = a.manager.activeTaskNames
  stop : b.manager.stopEvent = a.manager.stopEvent
  keys : b.taskNames = a.taskNames

variable {a b : Activity}

/-- A round of a waiter. -/
theorem Activity.rests_check (a : Activity) (owner : Nat) (condition : Condition) :
    a.Rests (a.check owner condition) := by
  rw [Activity.check]
  split <;> exact ⟨rfl, rfl, rfl, rfl⟩

/-- `create`. -/
theorem Activity.creates (a : Activity) (f : CallFunction) (spawns : Bool) :
    Creates f.getFuncName a.manager (a.create f spawns).manager := by
  rw [Activity.create]
  split
  · exact .stopped rfl
  · exact create_creates a.manager f.getFuncName f.objId spawns

theorem Activity.stopEvent_create (a : Activity) (f : CallFunction) (spawns : Bool) :
    (a.create f spawns).manager.stopEvent = a.manager.stopEvent := by
  rw [Activity.create]
  split
  · rfl
  · exact Tasks.stopEvent_create a.manager f.getFuncName f.objId spawns

/-- What one event of the activity does. -/
theorem Activity.step_cases {e : ActivityEvent} (hs : a.step e = some b) :
    (∃ f spawns, e = .create f spawns ∧ b = a.create f spawns) ∨
    (∃ t, Shrinks a.manager t ∧ (a.manager.stopEvent = true → t.stopEvent = true) ∧
      b = a.follow a.taskNames t) ∨ a.Rests b := by
  cases e with
  | create f spawns =>
    cases hs
    exact .inl ⟨f, spawns, rfl, rfl⟩
  | manager event =>
    obtain ⟨hcreate, t, ht, rfl⟩ := Activity.step_manager hs
    exact .inr (.inl ⟨t, step_shrinks ht hcreate, stop_of_step ht, rfl⟩)
  | wait owner condition =>
    cases hs
    exact .inr (.inr (a.rests_check owner condition))
  | resume w =>
    simp only [Activity.step, Option.ite_none_right_eq_some] at hs
    obtain ⟨_, he⟩ := hs
    cases he
    have hrests := Activity.rests_check { a with waiters := a.waiters.erase w } w.owner w.condition
    exact .inr (.inr ⟨hrests.tasks, hrests.table, hrests.stop, hrests.keys⟩)
  | cancel w =>
    simp only [Activity.step, Option.ite_none_right_eq_some] at hs
    obtain ⟨_, he⟩ := hs
    cases he
    exact .inr (.inr ⟨rfl, rfl, rfl, rfl⟩)

/-- The manager counts every task, and the keys of its dictionary are known. -/
structure Activity.Sound (a : Activity) : Prop where
  covers : a.manager.Covers
  listed : ∀ name, (a.manager.activeTaskNames name).isSome = true → name ∈ a.taskNames

theorem Activity.Sound.start (isDistributed : Bool) (limit : Option Nat) :
    (Activity.start isDistributed limit).Sound where
  covers _ := Int.le_refl 0
  listed _ h := by cases h

/-- The manager goes on, and the keys of its dictionary are among some names. -/
theorem Activity.Sound.follow {names : List String} (hcovers : t.Covers)
    (hlisted : ∀ name, (t.activeTaskNames name).isSome = true → name ∈ names) :
    (a.follow names t).Sound where
  covers := hcovers
  listed name h := List.mem_filter.mpr ⟨hlisted name h, h⟩

/-- `create`. -/
theorem Activity.Sound.create (h : a.Sound) (f : CallFunction) (spawns : Bool) :
    (a.create f spawns).Sound := by
  rw [Activity.create]
  split
  · exact h
  · have hcreates := create_creates a.manager f.getFuncName f.objId spawns
    have hlisted : ∀ name, (increment a.manager.activeTaskNames f.getFuncName name).isSome = true →
        name ∈ if f.getFuncName ∈ a.taskNames then a.taskNames
          else a.taskNames ++ [f.getFuncName] := by
      intro name hsome
      by_cases heq : name = f.getFuncName
      · subst heq
        split
        · next hmem => exact hmem
        · exact List.mem_append_right _ (List.mem_singleton_self _)
      · rw [increment, Function.update_of_ne heq] at hsome
        split
        · exact h.listed name hsome
        · exact List.mem_append_left _ (h.listed name hsome)
    refine .follow (h.covers.creates hcreates) fun name hsome ↦ ?_
    cases hcreates with
    | stopped same =>
      rw [same] at hsome
      split
      · exact h.listed name hsome
      · exact List.mem_append_left _ (h.listed name hsome)
    | counted _ table => exact hlisted name (table ▸ hsome)
    | failed _ table => exact hlisted name (isSome_of_decrement (table ▸ hsome))

/-- No task is created and none ends. -/
theorem Activity.Sound.rests (h : a.Sound) (hr : a.Rests b) : b.Sound where
  covers := h.covers.of_names (by rw [State.names, hr.tasks, State.names]) hr.table
  listed name hsome := by
    rw [hr.table] at hsome
    rw [hr.keys]
    exact h.listed name hsome

/-- One event. -/
theorem Activity.Sound.step {e : ActivityEvent} (h : a.Sound) (hs : a.step e = some b) :
    b.Sound := by
  obtain ⟨f, spawns, -, rfl⟩ | ⟨t, hshrinks, -, rfl⟩ | hrests := Activity.step_cases hs
  · exact h.create f spawns
  · refine .follow (h.covers.shrinks hshrinks) fun name hsome ↦ h.listed name ?_
    cases hshrinks with
    | kept _ table => exact table ▸ hsome
    | ended _ _ table => exact isSome_of_decrement (table ▸ hsome)
    | dropped _ _ table => exact table ▸ hsome
  · exact h.rests hrests

/-- Two methods of one object have different names. -/
theorem getFuncName_ne {f g : CallFunction} (hobj : f.objId = g.objId)
    (hname : f.funcName ≠ g.funcName) : f.getFuncName ≠ g.getFuncName := by
  rw [CallFunction.getFuncName, CallFunction.getFuncName, hobj]
  split
  · split
    · intro h
      have hlist := congrArg String.toList h
      rw [String.toList_append, String.toList_append, List.append_left_inj] at hlist
      exact hname (String.toList_inj.mp hlist)
    · exact hname
  · exact hname

/-- `wait_for_object_task_count_below` returns where fewer tasks of that function are counted. -/
theorem named_lt_of_holds (h : a.Sound) {f : CallFunction} {owner : Nat} {limit : Int}
    (hobj : f.objId = some owner) (howner : owner ≠ 0)
    (hholds : a.holds owner (.countBelow [f.funcName] limit) = true) :
    a.manager.named f.getFuncName < limit := by
  have hname : f.getFuncName = f.funcName ++ scope owner := by
    rw [CallFunction.getFuncName, hobj]
    exact if_pos howner
  have hscope : occursIn (scope owner) f.getFuncName = true := by
    rw [occursIn, hname, String.toList_append, decide_eq_true_eq]
    exact (List.suffix_append _ _).isInfix
  have hprefix : f.funcName.toList.isPrefixOf f.getFuncName.toList = true := by
    rw [hname, String.toList_append, List.isPrefixOf_iff_prefix]
    exact List.prefix_append _ _
  have hlt := of_decide_eq_true hholds
  refine Int.lt_of_le_of_lt ?_ hlt
  have hnonneg : ∀ count ∈ ((a.items owner).filter fun item ↦
      [f.funcName].any fun p ↦ p.toList.isPrefixOf item.1.toList).map Prod.snd, 0 ≤ count := by
    intro count hcount
    obtain ⟨item, hitem, rfl⟩ := List.mem_map.mp hcount
    obtain ⟨name, hmem, rfl⟩ := List.mem_map.mp (List.mem_filter.mp hitem).1
    have hpos := (Bool.and_eq_true_iff.mp (List.mem_filter.mp hmem).2).1
    exact Int.le_of_lt (of_decide_eq_true hpos)
  by_cases hpos : 0 < a.manager.named f.getFuncName
  · refine List.single_le_sum hnonneg _ (List.mem_map.mpr ⟨(f.getFuncName, _), ?_, rfl⟩)
    refine List.mem_filter.mpr ⟨List.mem_map.mpr ⟨f.getFuncName, ?_, rfl⟩, ?_⟩
    · refine List.mem_filter.mpr ⟨h.listed _ ?_, ?_⟩
      · cases htable : a.manager.activeTaskNames f.getFuncName with
        | none =>
          rw [State.named, htable] at hpos
          exact absurd hpos (by decide)
        | some count => rfl
      · rw [hscope, Bool.and_true]
        exact decide_eq_true hpos
    · rw [List.any_cons, hprefix, Bool.true_or]
  · exact Int.le_trans (Int.not_lt.mp hpos) (List.sum_nonneg hnonneg)

end ScrapyCffi.Tasks
