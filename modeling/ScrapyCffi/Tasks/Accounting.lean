import ScrapyCffi.Tasks.Manager

/-!
# The counters of the managed tasks

The counters are those of the tasks that have not ended, as long as a cancellation only hits
tasks that have entered the `try` of `wrapped`. One that ends before leaves its counts behind.
-/

namespace ScrapyCffi.Tasks

open ScrapyCffi.Base

/-- The owners of the tasks that have not ended. -/
def State.owners (s : State) : List Nat := s.tasks.filterMap Task.objId

/-- The counters equal those of the tasks that have not ended, an idle event is unset exactly when
its owner has such a task, and a caller of `wait_for_object_idle` waits only for such tasks. -/
structure State.Exact (initial : Int) (s : State) : Prop where
  active : s.activeTasks = initial + s.tasks.length
  names : s.activeTaskNames = tally (s.tasks.map Task.name)
  objects : s.activeObjectTasks = tally s.owners
  idle : ∀ owner, s.objectIdleEvents owner = some false ↔ owner ∈ s.owners
  waits : ∀ owner, (s.waitForObjectIdle owner).1 = true ↔ owner ∉ s.owners
  blocked : ∀ owner ∈ s.blocked, owner ∈ s.owners
  ended : s.tasks = [] → s.activeTasks = initial ∧ (∀ name, s.activeTaskNames name = none) ∧
    ∀ owner, s.activeObjectTasks owner = none

/-- Only tasks inside their `try` are cancelled. -/
def CancelsRunning (_ : State) : Event → Prop
  | .cancel task => task.phase = .running
  | _ => True

instance (s : State) : ∀ event, Decidable (CancelsRunning s event)
  | .cancel _ => inferInstanceAs (Decidable (_ = _))
  | .create .. | .enter _ | .drop _ | .swallow _ | .finish .. | .waitForObjectIdle _ | .stop =>
    .isTrue trivial

variable {s t : State} {task changed : Task} {initial : Int} {name : String} {objId : Option Nat}
  {owner : Nat}

/-- The counters count these names and owners. -/
structure Counts (initial : Int) (s : State) (names : List String) (owners : List Nat) : Prop where
  active : s.activeTasks = initial + names.length
  names : s.activeTaskNames = tally names
  objects : s.activeObjectTasks = tally owners
  idle : ∀ owner, s.objectIdleEvents owner = some false ↔ owner ∈ owners
  blocked : ∀ owner ∈ s.blocked, owner ∈ owners

variable {names : List String} {owners : List Nat}

/-- The order of the tasks does not matter. -/
theorem Counts.perm (h : Counts initial s names owners) {names' : List String}
    {owners' : List Nat} (hn : names.Perm names') (ho : owners.Perm owners') :
    Counts initial s names' owners' where
  active := by rw [h.active, hn.length_eq]
  names := by rw [h.names, tally_perm hn]
  objects := by rw [h.objects, tally_perm ho]
  idle owner := (h.idle owner).trans ho.mem_iff
  blocked owner hb := ho.mem_iff.mp (h.blocked owner hb)

/-- The counters after `create` has counted a task. -/
theorem Counts.countUp (h : Counts initial s names owners) (name : String)
    (objId : Option Nat) :
    Counts initial (s.countUp name objId) (name :: names) (objId.toList ++ owners) := by
  have hactive : s.activeTasks + 1 = initial + (name :: names).length := by
    rw [h.active, List.length_cons]
    omega
  have hnames : increment s.activeTaskNames name = tally (name :: names) := by
    rw [h.names, increment_tally]
  cases objId with
  | none => exact ⟨hactive, hnames, h.objects, h.idle, h.blocked⟩
  | some owner =>
    refine ⟨hactive, hnames, ?_, fun other ↦ ?_, fun other hb ↦ ?_⟩
    · show increment s.activeObjectTasks owner = _
      rw [h.objects, increment_tally]
      rfl
    · show Function.update s.objectIdleEvents owner (some false) other = some false ↔ _
      by_cases ho : other = owner
      · subst ho
        simp
      · rw [Function.update_of_ne ho, h.idle]
        simp [ho]
    · exact List.mem_append_right _ (h.blocked other hb)

/-- The counters after the end of a counted task. -/
theorem Counts.countDown (h : Counts initial s names owners) (name : String)
    (objId : Option Nat) (hn : name ∈ names) (ho : ∀ owner ∈ objId, owner ∈ owners) :
    Counts initial (s.countDown name objId) (names.erase name)
      (objId.elim owners owners.erase) := by
  have hactive : s.activeTasks - 1 = initial + (names.erase name).length := by
    have hpos := List.length_pos_of_mem hn
    rw [h.active, List.length_erase_of_mem hn]
    omega
  have hnames : decrement s.activeTaskNames name = tally (names.erase name) := by
    rw [h.names, decrement_tally hn]
  cases objId with
  | none => exact ⟨hactive, hnames, h.objects, h.idle, h.blocked⟩
  | some owner =>
    have hm : owner ∈ owners := ho owner rfl
    have hpos := List.count_pos_iff.mpr hm
    have hobjects : decrement s.activeObjectTasks owner = tally (owners.erase owner) := by
      rw [h.objects, decrement_tally hm]
    have hget : (s.activeObjectTasks owner).getD 1 = owners.count owner := by
      rw [h.objects, tally, if_neg (by omega), Option.getD_some]
    have hcount : (owners.erase owner).count owner = owners.count owner - 1 :=
      List.count_erase_self
    rw [State.countDown]
    dsimp only
    split
    · next hlast =>
      -- the last task of its owner
      have hgone : owner ∉ owners.erase owner := by
        rw [← List.count_eq_zero, hcount]
        omega
      refine ⟨hactive, hnames, hobjects, fun other ↦ ?_, fun other hb ↦ ?_⟩
      · show Function.update s.objectIdleEvents owner (some true) other = some false ↔
          other ∈ owners.erase owner
        by_cases he : other = owner
        · subst he
          simp [hgone]
        · rw [Function.update_of_ne he, h.idle, List.mem_erase_of_ne he]
      · obtain ⟨hb, hne⟩ := List.mem_filter.mp hb
        exact (List.mem_erase_of_ne (by simpa using hne)).mpr (h.blocked other hb)
    · next hmore =>
      have hstays : owner ∈ owners.erase owner := by
        rw [← List.count_pos_iff, hcount]
        omega
      have hsame : ∀ other, other ∈ owners.erase owner ↔ other ∈ owners := by
        intro other
        by_cases he : other = owner
        · subst he
          exact ⟨fun _ ↦ hm, fun _ ↦ hstays⟩
        · exact List.mem_erase_of_ne he
      exact ⟨hactive, hnames, hobjects, fun other ↦ (h.idle other).trans (hsame other).symm,
        fun other hb ↦ (hsame other).mpr (h.blocked other hb)⟩

/-- What the steps keep. -/
structure Counted (initial : Int) (s : State) : Prop where
  counts : Counts initial s (s.tasks.map Task.name) s.owners
  cancelled : ∀ task ∈ s.tasks, task.cancelling = true → task.phase = .running

/-- `wait_for_object_idle` returns at once when its owner has no task. -/
theorem Counted.waits (h : Counted initial s) (owner : Nat) :
    (s.waitForObjectIdle owner).1 = true ↔ owner ∉ s.owners := by
  unfold State.waitForObjectIdle
  rw [h.counts.objects, getD_tally]
  by_cases hm : owner ∈ s.owners
  · have hpos := List.count_pos_iff.mpr hm
    have hevent := (h.counts.idle owner).mpr hm
    rw [if_neg (by omega), hevent]
    simp [hm]
  · have hzero := List.count_eq_zero.mpr hm
    rw [if_pos (by omega)]
    simp [hm]

/-- The counters are exact. -/
theorem Counted.exact (h : Counted initial s) : s.Exact initial where
  active := by simpa using h.counts.active
  names := h.counts.names
  objects := h.counts.objects
  idle := h.counts.idle
  waits := h.waits
  blocked := h.counts.blocked
  ended := by
    intro hnone
    refine ⟨by simp [h.counts.active, hnone], fun name ↦ ?_, fun owner ↦ ?_⟩
    · rw [h.counts.names, hnone]
      rfl
    · rw [h.counts.objects, State.owners, hnone]
      rfl

/-- A task changes its phase or its cancellation. -/
theorem Counted.replace (h : Counted initial s) (ht : task ∈ s.tasks)
    (hname : changed.name = task.name) (hobj : changed.objId = task.objId)
    (hcancelled : changed.cancelling = true → changed.phase = .running) :
    Counted initial (s.replace task changed) := by
  have hperm := List.perm_cons_erase ht
  refine ⟨?_, ?_⟩
  · refine Counts.perm (s := s.replace task changed) ⟨h.counts.active, h.counts.names,
      h.counts.objects, h.counts.idle, h.counts.blocked⟩ ?_ ?_
    · simpa [State.replace, hname] using hperm.map Task.name
    · simpa [State.owners, State.replace, List.filterMap_cons, hobj] using
        hperm.filterMap Task.objId
  · intro other hm
    rcases List.mem_cons.mp hm with rfl | hm
    · exact hcancelled
    · exact h.cancelled other (List.mem_of_mem_erase hm)

/-- The end of a task that has entered its `try`. -/
theorem Counted.finish (h : Counted initial s) {fails : Bool}
    (hs : s.finish task fails = some t) : Counted initial t := by
  unfold State.finish at hs
  split at hs
  · next ht =>
    cases hs
    have hperm := List.perm_cons_erase ht.1
    have hdown := h.counts.countDown task.name task.objId (List.mem_map_of_mem ht.1)
      fun owner ho ↦ List.mem_filterMap.mpr ⟨task, ht.1, ho⟩
    have hnames : ((s.tasks.map Task.name).erase task.name).Perm
        ((s.tasks.erase task).map Task.name) := by
      simpa using (hperm.map Task.name).erase task.name
    have howners : (task.objId.elim s.owners s.owners.erase).Perm
        ((s.tasks.erase task).filterMap Task.objId) := by
      have hfilter := hperm.filterMap Task.objId
      cases ho : task.objId with
      | none => simpa [State.owners, ho] using hfilter
      | some owner =>
        simp only [List.filterMap_cons, ho] at hfilter
        simpa [State.owners] using hfilter.erase owner
    have hcounts := hdown.perm hnames howners
    refine ⟨⟨hcounts.active, hcounts.names, hcounts.objects, hcounts.idle, hcounts.blocked⟩,
      fun other hm ↦ h.cancelled other (List.mem_of_mem_erase hm)⟩
  · cases hs

/-- `create` counts a task that it spawns. -/
theorem Counted.create (h : Counted initial s) (name : String) (objId : Option Nat)
    (spawns : Bool) : Counted initial (s.create name objId spawns) := by
  have hup := h.counts.countUp name objId
  have htasks : (s.countUp name objId).tasks = s.tasks := by cases objId <;> rfl
  unfold State.create
  split
  · exact h
  · split
    · have howners : objId.toList ++ s.owners =
          (⟨s.spawned, name, objId, .created, false⟩ :: s.tasks : List Task).filterMap
            Task.objId := by
        cases objId <;> rfl
      rw [howners] at hup
      refine ⟨⟨hup.active, hup.names, hup.objects, hup.idle, hup.blocked⟩, fun task hm ↦ ?_⟩
      rcases List.mem_cons.mp hm with rfl | hm
      · exact nofun
      · exact h.cancelled task hm
    · have hdown := hup.countDown name objId List.mem_cons_self fun owner ho ↦
        List.mem_append_left _ (by simpa using ho)
      have hsame : ((s.countUp name objId).countDown name objId).tasks = s.tasks := by
        rw [← htasks]
        unfold State.countDown
        cases objId with
        | none => rfl
        | some owner =>
          dsimp only
          split <;> rfl
      have howners : objId.elim (objId.toList ++ s.owners) (objId.toList ++ s.owners).erase =
          s.owners := by
        cases objId <;> simp
      rw [howners, List.erase_cons_head] at hdown
      refine ⟨?_, ?_⟩
      · rw [State.owners, hsame]
        exact hdown
      · rw [hsame]
        exact h.cancelled

/-- A caller starts to wait for an owner. -/
theorem Counted.waitForObjectIdle (h : Counted initial s) (owner : Nat) :
    Counted initial (s.waitForObjectIdle owner).2 := by
  have hcount : (s.activeObjectTasks owner).getD 0 = s.owners.count owner := by
    rw [h.counts.objects, getD_tally]
  unfold State.waitForObjectIdle
  split
  · exact h
  · next hpos =>
    have hm : owner ∈ s.owners := List.count_pos_iff.mp (by omega)
    split
    · exact h
    · refine ⟨⟨h.counts.active, h.counts.names, h.counts.objects, fun other ↦ ?_,
        List.forall_mem_cons.mpr ⟨hm, h.counts.blocked⟩⟩, h.cancelled⟩
      show Function.update s.objectIdleEvents owner (some false) other = some false ↔
        other ∈ s.owners
      by_cases ho : other = owner
      · subst ho
        simpa using hm
      · rw [Function.update_of_ne ho]
        exact h.counts.idle other

/-- One event. -/
theorem Counted.step {event : Event} (h : Counted initial s) (hg : CancelsRunning s event)
    (hs : s.step event = some t) : Counted initial t := by
  cases event with
  | create name objId spawns =>
    cases hs
    exact h.create name objId spawns
  | enter task =>
    simp only [State.step, State.enter, Option.ite_none_right_eq_some] at hs
    obtain ⟨⟨ht, hc, _⟩, he⟩ := hs
    cases he
    exact h.replace ht rfl rfl (by simp [hc])
  | cancel task =>
    simp only [State.step, State.cancel, Option.ite_none_right_eq_some] at hs
    obtain ⟨ht, he⟩ := hs
    cases he
    exact h.replace ht rfl rfl fun _ ↦ hg
  | drop task =>
    simp only [State.step, State.drop, Option.ite_none_right_eq_some] at hs
    obtain ⟨⟨ht, hc, hp⟩, _⟩ := hs
    exact absurd (h.cancelled task ht hc) hp
  | swallow task =>
    simp only [State.step, State.swallow, Option.ite_none_right_eq_some] at hs
    obtain ⟨⟨ht, _, _⟩, he⟩ := hs
    cases he
    exact h.replace ht rfl rfl nofun
  | finish task fails => exact h.finish hs
  | waitForObjectIdle owner =>
    cases hs
    exact h.waitForObjectIdle owner
  | stop =>
    cases hs
    exact ⟨⟨h.counts.active, h.counts.names, h.counts.objects, h.counts.idle, h.counts.blocked⟩,
      h.cancelled⟩

/-- As long as only tasks inside their `try` are cancelled, the counters are exact. -/
theorem exact_when_running_cancelled {isDistributed : Bool} {limit : Option Nat}
    (h : (machine isDistributed limit).Reach CancelsRunning s) :
    s.Exact (initialTasks isDistributed) := by
  have hcounted : Counted (initialTasks isDistributed) s := by
    refine h.invariant ?_ fun _ _ _ _ ih hg hs ↦ ih.step hg hs
    rintro s rfl
    refine ⟨⟨by simp [State.start], ?_, ?_, by simp [State.start, State.owners], nofun⟩, nofun⟩
    · ext1 name
      simp [State.start, tally]
    · ext1 owner
      simp [State.start, State.owners, tally]
  exact hcounted.exact

/-- An owner with two tasks and one permit: the running task is cancelled, the other one ends. -/
def twoTasks : List Event :=
  [.create "crawl[1]" (some 1) true, .create "parse[1]" (some 1) true,
    .enter ⟨0, "crawl[1]", some 1, .created, false⟩,
    .enter ⟨1, "parse[1]", some 1, .created, false⟩, .waitForObjectIdle 1,
    .cancel ⟨0, "crawl[1]", some 1, .running, false⟩,
    .finish ⟨0, "crawl[1]", some 1, .running, true⟩ false,
    .enter ⟨1, "parse[1]", some 1, .waiting, false⟩,
    .finish ⟨1, "parse[1]", some 1, .running, false⟩ false]

/-- The counters are exact after it. -/
theorem exact_when_running_cancelled_twoTasks :
    State.Exact 0 (((machine false (some 1)).runIf CancelsRunning (.start false (some 1))
      twoTasks).getD (.start false (some 1))) := by
  have hreached : (machine false (some 1)).Reach CancelsRunning
      (((machine false (some 1)).runIf CancelsRunning (.start false (some 1)) twoTasks).getD
        (.start false (some 1))) := .runIf twoTasks (.init rfl) rfl
  exact exact_when_running_cancelled hreached

/-- A task that is cancelled before its first step. -/
def cancelledEarly : List Event :=
  [.create "crawl[1]" (some 1) true, .cancel ⟨0, "crawl[1]", some 1, .created, false⟩,
    .drop ⟨0, "crawl[1]", some 1, .created, true⟩]

/-- Its counts stay behind. -/
theorem cancelled_early_not_exact :
    ¬ ∀ s, (machine false (some 1)).Reachable s → s.Exact (initialTasks false) := by
  intro h
  have hreached : (machine false (some 1)).Reachable
      (((machine false (some 1)).run (.start false (some 1)) cancelledEarly).getD
        (.start false (some 1))) := .run cancelledEarly (.init rfl) rfl
  exact absurd (h _ hreached).active (by decide)

end ScrapyCffi.Tasks
