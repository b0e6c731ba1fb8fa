import ScrapyCffi.Engine.Backpressure

/-!
# How many downloads an engine has at once

As long as a loop passes the check only while the requests past it fit, the downloads stay within
the limit and one more for each loop. Where one too many has passed and nothing is cancelled, each
of these requests can become a download before any download ends: the bound breaks.
-/

namespace ScrapyCffi.Backpressure

open ScrapyCffi.Base ScrapyCffi.Tasks

variable {x : Setup} {s t : State}

/-! ## The requests past the check become downloads -/

/-- Nothing stops the requests past the check: no stop event, no global limit and no cancellation of
their loops and interceptors. -/
structure State.Undisturbed (s : State) : Prop where
  stop : s.activity.manager.stopEvent = false
  limit : s.activity.manager.limit = none
  fetching : ∀ loop ∈ s.loops, loop.place = .getting →
    ∃ task, s.Runs task ∧ task.identity = loop.identity
  pending : ∀ identity ∈ s.chains, ∃ task ∈ s.activity.manager.tasks,
    task.identity = identity ∧ task.cancelling = false

/-- Each request past the check may become a download. -/
theorem State.Undisturbed.total (h : s.Undisturbed) :
    s.total x = s.live x + (getting s.loops + s.chains.length) := by
  rw [State.total, State.uncounted, h.stop, if_neg Bool.false_ne_true]

/-- `create` when the event loop takes the task. -/
theorem manager_create (a : Activity) (f : CallFunction) (hstop : a.manager.stopEvent = false) :
    (a.create f true).manager.tasks =
      ⟨a.manager.spawned, f.getFuncName, f.objId, .created, false⟩ :: a.manager.tasks ∧
    (a.create f true).manager.limit = a.manager.limit := by
  have hcreate : (a.create f true).manager = a.manager.create f.getFuncName f.objId true := by
    rw [Activity.create, if_neg (ne_true_of_eq_false hstop)]
    rfl
  rw [hcreate, State.create, if_neg (ne_true_of_eq_false hstop)]
  cases f.objId <;> exact ⟨rfl, rfl⟩

/-- One more task is created. -/
theorem State.Undisturbed.create (h : s.Undisturbed) (f : CallFunction) {loops : List Loop}
    {chains : List Nat} (started : Nat)
    (hloops : ∀ loop ∈ loops, loop.place = .getting → loop ∈ s.loops)
    (hchains : ∀ identity ∈ chains, identity ∈ s.chains ∨
      identity = s.activity.manager.spawned) :
    State.Undisturbed ⟨s.activity.create f true, loops, started, chains⟩ := by
  obtain ⟨htasks, hlimit⟩ := manager_create s.activity f h.stop
  refine ⟨?_, ?_, ?_, ?_⟩
  · exact (s.activity.stopEvent_create f true).trans h.stop
  · exact hlimit.trans h.limit
  · intro loop hloop hplace
    obtain ⟨task, hruns, hidentity⟩ := h.fetching loop (hloops loop hloop hplace) hplace
    refine ⟨task, ⟨?_, hruns.2⟩, hidentity⟩
    show task ∈ (s.activity.create f true).manager.tasks
    rw [htasks]
    exact List.mem_cons_of_mem _ hruns.1
  · intro identity hidentity
    show ∃ task ∈ (s.activity.create f true).manager.tasks, _
    rw [htasks]
    obtain hold | hnew := hchains identity hidentity
    · obtain ⟨task, htask, hpending⟩ := h.pending identity hold
      exact ⟨task, List.mem_cons_of_mem _ htask, hpending⟩
    · exact ⟨_, List.mem_cons_self, hnew.symm, rfl⟩

/-- A task that is created adds to the tasks of its name only. -/
theorem live_created (f : CallFunction) (hstop : s.activity.manager.stopEvent = false) :
    (s.activity.create f true).manager.names.count x.processDownloader.getFuncName =
      s.live x + if f.getFuncName = x.processDownloader.getFuncName then 1 else 0 := by
  rw [Tasks.State.names, (manager_create s.activity f hstop).1, List.map_cons, List.count_cons]
  simp only [beq_iff_eq]
  rfl

/-- A task enters its `try`. -/
def State.enter (s : State) (task : Tasks.Task) : State :=
  let manager := s.activity.manager.replace task { task with phase := .running }
  { s with activity := s.activity.follow s.activity.taskNames manager }

theorem step_enter {task : Tasks.Task} (h : s.activity.manager.limit = none)
    (htask : task ∈ s.activity.manager.tasks) (hcancelling : task.cancelling = false)
    (hphase : task.phase ≠ .running) :
    s.step x (.activity (.manager (.enter task))) = some (s.enter task) := by
  have hfree : s.activity.manager.free = true := by rw [Tasks.State.free, h]
  have henter : s.activity.manager.step (.enter task) =
      some (s.activity.manager.replace task { task with phase := .running }) := by
    rw [Tasks.State.step, Tasks.State.enter, if_pos ⟨htask, hcancelling, hphase⟩, hfree, if_pos rfl]
  have hforeign : s.Foreign x (.manager (.enter task)) := trivial
  rw [State.step, if_pos hforeign]
  show ((s.activity.manager.step (.enter task)).map _).map _ = _
  rw [henter]
  rfl

/-- Another task, or the same one inside its `try`. -/
theorem mem_enter {task other : Tasks.Task} (hother : other ∈ s.activity.manager.tasks)
    (hne : other ≠ task) : other ∈ (s.enter task).activity.manager.tasks :=
  List.mem_cons_of_mem _ ((List.mem_erase_of_ne hne).mpr hother)

theorem State.Undisturbed.enter (h : s.Undisturbed) {task : Tasks.Task}
    (hcancelling : task.cancelling = false) (hphase : task.phase ≠ .running) :
    (s.enter task).Undisturbed := by
  refine ⟨h.stop, h.limit, ?_, ?_⟩
  · intro loop hloop hplace
    obtain ⟨other, hruns, hidentity⟩ := h.fetching loop hloop hplace
    refine ⟨other, ⟨mem_enter hruns.1 ?_, hruns.2⟩, hidentity⟩
    rintro rfl
    exact hphase hruns.2.1
  · intro identity hidentity
    obtain ⟨other, hother, hpending⟩ := h.pending identity hidentity
    by_cases heq : other = task
    · subst heq
      exact ⟨_, List.mem_cons_self, hpending.1, hcancelling⟩
    · exact ⟨other, mem_enter hother heq, hpending⟩

theorem live_enter {task : Tasks.Task} (htask : task ∈ s.activity.manager.tasks) :
    (s.enter task).live x = s.live x :=
  (names_replace htask rfl).count_eq _

/-- A loop in `scheduler.get` receives a request. -/
theorem get_request {task : Tasks.Task} (hstop : s.activity.manager.stopEvent = false)
    (hruns : s.Runs task) (hloop : ⟨task.identity, .getting⟩ ∈ s.loops) :
    s.get x task true true = some ⟨s.activity.create x.processDownloadInterceptorChain true,
      ⟨task.identity, .head⟩ :: s.loops.erase ⟨task.identity, .getting⟩, s.started,
      s.activity.manager.spawned :: s.chains⟩ := by
  rw [State.get, if_pos ⟨hruns, hloop⟩, hstop, if_neg (by decide), if_pos rfl]
  rfl

/-- A request that a loop waits for gets to its interceptors. -/
theorem serve (hr : (machine x).Reachable s) (h : s.Undisturbed) {loop : Loop}
    (hloop : loop ∈ s.loops) (hplace : loop.place = .getting) :
    ∃ t, (machine x).Reachable t ∧ t.Undisturbed ∧ getting s.loops = getting t.loops + 1 ∧
      t.chains.length = s.chains.length + 1 ∧ t.live x = s.live x := by
  obtain ⟨task, hruns, hidentity⟩ := h.fetching loop hloop hplace
  obtain rfl : loop = ⟨task.identity, .getting⟩ := by rw [hidentity, ← hplace]
  refine ⟨_, .step hr (e := .get task true true) trivial (get_request h.stop hruns hloop),
    h.create _ _ ?_ ?_, ?_, rfl, ?_⟩
  · intro other hother hgetting
    obtain rfl | hother := List.mem_cons.mp hother
    · cases hgetting
    · exact List.mem_of_mem_erase hother
  · exact fun identity hidentity ↦ (List.mem_cons.mp hidentity).symm
  · rw [getting_erase hloop]
    rfl
  · exact (live_created _ h.stop).trans
      (congrArg (s.live x + ·) (if_neg (processDownloadInterceptorChain_ne x)))

/-- The interceptors of a request that are inside their `try` let it pass. -/
theorem pass (hr : (machine x).Reachable s) (h : s.Undisturbed) (task : Tasks.Task)
    (hruns : s.Runs task) (hchain : task.identity ∈ s.chains) :
    ∃ t, (machine x).Reachable t ∧ t.Undisturbed ∧ t.loops = s.loops ∧
      s.chains.length = t.chains.length + 1 ∧ t.live x = s.live x + 1 := by
  refine ⟨⟨s.activity.create x.processDownloader true, s.loops, s.started,
    s.chains.erase task.identity⟩, .step hr (e := .intercept task true true) trivial ?_,
    h.create _ _ (fun _ hloop _ ↦ hloop) fun _ hidentity ↦ .inl (List.mem_of_mem_erase hidentity),
    rfl, (List.perm_cons_erase hchain).length_eq, ?_⟩
  · show s.intercept x task true true = _
    rw [State.intercept, if_pos ⟨hruns, hchain⟩]
    rfl
  · exact (live_created _ h.stop).trans (congrArg (s.live x + ·) (if_pos rfl))

/-- A request in its interceptors becomes a download. -/
theorem download_chain (hr : (machine x).Reachable s) (h : s.Undisturbed) {identity : Nat}
    (hchain : identity ∈ s.chains) :
    ∃ t, (machine x).Reachable t ∧ t.Undisturbed ∧ t.loops = s.loops ∧
      s.chains.length = t.chains.length + 1 ∧ t.live x = s.live x + 1 := by
  obtain ⟨task, htask, rfl, hcancelling⟩ := h.pending identity hchain
  by_cases hphase : task.phase = .running
  · exact pass hr h task ⟨htask, hphase, hcancelling⟩ hchain
  · have hreached : (machine x).Reachable (s.enter task) :=
      .step hr (e := .activity (.manager (.enter task))) trivial
        (step_enter (x := x) h.limit htask hcancelling hphase)
    obtain ⟨t, ht, hundisturbed, hloops, hlength, hlive⟩ :=
      pass hreached (h.enter hcancelling hphase) { task with phase := .running }
        ⟨List.mem_cons_self, rfl, hcancelling⟩ hchain
    exact ⟨t, ht, hundisturbed, hloops, hlength, hlive.trans (by rw [live_enter htask])⟩

/-- Before a download ends, each request past the check can become one. -/
theorem drain (hr : (machine x).Reachable s) (h : s.Undisturbed) :
    ∃ t, (machine x).Reachable t ∧ s.total x ≤ t.live x := by
  -- a request in `scheduler.get` has two steps to go, one in its interceptors has one
  obtain ⟨n, hn⟩ : ∃ n, 2 * getting s.loops + s.chains.length = n := ⟨_, rfl⟩
  induction n generalizing s with
  | zero =>
    refine ⟨s, hr, ?_⟩
    rw [h.total]
    omega
  | succ n ih =>
    rw [h.total]
    by_cases hgetting : 0 < getting s.loops
    · obtain ⟨loop, hloop, hplace⟩ := List.countP_pos_iff.mp hgetting
      obtain ⟨t, ht, hundisturbed, hless, hlength, hlive⟩ :=
        serve hr h hloop (of_decide_eq_true hplace)
      obtain ⟨u, hu, hle⟩ := ih ht hundisturbed (by omega)
      rw [hundisturbed.total] at hle
      exact ⟨u, hu, by omega⟩
    · obtain ⟨identity, hchain⟩ := List.exists_mem_of_length_pos (show 0 < s.chains.length by omega)
      obtain ⟨t, ht, hundisturbed, hloops, hlength, hlive⟩ := download_chain hr h hchain
      have hsame : getting t.loops = getting s.loops := congrArg getting hloops
      obtain ⟨u, hu, hle⟩ := ih ht hundisturbed (by omega)
      rw [hundisturbed.total] at hle
      exact ⟨u, hu, by omega⟩

/-- A loop that passes the check adds a request. -/
theorem total_of_passes {e : Event} (hs : s.step x e = some t)
    (he : ∃ task, e = .check task ∨ e = .resume task) (hpasses : s.passes x = true)
    (hstop : t.activity.manager.stopEvent = false) : t.total x = s.total x + 1 := by
  obtain ⟨task, rfl | rfl⟩ := he
  · simp only [State.step, State.check, Option.ite_none_right_eq_some] at hs
    obtain ⟨⟨_, hloop⟩, he⟩ := hs
    split at he
    · next hset =>
      cases he
      rw [hset] at hstop
      cases hstop
    · next hset =>
      cases he
      rw [total_waitForDownloaderCapacity hloop (show Place.head ≠ .getting by decide), hpasses,
        eq_false_of_ne_true hset]
      rfl
  · obtain ⟨condition, _, hs⟩ := Option.bind_eq_some_iff.mp hs
    simp only [Option.ite_none_right_eq_some] at hs
    obtain ⟨⟨_, hloop, _⟩, he⟩ := hs
    cases he
    rw [← passes_leaveEvent s ⟨x.owner, condition, true⟩] at hpasses
    rw [(rests_waitForDownloaderCapacity _ _).stop] at hstop
    rw [total_waitForDownloaderCapacity (s := s.leaveEvent _) hloop
      (show Place.waiting ≠ .getting by decide), hpasses, hstop]
    rfl

/-- Where one request too many passes the check and nothing stops it, the bound breaks. -/
theorem exceeds_of_not_roomy {limit : Nat} {e : Event}
    (hlimit : x.maxInflightDownloaderTasks = some limit) (hr : (machine x).Reachable s)
    (hs : s.step x e = some t) (hroomy : ¬ Roomy x s e) (h : t.Undisturbed) :
    ∃ u, (machine x).Reachable u ∧ limit + x.maxSchedulerLoopNum < u.live x := by
  obtain ⟨he, hpasses, hmany⟩ : (∃ task, e = .check task ∨ e = .resume task) ∧
      s.passes x = true ∧ (limit - s.live x) + x.maxSchedulerLoopNum ≤ s.uncounted := by
    have hunfold : ¬ (s.passes x = true → ∀ limit ∈ x.maxInflightDownloaderTasks,
        s.uncounted < (limit - s.live x) + x.maxSchedulerLoopNum) →
        s.passes x = true ∧ (limit - s.live x) + x.maxSchedulerLoopNum ≤ s.uncounted := by
      rw [hlimit]
      intro hnot
      by_contra hcontra
      refine hnot fun hpasses other hother ↦ ?_
      obtain rfl := Option.some.inj hother
      exact Nat.lt_of_not_le fun hle ↦ hcontra ⟨hpasses, hle⟩
    cases e with
    | check task => exact ⟨⟨task, .inl rfl⟩, hunfold hroomy⟩
    | resume task => exact ⟨⟨task, .inr rfl⟩, hunfold hroomy⟩
    | startLoop | abandon | get | intercept | activity => exact absurd trivial hroomy
  have htotal : t.total x = s.live x + s.uncounted + 1 := total_of_passes hs he hpasses h.stop
  obtain ⟨u, hu, hle⟩ := drain (.step hr trivial hs) h
  exact ⟨u, hu, by omega⟩

/-! ## A loop that finds a full queue -/

/-- A name is that of a function or has it in front. -/
theorem prefix_of_getFuncName {f : CallFunction} {p : List Char}
    (hlength : p.length ≤ f.funcName.toList.length) (h : p <+: f.getFuncName.toList) :
    p <+: f.funcName.toList := by
  refine List.prefix_of_prefix_length_le h ?_ hlength
  rw [CallFunction.getFuncName]
  split
  · split
    · rw [String.toList_append]
      exact List.prefix_append _ _
    · exact List.prefix_refl _
  · exact List.prefix_refl _

/-- The names of the functions of the loops and the interceptors. -/
def otherNames : List String :=
  ["_distributed_scheduler_loop", "_local_scheduler_loop", "process_downloadInterceptor_chain"]

/-- The loops and the interceptors are not counted. -/
theorem not_counted {f : CallFunction} (hf : f.funcName ∈ otherNames) :
    x.processDownloader.funcName.toList.isPrefixOf f.getFuncName.toList = false := by
  have hnames : ∀ name ∈ otherNames, "process_downloader".toList.length ≤ name.toList.length ∧
      ¬ "process_downloader".toList <+: name.toList := by decide
  rw [← Bool.not_eq_true, List.isPrefixOf_iff_prefix]
  intro hprefix
  obtain ⟨hlength, hno⟩ := hnames f.funcName hf
  exact hno (prefix_of_getFuncName hlength hprefix)

/-- A running loop at its head, no download so far, and some requests in their interceptors. -/
structure Queued (x : Setup) (s : State) (k : Nat) : Prop where
  undisturbed : s.Undisturbed
  loop : ∃ task, s.Runs task ∧ ⟨task.identity, .head⟩ ∈ s.loops
  named : ∀ name ∈ s.activity.taskNames, ∃ f : CallFunction, name = f.getFuncName ∧
    f.funcName ∈ otherNames
  length : k ≤ s.chains.length

variable {k : Nat}

/-- The check returns. -/
theorem Queued.passes (h : Queued x s k) : s.passes x = true := by
  rw [State.passes, Setup.capacity]
  cases hlimit : x.maxInflightDownloaderTasks with
  | none => rfl
  | some limit =>
    have hpos : 0 < limit := by
      obtain ⟨base, _, rfl⟩ := Option.map_eq_some_iff.mp hlimit
      exact Nat.lt_of_lt_of_le (by decide) (Nat.le_max_right (base * 2) 50)
    have hnone : (s.activity.items x.owner).filter (fun item ↦
        [x.processDownloader.funcName].any fun p ↦ p.toList.isPrefixOf item.1.toList) = [] := by
      refine List.filter_eq_nil_iff.mpr fun item hitem ↦ ?_
      obtain ⟨name, hmem, rfl⟩ := List.mem_map.mp hitem
      obtain ⟨f, rfl, hf⟩ := h.named name (List.mem_filter.mp hmem).1
      rw [List.any_cons, not_counted hf]
      exact Bool.false_ne_true
    rw [Option.map_some]
    refine decide_eq_true ?_
    rw [hnone]
    exact Int.natCast_pos.mpr hpos

/-- `create` adds one key at most. -/
theorem taskNames_create {a : Activity} {f : CallFunction} {spawns : Bool} {name : String}
    (h : name ∈ (a.create f spawns).taskNames) : name ∈ a.taskNames ∨ name = f.getFuncName := by
  rw [Activity.create] at h
  split at h
  · exact .inl h
  · have hmem := (List.mem_filter.mp h).1
    split at hmem
    · exact .inl hmem
    · exact (List.mem_append.mp hmem).imp_right List.mem_singleton.mp

/-- The engine after `start` has created its first loop, and the loop has begun. -/
theorem exists_queued_zero (hlimit : x.limit = none) (hloops : 0 < x.maxSchedulerLoopNum) :
    ∃ s, (machine x).Reachable s ∧ Queued x s 0 := by
  have hstart : (State.start x).Undisturbed :=
    ⟨rfl, hlimit, fun _ hloop ↦ absurd hloop List.not_mem_nil,
      fun _ hchain ↦ absurd hchain List.not_mem_nil⟩
  have hcreated : State.Undisturbed ⟨(State.start x).activity.create x.schedulerLoop true,
      [⟨0, .head⟩], 1, []⟩ := by
    refine hstart.create x.schedulerLoop 1 ?_ fun _ hchain ↦ absurd hchain List.not_mem_nil
    intro loop hloop hplace
    obtain rfl := List.mem_singleton.mp hloop
    cases hplace
  have hreached : (machine x).Reachable ⟨(State.start x).activity.create x.schedulerLoop true,
      [⟨0, .head⟩], 1, []⟩ := by
    refine .step (.init rfl) (e := .startLoop true) trivial ?_
    show (State.start x).startLoop x true = _
    rw [State.startLoop]
    exact if_pos hloops
  have hphase : Phase.created ≠ .running := by decide
  refine ⟨_, .step hreached (e := .activity (.manager (.enter
    ⟨0, x.schedulerLoop.getFuncName, some x.owner, .created, false⟩))) trivial
    (step_enter (x := x) hcreated.limit List.mem_cons_self rfl hphase),
    hcreated.enter rfl hphase, ?_, ?_, Nat.zero_le _⟩
  · exact ⟨⟨0, x.schedulerLoop.getFuncName, some x.owner, .running, false⟩,
      ⟨List.mem_cons_self, rfl, rfl⟩, List.mem_cons_self⟩
  · intro name hname
    obtain hname | rfl := taskNames_create (List.mem_filter.mp hname).1
    · exact absurd hname List.not_mem_nil
    · refine ⟨x.schedulerLoop, rfl, ?_⟩
      show (if x.isDistributed then _ else _) ∈ otherNames
      split <;> decide

/-- The loop passes the check and receives one more request. -/
theorem Queued.next (hr : (machine x).Reachable s) (h : Queued x s k) :
    ∃ t, (machine x).Reachable t ∧ Queued x t (k + 1) := by
  obtain ⟨task, hruns, hloop⟩ := h.loop
  have hactivity : (s.waitForDownloaderCapacity x ⟨task.identity, .head⟩) =
      s.move ⟨task.identity, .head⟩ .getting := by
    have hpasses := h.passes
    rw [State.waitForDownloaderCapacity, hpasses]
    rw [State.passes] at hpasses
    cases hcapacity : x.capacity with
    | none => rfl
    | some condition =>
      rw [hcapacity] at hpasses
      have hsame : s.activity.check x.owner condition = s.activity := if_pos hpasses
      dsimp only
      rw [hsame]
      rfl
  have hcheck : s.check x task = some (s.move ⟨task.identity, .head⟩ .getting) := by
    rw [State.check, if_pos ⟨hruns, hloop⟩, h.undisturbed.stop, if_neg Bool.false_ne_true,
      hactivity]
  have hpassed : (machine x).Reachable (s.move ⟨task.identity, .head⟩ .getting) :=
    .step hr (e := .check task) trivial hcheck
  have htasks := (manager_create s.activity x.processDownloadInterceptorChain
    h.undisturbed.stop).1
  refine ⟨_, .step hpassed (e := .get task true true) trivial
    (get_request h.undisturbed.stop hruns List.mem_cons_self), ?_, ?_, ?_, ?_⟩
  · refine h.undisturbed.create _ _ ?_ fun _ hidentity ↦ (List.mem_cons.mp hidentity).symm
    intro loop hmem hplace
    obtain rfl | hmem := List.mem_cons.mp hmem
    · cases hplace
    · rw [State.move, List.erase_cons_head] at hmem
      exact List.mem_of_mem_erase hmem
  · refine ⟨task, ⟨?_, hruns.2⟩, List.mem_cons_self⟩
    show task ∈ (s.activity.create _ true).manager.tasks
    rw [htasks]
    exact List.mem_cons_of_mem _ hruns.1
  · intro name hname
    obtain hname | rfl := taskNames_create hname
    · exact h.named name hname
    · exact ⟨x.processDownloadInterceptorChain, rfl,
        show "process_downloadInterceptor_chain" ∈ otherNames by decide⟩
  · exact Nat.succ_le_succ h.length

/-- A loop that always finds a request takes it, however many wait in their interceptors. -/
theorem exists_queued (hlimit : x.limit = none) (hloops : 0 < x.maxSchedulerLoopNum) (k : Nat) :
    ∃ s, (machine x).Reachable s ∧ Queued x s k := by
  induction k with
  | zero => exact exists_queued_zero hlimit hloops
  | succ k ih =>
    obtain ⟨s, hr, hs⟩ := ih
    exact hs.next hr

/-- There can be as many downloads at once as the scheduler has requests. -/
theorem live_unbounded (hlimit : x.limit = none) (hloops : 0 < x.maxSchedulerLoopNum) (k : Nat) :
    ∃ s, (machine x).Reachable s ∧ k ≤ s.live x := by
  obtain ⟨s, hr, hs⟩ := exists_queued hlimit hloops k
  obtain ⟨t, ht, hle⟩ := drain hr hs.undisturbed
  rw [hs.undisturbed.total] at hle
  have hlength := hs.length
  exact ⟨t, ht, by omega⟩

/-! ## The bound -/

/-- In a run in which a loop passes the check only while the requests past it are fewer than the
free places and the loops, the downloads stay within the limit and one more for each loop. -/
theorem live_le_of_roomy (x : Setup) {limit : Nat}
    (hlimit : x.maxInflightDownloaderTasks = some limit)
    (h : (machine x).Reach (Roomy x) s) : s.live x ≤ limit + x.maxSchedulerLoopNum := by
  have hboth : s.activity.Sound ∧ s.total x ≤ limit + x.maxSchedulerLoopNum := by
    refine h.invariant (I := fun s ↦ s.activity.Sound ∧
      s.total x ≤ limit + x.maxSchedulerLoopNum) ?_ ?_
    · rintro s rfl
      exact ⟨.start x.isDistributed x.limit, Nat.zero_le _⟩
    · rintro s e t _ ⟨hsound, htotal⟩ hroomy hs
      refine ⟨sound_step hsound hs, ?_⟩
      obtain hle | ⟨⟨task, he⟩, hpasses, hle⟩ := total_step hs
      · exact Nat.le_trans hle htotal
      · have hlive := live_lt_of_passes hsound hlimit hpasses
        have hroom : s.uncounted < (limit - s.live x) + x.maxSchedulerLoopNum := by
          obtain rfl | rfl := he
          · exact hroomy hpasses limit hlimit
          · exact hroomy hpasses limit hlimit
        have hbefore : s.total x = s.live x + s.uncounted := rfl
        omega
  exact Nat.le_trans (Nat.le_add_right ..) hboth.2

/-- An engine with one loop whose `MAX_CONCURRENT_REQ` is 1: its limit is 50. -/
def single : Setup where
  owner := 1
  maxConcurrentReq := some 1
  maxSchedulerLoopNum := 1
  isDistributed := false
  limit := none
  owner_ne_zero := by decide

/-- One request goes from the scheduler to the downloader. -/
def oneDownload : List Event :=
  let loop : Tasks.Task := ⟨0, single.schedulerLoop.getFuncName, some 1, .running, false⟩
  let chain : Tasks.Task :=
    ⟨1, single.processDownloadInterceptorChain.getFuncName, some 1, .running, false⟩
  [.startLoop true, .activity (.manager (.enter { loop with phase := .created })), .check loop,
    .get loop true true, .check loop,
    .activity (.manager (.enter { chain with phase := .created })), .intercept chain true true]

theorem live_le_of_roomy_oneDownload :
    (((machine single).runIf (Roomy single) (.start single) oneDownload).getD
      (.start single)).live single ≤ 50 + 1 ∧
    ((machine single).runIf (Roomy single) (.start single) oneDownload).map (·.live single) =
      some 1 :=
  ⟨live_le_of_roomy single rfl (.runIf oneDownload (.init rfl) rfl), by decide⟩

/-- With one loop and a limit of 50 there can be more than 51 downloads. -/
theorem live_le_of_roomy_overloaded : single.maxInflightDownloaderTasks = some 50 ∧
    ∃ s, (machine single).Reachable s ∧ 50 + single.maxSchedulerLoopNum < s.live single :=
  ⟨rfl, live_unbounded rfl (by decide) 52⟩

end ScrapyCffi.Backpressure
