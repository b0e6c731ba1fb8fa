import ScrapyCffi.Base.Permits
import ScrapyCffi.Ffmpeg.Outcome

/-!
# The slots of an FFmpeg manager

`FFmpegProcessManager` with any number of handles (`utils/ffmpeg.py:207–362,386–490,609–650`): each
handle's supervising task takes a slot of the semaphore before it creates its process, and gives it
back in its `finally` when the output streams have ended. After an error at stdin the task does not
wait for the process.
-/

namespace ScrapyCffi.Ffmpeg

open ScrapyCffi.Base

/-- The slot of a supervising task, `acquired` and its release. -/
inductive Slot
  | unacquired
  | held
  | released
  deriving DecidableEq, Repr

/-- A handle with its supervising task; `streamsEnded` tells that both output streams are at their
end, `stdinFailed` that the feeding raised, and `finished` that `_execute` is over. -/
structure Handle where
  process : State
  slot : Slot
  streamsEnded : Bool
  stdinFailed : Bool
  finished : Bool
  deriving DecidableEq, Repr

/-- `FFmpegProcessManager` with every handle it created; `free` is the value of its semaphore and
`processes` are the handles in `_processes`. -/
structure Manager where
  maxProcesses : Option Nat
  free : Nat
  handles : List Handle
  processes : List Nat
  closed : Bool
  deriving DecidableEq, Repr

/-- What happens to a manager; the calls of `stop` that `close` makes come as events of their
handles. -/
inductive ManagerEvent
  | create (hasInput : Bool)
  | close
  | act (handle : Nat) (event : Event)
  /-- The output streams of a process end: it closes them, or has exited. -/
  | endStreams (handle : Nat)
  /-- The `finally` of `_execute` runs to its end. -/
  | finish (handle : Nat)
  deriving DecidableEq, Repr

/-- A handle that `create` returns. -/
def Handle.created (hasInput : Bool) : Handle where
  process := .created hasInput
  slot := .unacquired
  streamsEnded := false
  stdinFailed := false
  finished := false

/-- An event of one handle; without a limit there is no semaphore. -/
def Handle.act (limited : Bool) (h : Handle) (e : Event) : Option Handle :=
  (h.process.step e).bind fun process ↦
    match e with
    | .close => none
    | .slot => some { h with process, slot := if limited then .held else h.slot }
    | .drained => if h.streamsEnded then some { h with process } else none
    | .feedFailed => some { h with process, stdinFailed := true }
    | _ => some { h with process }

/-- Whether the `gather` in the `finally` of `_execute` returns. -/
def Handle.finishes (h : Handle) : Bool :=
  decide (h.process.runner = .ended) && !h.finished &&
    (decide (h.process.process = .none) || h.streamsEnded)

/-- The `finally` of `_execute`. -/
def Handle.finish (h : Handle) : Handle :=
  { h with slot := if h.slot = .held then .released else h.slot, finished := true }

namespace Manager

/-- A new manager. -/
def init (maxProcesses : Option Nat) : Manager where
  maxProcesses
  free := maxProcesses.getD 0
  handles := []
  processes := []
  closed := false

/-- A handle has changed; `_complete` takes it out of `_processes`. -/
def update (s : Manager) (i : Nat) (h : Handle) : Manager :=
  { s with
    handles := s.handles.set i h
    processes := if h.process.published = [] then s.processes else s.processes.filter (· ≠ i) }

/-- An event of a handle. -/
def act (s : Manager) (i : Nat) (h : Handle) (e : Event) : Option Manager :=
  if e = .slot ∧ s.maxProcesses.isSome then
    if s.free = 0 then none
    else (h.act true e).map fun t ↦ { s.update i t with free := s.free - 1 }
  else (h.act s.maxProcesses.isSome e).map (s.update i)

/-- One event. -/
def step (s : Manager) : ManagerEvent → Option Manager
  | .create hasInput =>
    if s.closed then none
    else some { s with
      handles := s.handles ++ [.created hasInput]
      processes := s.processes ++ [s.handles.length] }
  | .close => some { s with closed := true }
  | .act i e => s.handles[i]?.bind fun h ↦ s.act i h e
  | .endStreams i => s.handles[i]?.bind fun h ↦
    if h.process.process = .none then none else some (s.update i { h with streamsEnded := true })
  | .finish i => s.handles[i]?.bind fun h ↦
    if h.finishes then
      some { s.update i h.finish with free := if h.slot = .held then s.free + 1 else s.free }
    else none

/-- The number of processes that are alive. -/
def live (s : Manager) : Nat := s.handles.countP fun h ↦ h.process.process = .alive

end Manager

/-- The runs of a manager with any limit. -/
def managerMachine : Machine Manager ManagerEvent where
  init s := ∃ maxProcesses : Option Nat, maxProcesses ≠ some 0 ∧ s = .init maxProcesses
  step := Manager.step

/-- No more processes are alive than the limit, every slot is free or held by one task, which gives
it back once and when its process has exited, and a handle with a result is not tracked. -/
structure Manager.Bounded (s : Manager) : Prop where
  live : ∀ limit, s.maxProcesses = some limit → s.live ≤ limit
  conserved : ∀ limit, s.maxProcesses = some limit →
    Conserved (fun h ↦ h.slot = .held) limit s.free s.handles
  released : ∀ h ∈ s.handles, h.slot = .released → h.process.process ≠ .alive
  finished : ∀ h ∈ s.handles, h.finished = true → h.slot ≠ .held
  untracked : ∀ i h, s.handles[i]? = some h → h.process.state.isTerminal = true →
    i ∉ s.processes

/-- After an error at stdin the streams of a process have ended only when it has exited. -/
def ExitsFirst (s : Manager) : ManagerEvent → Prop
  | .finish i => (s.handles[i]?.any fun h ↦
      h.stdinFailed && decide (h.process.process = .alive)) = false
  | _ => True

instance (s : Manager) : ∀ e, Decidable (ExitsFirst s e)
  | .finish i => inferInstanceAs (Decidable ((s.handles[i]?.any fun h ↦
      h.stdinFailed && decide (h.process.process = .alive)) = false))
  | .create _ => isTrue trivial
  | .close => isTrue trivial
  | .act _ _ => isTrue trivial
  | .endStreams _ => isTrue trivial

/-! ## One process -/

section Process

variable {s t : State}

/-- A terminal state has been published. -/
def State.Announced (s : State) : Prop := s.state.isTerminal = true → s.published ≠ []

@[simp] theorem State.process_complete (state : ProcessState) :
    (s.complete state).process = s.process := by
  rw [State.complete]
  split <;> rfl

theorem State.announced_complete (state : ProcessState) : (s.complete state).Announced := by
  rw [State.complete, State.Announced]
  split
  · next hpublished => exact fun _ ↦ hpublished
  · exact fun _ ↦ List.cons_ne_nil _ _

/-- The controls change neither the supervising task nor the process. -/
structure State.Controlled (s t : State) : Prop where
  runner : t.runner = s.runner
  process : t.process = s.process
  announced : s.Announced → t.Announced

theorem State.controlled_control (s : State) (kill : Bool) (calls : List Call) :
    s.Controlled { (s.control kill).1 with calls } := by
  rw [State.control]
  dsimp only
  split
  · split
    · exact ⟨State.runner_complete _, State.process_complete _, fun _ ↦ State.announced_complete _⟩
    · exact ⟨rfl, rfl, id⟩
  · exact ⟨rfl, rfl, fun _ hterminal ↦ by cases hterminal⟩

theorem State.controlled_call (s : State) (kill : Bool) : s.Controlled (s.call kill) := by
  rw [State.call]
  split
  · exact ⟨rfl, rfl, id⟩
  · exact s.controlled_control kill _

theorem State.controlled_resume {n : Nat} (hs : s.resume n = some t) : s.Controlled t := by
  rw [State.resume] at hs
  split at hs
  · split at hs
    · cases hs
    · split at hs
      · cases hs
        exact ⟨rfl, rfl, id⟩
      · cases hs
        exact s.controlled_control _ _
  · cases hs
    exact ⟨rfl, rfl, id⟩
  · split at hs <;> cases hs
    exact ⟨rfl, rfl, id⟩
  · split at hs <;> cases hs
    exact ⟨rfl, rfl, id⟩
  · cases hs
  · cases hs

theorem State.controlled_timeout {n : Nat} (hs : s.timeout n = some t) : s.Controlled t := by
  rw [State.timeout] at hs
  split at hs
  · cases hs
    exact ⟨rfl, rfl, id⟩
  · cases hs
    exact ⟨rfl, rfl, id⟩
  · cases hs

/-- A terminal state is reached only with a result. -/
theorem State.Announced.step (h : s.Announced) {e : Event} (hs : s.step e = some t) :
    t.Announced := by
  cases e with
  | stop =>
    cases hs
    exact (s.controlled_call false).announced h
  | kill =>
    cases hs
    exact (s.controlled_call true).announced h
  | resume n => exact (State.controlled_resume hs).announced h
  | timeout n => exact (State.controlled_timeout hs).announced h
  | close =>
    simp only [State.step] at hs
    split at hs <;> cases hs
    · exact h
    · exact (s.controlled_call false).announced h
  | slot =>
    simp only [State.step] at hs
    split at hs
    · split at hs <;> cases hs
      · exact State.announced_complete _
      · exact fun hterminal ↦ by cases hterminal
    · cases hs
  | cancelled | spawnFailed | feedFailed | drained =>
    simp only [State.step] at hs
    split at hs <;> cases hs
    exact State.announced_complete _
  | spawned =>
    simp only [State.step] at hs
    split at hs <;> cases hs
    exact fun hterminal ↦ by cases hterminal
  | fed | exit | notice | waited =>
    simp only [State.step] at hs
    split at hs <;> cases hs
    exact h
  | callbackRaises =>
    simp only [State.step] at hs
    split at hs <;> cases hs
    exact h

end Process

/-! ## One handle -/

/-- How far the supervising task is with its slot, when there is a limit. -/
inductive Handle.Stage (h : Handle) : Prop
  | queued : h.process.runner = .queued → h.process.process = .none → h.slot = .unacquired →
      h.finished = false → Stage h
  | starting : h.process.runner = .starting → h.process.process = .none → h.slot = .held →
      h.finished = false → Stage h
  | active : h.process.runner = .feeding ∨ h.process.runner = .waiting →
      h.process.process ≠ .none → h.slot = .held → h.finished = false → Stage h
  | draining : h.process.runner = .draining → h.process.process ≠ .none →
      h.process.process ≠ .alive → h.slot = .held → h.finished = false → Stage h
  | ended : h.process.runner = .ended → (h.stdinFailed = false → h.process.process ≠ .alive) →
      h.slot = .held → h.finished = false → Stage h
  | unacquired : h.process.runner = .ended → h.process.process = .none → h.slot = .unacquired →
      Stage h
  | released : h.process.runner = .ended → h.process.process ≠ .alive → h.slot = .released →
      Stage h

namespace Handle

variable {h t : Handle}

/-- A stage says that a live process has a slot, and a finished task none. -/
theorem Stage.alive (hs : h.Stage) (halive : h.process.process = .alive) : h.slot = .held := by
  cases hs <;> simp_all

theorem Stage.finished_slot (hs : h.Stage) (hfinished : h.finished = true) : h.slot ≠ .held := by
  cases hs <;> simp_all

theorem Stage.released_process (hs : h.Stage) (hslot : h.slot = .released) :
    h.process.process ≠ .alive := by
  cases hs <;> simp_all

/-- A stage depends on the supervising task, the process and the slot. -/
theorem Stage.same (hs : h.Stage) (hrunner : t.process.runner = h.process.runner)
    (hprocess : t.process.process = h.process.process) (hslot : t.slot = h.slot)
    (hstdin : t.stdinFailed = h.stdinFailed) (hfinished : t.finished = h.finished) : t.Stage := by
  cases hs with
  | queued hr hp hl hf =>
    exact .queued (hrunner.trans hr) (hprocess.trans hp) (hslot.trans hl) (hfinished.trans hf)
  | starting hr hp hl hf =>
    exact .starting (hrunner.trans hr) (hprocess.trans hp) (hslot.trans hl) (hfinished.trans hf)
  | active hr hp hl hf =>
    rw [← hrunner] at hr
    exact .active hr (hprocess ▸ hp) (hslot.trans hl) (hfinished.trans hf)
  | draining hr hp hd hl hf =>
    exact .draining (hrunner.trans hr) (hprocess ▸ hp) (hprocess ▸ hd) (hslot.trans hl)
      (hfinished.trans hf)
  | ended hr hd hl hf =>
    rw [← hstdin, ← hprocess] at hd
    exact .ended (hrunner.trans hr) hd (hslot.trans hl) (hfinished.trans hf)
  | unacquired hr hp hl => exact .unacquired (hrunner.trans hr) (hprocess.trans hp) (hslot.trans hl)
  | released hr hd hl => exact .released (hrunner.trans hr) (hprocess ▸ hd) (hslot.trans hl)

/-- A process that exists has ended further. -/
theorem Stage.exits (hs : h.Stage) {process : OsProcess} (hsome : h.process.process ≠ .none)
    (hnone : process ≠ .none) (halive : process ≠ .alive) :
    Stage { h with process := { h.process with process } } := by
  cases hs with
  | queued _ hp => exact absurd hp hsome
  | starting _ hp => exact absurd hp hsome
  | active hr _ hl hf => exact .active hr hnone hl hf
  | draining hr _ _ hl hf => exact .draining hr hnone halive hl hf
  | ended hr _ hl hf => exact .ended hr (fun _ ↦ halive) hl hf
  | unacquired _ hp => exact absurd hp hsome
  | released hr _ hl => exact .released hr halive hl

/-- A task that is not queued and not over holds its slot. -/
theorem Stage.held (hs : h.Stage) (hqueued : h.process.runner ≠ .queued)
    (hended : h.process.runner ≠ .ended) : h.slot = .held ∧ h.finished = false := by
  cases hs <;> simp_all

theorem Stage.none (hs : h.Stage)
    (hrunner : h.process.runner = .queued ∨ h.process.runner = .starting) :
    h.process.process = .none := by
  cases hs with
  | active hr => rcases hr with hr | hr <;> simp_all
  | _ => simp_all

theorem Stage.unacquired_of_queued (hs : h.Stage) (hrunner : h.process.runner = .queued) :
    h.slot = .unacquired ∧ h.finished = false := by
  cases hs <;> simp_all

/-- An event of a handle keeps its stage. -/
theorem Stage.act (hs : h.Stage) {e : Event} (hstep : h.act true e = some t) : t.Stage := by
  obtain ⟨process, hprocess, ht⟩ := Option.bind_eq_some_iff.mp hstep
  cases e with
  | close => cases ht
  | stop =>
    cases ht
    cases hprocess
    have hsame := h.process.controlled_call false
    exact hs.same hsame.runner hsame.process rfl rfl rfl
  | kill =>
    cases ht
    cases hprocess
    have hsame := h.process.controlled_call true
    exact hs.same hsame.runner hsame.process rfl rfl rfl
  | resume n =>
    cases ht
    have hsame := State.controlled_resume hprocess
    exact hs.same hsame.runner hsame.process rfl rfl rfl
  | timeout n =>
    cases ht
    have hsame := State.controlled_timeout hprocess
    exact hs.same hsame.runner hsame.process rfl rfl rfl
  | callbackRaises =>
    cases ht
    simp only [State.step] at hprocess
    split at hprocess <;> cases hprocess
    exact hs.same rfl rfl rfl rfl rfl
  | slot =>
    cases ht
    simp only [State.step] at hprocess
    split at hprocess
    · next hrunner =>
      have hnone := hs.none (.inl hrunner.1)
      have hfinished := (hs.unacquired_of_queued hrunner.1).2
      split at hprocess <;> cases hprocess
      · exact .ended rfl (fun _ ↦ by simp [State.completeCancelled, hnone]) rfl hfinished
      · exact .starting rfl hnone rfl hfinished
    · cases hprocess
  | cancelled =>
    cases ht
    simp only [State.step] at hprocess
    split at hprocess <;> cases hprocess
    next hrunner =>
    have hnone := hs.none (.inl hrunner.1)
    exact .unacquired rfl (by simp [State.completeCancelled, hnone])
      (hs.unacquired_of_queued hrunner.1).1
  | spawned =>
    cases ht
    simp only [State.step] at hprocess
    split at hprocess <;> cases hprocess
    next hrunner =>
    have hheld := hs.held (by simp [hrunner]) (by simp [hrunner])
    refine .active ?_ (by simp) hheld.1 hheld.2
    by_cases hinput : h.process.hasInput <;> simp [hinput]
  | spawnFailed =>
    cases ht
    simp only [State.step] at hprocess
    split at hprocess <;> cases hprocess
    next hrunner =>
    have hheld := hs.held (by simp [hrunner]) (by simp [hrunner])
    exact .ended rfl (fun _ ↦ by simp [hs.none (.inr hrunner)]) hheld.1 hheld.2
  | fed =>
    cases ht
    simp only [State.step] at hprocess
    split at hprocess <;> cases hprocess
    next hrunner =>
    have hheld := hs.held (by simp [hrunner]) (by simp [hrunner])
    refine .active (.inr rfl) ?_ hheld.1 hheld.2
    cases hs <;> simp_all
  | feedFailed =>
    cases ht
    simp only [State.step] at hprocess
    split at hprocess <;> cases hprocess
    next hrunner =>
    have hheld := hs.held (by simp [hrunner]) (by simp [hrunner])
    exact .ended rfl (fun hfailed ↦ by cases hfailed) hheld.1 hheld.2
  | exit code =>
    cases ht
    simp only [State.step] at hprocess
    split at hprocess <;> cases hprocess
    next halive => exact hs.exits (by simp [halive]) (by simp) (by simp)
  | notice =>
    cases ht
    simp only [State.step] at hprocess
    split at hprocess <;> cases hprocess
    next hexited => exact hs.exits (by simp [hexited]) (by simp) (by simp)
  | waited =>
    cases ht
    simp only [State.step] at hprocess
    split at hprocess <;> cases hprocess
    next hrunner hnoticed =>
    have hheld := hs.held (by simp [hrunner]) (by simp [hrunner])
    exact .draining rfl (by simp [hnoticed]) (by simp [hnoticed]) hheld.1 hheld.2
  | drained =>
    dsimp only at ht
    split at ht <;> cases ht
    simp only [State.step] at hprocess
    split at hprocess <;> cases hprocess
    next hrunner =>
    have hheld := hs.held (by simp [hrunner]) (by simp [hrunner])
    refine .ended rfl (fun _ ↦ ?_) hheld.1 hheld.2
    rw [State.process_complete]
    cases hs <;> simp_all

/-- The `finally` keeps the stage when the process has exited. -/
theorem Stage.finish (hs : h.Stage) (hfinishes : h.finishes = true)
    (hexits : h.stdinFailed = true → h.process.process ≠ .alive) : h.finish.Stage := by
  have hended : h.process.runner = .ended := by
    rw [finishes, Bool.and_eq_true, Bool.and_eq_true] at hfinishes
    exact of_decide_eq_true hfinishes.1.1
  have hexited : h.process.process ≠ .alive := by
    cases hfailed : h.stdinFailed with
    | true => exact hexits hfailed
    | false => cases hs <;> simp_all
  cases hslot : h.slot with
  | unacquired =>
    refine .unacquired hended ?_ (by simp [Handle.finish, hslot])
    cases hs <;> simp_all [Handle.finish]
  | held => exact .released hended hexited (by simp [Handle.finish, hslot])
  | released => exact .released hended hexited (by simp [Handle.finish, hslot])

/-- The process of a handle announces its terminal state before and after an event. -/
theorem announced_act {limited : Bool} {e : Event} (hstep : h.act limited e = some t)
    (ha : h.process.Announced) : t.process.Announced := by
  obtain ⟨process, hprocess, ht⟩ := Option.bind_eq_some_iff.mp hstep
  have hannounced := ha.step hprocess
  split at ht
  · cases ht
  · cases ht
    exact hannounced
  · split at ht <;> cases ht
    exact hannounced
  · cases ht
    exact hannounced
  · cases ht
    exact hannounced

/-- Only the acquisition changes the slot. -/
theorem slot_act {limited : Bool} {e : Event} (hstep : h.act limited e = some t) :
    t.slot = if e = .slot ∧ limited then .held else h.slot := by
  obtain ⟨process, -, ht⟩ := Option.bind_eq_some_iff.mp hstep
  split at ht
  · cases ht
  · cases ht
    cases limited <;> rfl
  · split at ht <;> cases ht
    rfl
  · cases ht
    rfl
  · next hslot _ _ =>
    cases ht
    rw [if_neg fun he ↦ hslot he.1]

end Handle

/-! ## The manager -/

namespace Manager

variable {s t : Manager}

/-- The invariant of a manager. -/
structure Valid (s : Manager) : Prop where
  stage : s.maxProcesses.isSome = true → ∀ h ∈ s.handles, h.Stage
  unlimited : s.maxProcesses = none → ∀ h ∈ s.handles, h.slot = .unacquired
  announced : ∀ h ∈ s.handles, h.process.Announced
  conserved : ∀ limit, s.maxProcesses = some limit →
    Conserved (fun h ↦ h.slot = .held) limit s.free s.handles
  untracked : ∀ i h, s.handles[i]? = some h → h.process.published ≠ [] → i ∉ s.processes

/-- A valid manager is bounded. -/
theorem Valid.bounded (hs : s.Valid) : s.Bounded := by
  have hstage : ∀ limit, s.maxProcesses = some limit → ∀ h ∈ s.handles, h.Stage :=
    fun limit hlimit ↦ hs.stage (by rw [hlimit]; rfl)
  constructor
  · intro limit hlimit
    refine (hs.conserved limit hlimit).countP_le fun h hmem halive ↦ ?_
    have hheld := (hstage limit hlimit h hmem).alive (of_decide_eq_true halive)
    exact decide_eq_true hheld
  · exact hs.conserved
  · intro h hmem hslot
    cases hlimit : s.maxProcesses with
    | none =>
      rw [hs.unlimited hlimit h hmem] at hslot
      cases hslot
    | some limit => exact (hstage limit hlimit h hmem).released_process hslot
  · intro h hmem hfinished
    cases hlimit : s.maxProcesses with
    | none => simp [hs.unlimited hlimit h hmem]
    | some limit => exact (hstage limit hlimit h hmem).finished_slot hfinished
  · exact fun i h hi hterminal ↦
      hs.untracked i h hi (hs.announced h (List.mem_of_getElem? hi) hterminal)

/-- One handle changes. -/
theorem Valid.update (hs : s.Valid) {i free : Nat} {old new : Handle}
    (hi : s.handles[i]? = some old) (hstage : s.maxProcesses.isSome = true → new.Stage)
    (hunlimited : s.maxProcesses = none → new.slot = .unacquired)
    (hannounced : new.process.Announced)
    (hconserved : ∀ limit, s.maxProcesses = some limit →
      Conserved (fun h ↦ h.slot = .held) limit free (s.handles.set i new)) :
    Valid { s.update i new with free } := by
  have hset : ∀ h ∈ s.handles.set i new, h ∈ s.handles ∨ h = new :=
    fun h hmem ↦ List.mem_or_eq_of_mem_set hmem
  refine ⟨fun hlimited h hmem ↦ ?_, fun hnone h hmem ↦ ?_, fun h hmem ↦ ?_, hconserved,
    fun j h hj hpublished ↦ ?_⟩
  · rcases hset h hmem with hold | rfl
    · exact hs.stage hlimited h hold
    · exact hstage hlimited
  · rcases hset h hmem with hold | rfl
    · exact hs.unlimited hnone h hold
    · exact hunlimited hnone
  · rcases hset h hmem with hold | rfl
    · exact hs.announced h hold
    · exact hannounced
  · show j ∉ if new.process.published = [] then s.processes else s.processes.filter (· ≠ i)
    have hj : (s.handles.set i new)[j]? = some h := hj
    by_cases hsame : i = j
    · subst hsame
      rw [List.getElem?_set_self (List.getElem?_eq_some_iff.mp hi).1] at hj
      cases hj
      rw [if_neg hpublished]
      simp
    · rw [List.getElem?_set_ne hsame] at hj
      have huntracked := hs.untracked j h hj hpublished
      split
      · exact huntracked
      · exact fun hmem ↦ huntracked (List.mem_filter.mp hmem).1

/-- An event of a handle. -/
theorem Valid.act (hs : s.Valid) {i : Nat} {h : Handle} (hi : s.handles[i]? = some h) {e : Event}
    (hstep : s.act i h e = some t) : t.Valid := by
  have hmem := List.mem_of_getElem? hi
  rw [Manager.act] at hstep
  split at hstep
  · next hslot =>
    split at hstep
    · cases hstep
    · next hfree =>
      obtain ⟨new, hact, rfl⟩ := Option.map_eq_some_iff.mp hstep
      obtain ⟨process, hprocess, -⟩ := Option.bind_eq_some_iff.mp hact
      have hqueued : h.process.runner = .queued := by
        rw [hslot.1] at hprocess
        simp only [State.step] at hprocess
        split at hprocess
        · next hrunner => exact hrunner.1
        · cases hprocess
      have hnew : new.slot = .held := by
        rw [Handle.slot_act hact, if_pos ⟨hslot.1, rfl⟩]
      refine hs.update hi (fun hlimited ↦ (hs.stage hlimited h hmem).act hact) (fun hnone ↦ ?_)
        (Handle.announced_act hact (hs.announced h hmem)) fun limit hlimit ↦ ?_
      · rw [hnone] at hslot
        exact absurd hslot.2 (by decide)
      · have hunacquired := ((hs.stage hslot.2 h hmem).unacquired_of_queued hqueued).1
        exact (hs.conserved limit hlimit).acquire hfree hi (by simp [hunacquired]) (by simp [hnew])
  · next hslot =>
    obtain ⟨new, hact, rfl⟩ := Option.map_eq_some_iff.mp hstep
    have hnew : new.slot = h.slot := by rw [Handle.slot_act hact, if_neg hslot]
    refine hs.update hi (fun hlimited ↦ ?_) (fun hnone ↦ ?_)
      (Handle.announced_act hact (hs.announced h hmem)) fun limit hlimit ↦ ?_
    · rw [hlimited] at hact
      exact (hs.stage hlimited h hmem).act hact
    · rw [hnew]
      exact hs.unlimited hnone h hmem
    · exact (hs.conserved limit hlimit).moved hi (by rw [hnew])

/-- The `finally` of a supervising task. -/
theorem Valid.finish (hs : s.Valid) {i : Nat} {h : Handle} (hi : s.handles[i]? = some h)
    (hfinishes : h.finishes = true)
    (hexits : h.stdinFailed = true → h.process.process ≠ .alive) :
    Valid { s.update i h.finish with
      free := if h.slot = .held then s.free + 1 else s.free } := by
  have hmem := List.mem_of_getElem? hi
  refine hs.update hi (fun hlimited ↦ (hs.stage hlimited h hmem).finish hfinishes hexits)
    (fun hnone ↦ ?_) (hs.announced h hmem) fun limit hlimit ↦ ?_
  · simp [Handle.finish, hs.unlimited hnone h hmem]
  · by_cases hheld : h.slot = .held
    · rw [if_pos hheld]
      exact (hs.conserved limit hlimit).release hi (by simp [hheld])
        (by simp [Handle.finish, hheld])
    · rw [if_neg hheld]
      exact (hs.conserved limit hlimit).moved hi (by simp [Handle.finish, hheld])

/-- A new handle is tracked. -/
theorem Valid.create (hs : s.Valid) (hasInput : Bool) : Valid { s with
    handles := s.handles ++ [.created hasInput]
    processes := s.processes ++ [s.handles.length] } := by
  have hjoin : ∀ h ∈ s.handles ++ [Handle.created hasInput],
      h ∈ s.handles ∨ h = .created hasInput :=
    fun h hmem ↦ (List.mem_append.mp hmem).imp_right List.mem_singleton.mp
  refine ⟨fun hlimited h hmem ↦ ?_, fun hnone h hmem ↦ ?_, fun h hmem ↦ ?_,
    fun limit hlimit ↦ (hs.conserved limit hlimit).join rfl, fun i h hi hpublished ↦ ?_⟩
  · rcases hjoin h hmem with hold | rfl
    · exact hs.stage hlimited h hold
    · exact .queued rfl rfl rfl rfl
  · rcases hjoin h hmem with hold | rfl
    · exact hs.unlimited hnone h hold
    · rfl
  · rcases hjoin h hmem with hold | rfl
    · exact hs.announced h hold
    · exact fun hterminal ↦ by cases hterminal
  · have hi : (s.handles ++ [Handle.created hasInput])[i]? = some h := hi
    rcases Nat.lt_or_ge i s.handles.length with hlt | hge
    · rw [List.getElem?_append_left hlt] at hi
      intro hmem
      rcases List.mem_append.mp hmem with hold | hnew
      · exact hs.untracked i h hi hpublished hold
      · exact absurd (List.mem_singleton.mp hnew) (Nat.ne_of_lt hlt)
    · rw [List.getElem?_append_right hge] at hi
      have hcreated := List.mem_singleton.mp (List.mem_of_getElem? hi)
      rw [hcreated] at hpublished
      exact absurd rfl hpublished

/-- A step keeps the invariant, unless a process outlives its streams after an error at stdin. -/
theorem Valid.step (hs : s.Valid) {e : ManagerEvent} (hguard : ExitsFirst s e)
    (hstep : s.step e = some t) : t.Valid := by
  cases e with
  | create hasInput =>
    simp only [Manager.step] at hstep
    split at hstep <;> cases hstep
    exact hs.create hasInput
  | close =>
    cases hstep
    exact ⟨hs.stage, hs.unlimited, hs.announced, hs.conserved, hs.untracked⟩
  | act i e =>
    obtain ⟨h, hi, hact⟩ := Option.bind_eq_some_iff.mp hstep
    exact hs.act hi hact
  | endStreams i =>
    obtain ⟨h, hi, hends⟩ := Option.bind_eq_some_iff.mp hstep
    split at hends <;> cases hends
    have hmem := List.mem_of_getElem? hi
    exact hs.update hi (fun hlimited ↦ (hs.stage hlimited h hmem).same rfl rfl rfl rfl rfl)
      (fun hnone ↦ hs.unlimited hnone h hmem) (hs.announced h hmem)
      fun limit hlimit ↦ (hs.conserved limit hlimit).moved hi rfl
  | finish i =>
    obtain ⟨h, hi, hfinish⟩ := Option.bind_eq_some_iff.mp hstep
    split at hfinish <;> cases hfinish
    next hfinishes =>
    refine hs.finish hi hfinishes fun hfailed halive ↦ ?_
    rw [ExitsFirst, hi] at hguard
    simp [hfailed, halive] at hguard

end Manager

/-- In every run in which the processes exit first after an error at stdin, the manager is
bounded. -/
theorem capacity_bounded {s : Manager} (h : managerMachine.Reach ExitsFirst s) : s.Bounded := by
  have hvalid : s.Valid := by
    refine h.invariant (I := Manager.Valid) (fun u hinit ↦ ?_)
      fun u e t _ ih hguard hstep ↦ ih.step hguard hstep
    obtain ⟨maxProcesses, -, rfl⟩ := hinit
    refine ⟨fun _ _ hmem ↦ (by cases hmem), fun _ _ hmem ↦ (by cases hmem),
      fun _ hmem ↦ (by cases hmem), fun limit hlimit ↦ ?_, fun _ _ hi ↦ (by cases hi)⟩
    have hlimit : maxProcesses = some limit := hlimit
    rw [hlimit]
    rfl
  exact hvalid.bounded

/-- One process runs to its end while a second one is killed in the queue. -/
def killedInQueue : List ManagerEvent :=
  [.create true, .create false, .act 0 .slot, .act 1 .kill, .act 0 .spawned, .act 0 .fed,
    .act 1 .cancelled, .finish 1, .act 0 (.exit 0), .endStreams 0, .act 0 .notice, .act 0 .waited,
    .act 0 .drained, .finish 0]

/-- The slot is free again. -/
theorem capacity_bounded_killedInQueue : ∃ s : Manager,
    managerMachine.run (.init (some 1)) killedInQueue = some s ∧ s.free = 1 ∧ s.Bounded := by
  have hreach : ∀ s, managerMachine.runIf ExitsFirst (.init (some 1)) killedInQueue = some s →
      managerMachine.Reach ExitsFirst s :=
    fun s hs ↦ .runIf killedInQueue (.init ⟨some 1, by decide, rfl⟩) hs
  exact ⟨_, rfl, rfl, capacity_bounded (hreach _ rfl)⟩

/-- A process closes its stdin and its output streams and goes on; a second one is created. -/
def brokenPipes : List ManagerEvent :=
  [.create true, .create false, .act 0 .slot, .act 0 .spawned, .endStreams 0, .act 0 .feedFailed,
    .finish 0, .act 1 .slot, .act 1 .spawned]

/-- With a limit of one, two processes are alive. -/
theorem broken_pipes_exceed_limit : ¬ ∀ s, managerMachine.Reachable s → s.Bounded := by
  intro h
  have hrun : ∃ s : Manager, managerMachine.run (.init (some 1)) brokenPipes = some s ∧
      s.maxProcesses = some 1 ∧ s.live = 2 := ⟨_, rfl, rfl, rfl⟩
  obtain ⟨s, hs, hlimit, hlive⟩ := hrun
  have hinit : managerMachine.Reachable (.init (some 1)) := .init ⟨some 1, by decide, rfl⟩
  have hreach := hinit.run brokenPipes hs
  have hle := (h s hreach).live 1 hlimit
  rw [hlive] at hle
  exact absurd hle (by decide)

end ScrapyCffi.Ffmpeg
