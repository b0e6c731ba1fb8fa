import ScrapyCffi.Ffmpeg.Process

/-!
# The outcome of an FFmpeg process

The result is published once, with the code the process ended with and the state its controls and
callbacks call for, and stays, as long as no pipe error reaches the supervising task before the
exit is noticed or against a stop, and no creation fails against a stop.
-/

namespace ScrapyCffi.Ffmpeg

open ScrapyCffi.Base

/-- The state that flags, callbacks and code call for. -/
def Outcome.dueState (o : Outcome) : ProcessState :=
  if o.forceKillRequested then .killed
  else if o.stopRequested then .cancelled
  else if o.callbackRaised ∨ o.returncode ≠ some 0 then .failed
  else .succeeded

/-- An outcome that is true: the process, if there is one, has ended, with this code. -/
structure Outcome.Truthful (o : Outcome) : Prop where
  process : o.process ≠ .alive
  returncode : o.returncode = o.process.exitCode
  state : o.state = o.dueState

/-- At most one result is published, and one at the end of the supervising task; it is true, no
process runs behind it, and the state of the handle is terminal from then on. -/
structure State.Settled (s : State) : Prop where
  once : s.published.length ≤ 1
  ended : s.runner = .ended → s.published.length = 1
  truthful : ∀ o ∈ s.published, o.Truthful
  process : s.published ≠ [] → s.process ≠ .alive
  state : ∀ o ∈ s.published, s.state = o.state
  terminal : s.state.isTerminal = true ↔ s.published ≠ []

/-- A pipe error is raised only after the exit was noticed, without a stop, and where the run has
failed anyway; a creation fails without a stop. -/
def FailsTruthfully (s : State) : Event → Prop
  | .feedFailed => s.process.returncode.isSome ∧ s.stopRequested = false ∧
      (s.callbackRaised ∨ s.process.returncode ≠ some 0)
  | .spawnFailed => s.stopRequested = false
  | _ => True

instance (s : State) : ∀ e, Decidable (FailsTruthfully s e)
  | .feedFailed => inferInstanceAs (Decidable (_ ∧ _))
  | .spawnFailed => inferInstanceAs (Decidable (_ = _))
  | .slot | .cancelled | .spawned | .fed | .exit _ | .notice | .waited | .callbackRaises | .drained
  | .stop | .kill | .close | .resume _ | .timeout _ => .isTrue trivial

/-- Where the supervising task and the result are. -/
inductive State.Stage (s : State) : Prop
  | queued : s.runner = .queued → s.runnerCancelled = false → s.process = .none →
      s.state = .queued → s.published = [] → Stage s
  | starting : s.runner = .starting → s.process = .none → s.state = .starting →
      s.published = [] → Stage s
  | active : s.runner = .feeding ∨ s.runner = .waiting → s.process ≠ .none →
      s.state = .running ∨ s.state = .stopping → s.published = [] → Stage s
  | draining (code : Int) : s.runner = .draining → s.process = .noticed code →
      s.returncode = some code → s.state = .running ∨ s.state = .stopping → s.published = [] →
      Stage s
  | settled (o : Outcome) : s.runner = .queued ∧ s.runnerCancelled = true ∨ s.runner = .ended →
      s.process ≠ .alive → s.published = [o] → o.Truthful → o.state.isTerminal = true →
      s.state = o.state → Stage s

/-- The invariant of the runs. -/
structure State.Valid (s : State) : Prop where
  stage : s.Stage
  force : s.forceKillRequested = true → s.stopRequested = true
  returncode : s.process = .none → s.returncode = none
  calls : s.calls ≠ [] → s.stopRequested = true

variable {s t : State}

theorem State.Valid.settled (h : s.Valid) : s.Settled := by
  cases h.stage with
  | queued hrunner _ _ hstate hpublished =>
    constructor <;> simp [hrunner, hstate, hpublished, ProcessState.isTerminal]
  | starting hrunner _ hstate hpublished =>
    constructor <;> simp [hrunner, hstate, hpublished, ProcessState.isTerminal]
  | active hrunner _ hstate hpublished =>
    rcases hrunner with hrunner | hrunner <;> rcases hstate with hstate | hstate <;>
      constructor <;> simp [hrunner, hstate, hpublished, ProcessState.isTerminal]
  | draining code hrunner _ _ hstate hpublished =>
    rcases hstate with hstate | hstate <;>
      constructor <;> simp [hrunner, hstate, hpublished, ProcessState.isTerminal]
  | settled o _ hprocess hpublished htruthful hterminal hstate =>
    constructor <;> simp [hpublished, htruthful, hprocess, hterminal, hstate]

/-- The stage is read off a few fields. -/
theorem State.Stage.of_eq (h : s.Stage) (hrunner : t.runner = s.runner)
    (hcancelled : t.runnerCancelled = s.runnerCancelled) (hprocess : t.process = s.process)
    (hstate : t.state = s.state) (hreturncode : t.returncode = s.returncode)
    (hpublished : t.published = s.published) : t.Stage := by
  cases h with
  | queued h₁ h₂ h₃ h₄ h₅ =>
    exact .queued (hrunner.trans h₁) (hcancelled.trans h₂) (hprocess.trans h₃) (hstate.trans h₄)
      (hpublished.trans h₅)
  | starting h₁ h₂ h₃ h₄ =>
    exact .starting (hrunner.trans h₁) (hprocess.trans h₂) (hstate.trans h₃) (hpublished.trans h₄)
  | active h₁ h₂ h₃ h₄ =>
    exact .active (by rw [hrunner]; exact h₁) (by rw [hprocess]; exact h₂)
      (by rw [hstate]; exact h₃) (hpublished.trans h₄)
  | draining code h₁ h₂ h₃ h₄ h₅ =>
    exact .draining code (hrunner.trans h₁) (hprocess.trans h₂) (hreturncode.trans h₃)
      (by rw [hstate]; exact h₄) (hpublished.trans h₅)
  | settled o h₁ h₂ h₃ h₄ h₅ h₆ =>
    exact .settled o (by rw [hrunner, hcancelled]; exact h₁) (by rw [hprocess]; exact h₂)
      (hpublished.trans h₃) h₄ h₅ (hstate.trans h₆)

/-- Fields that no stage reads may change, and flags may be raised. -/
theorem State.Valid.of_eq (h : s.Valid) (hrunner : t.runner = s.runner)
    (hcancelled : t.runnerCancelled = s.runnerCancelled) (hprocess : t.process = s.process)
    (hstate : t.state = s.state) (hreturncode : t.returncode = s.returncode)
    (hpublished : t.published = s.published)
    (hforce : t.forceKillRequested = true → t.stopRequested = true)
    (hcalls : t.calls ≠ [] → t.stopRequested = true) : t.Valid where
  stage := h.stage.of_eq hrunner hcancelled hprocess hstate hreturncode hpublished
  force := hforce
  returncode hnone := hreturncode.trans (h.returncode (hprocess ▸ hnone))
  calls := hcalls

/-- A true first result settles the handle. -/
theorem State.valid_complete (hpublished : s.published = [])
    (hforce : s.forceKillRequested = true → s.stopRequested = true)
    (hreturncode : s.process = .none → s.returncode = none) {state : ProcessState}
    (hterminal : state.isTerminal = true) (htruthful : (s.outcome state).Truthful)
    (runner : Runner) (hrunner : runner = .queued ∧ s.runnerCancelled = true ∨ runner = .ended)
    (calls : List Call) (hcalls : calls ≠ [] → s.stopRequested = true) :
    ({ s.complete state with runner, calls } : State).Valid := by
  have hcomplete : s.complete state = { s with
      state, returncode := (s.outcome state).returncode, published := [s.outcome state] } := by
    rw [State.complete, if_neg (by simp [hpublished])]
  rw [hcomplete]
  refine ⟨.settled _ hrunner htruthful.process rfl htruthful hterminal rfl, hforce, ?_, hcalls⟩
  intro hnone
  have hnone : s.process = .none := hnone
  show (if s.process = .none then s.returncode else s.process.returncode) = none
  rw [if_pos hnone]
  exact hreturncode hnone

/-- A second result is not published. -/
theorem State.complete_of_published (h : s.published ≠ []) (state : ProcessState) :
    s.complete state = s := by
  rw [State.complete, if_pos h]

/-- A result without a process is true if its state is that of the flags. -/
theorem State.truthful_of_none (hreturncode : s.process = .none → s.returncode = none)
    (hprocess : s.process = .none) {state : ProcessState}
    (hstate : state = (s.outcome state).dueState) : (s.outcome state).Truthful := by
  refine ⟨by simp [State.outcome, hprocess], ?_, hstate⟩
  show (if s.process = .none then s.returncode else s.process.returncode) = s.process.exitCode
  rw [if_pos hprocess, hprocess]
  exact hreturncode hprocess

/-- A result behind a noticed exit is true if its state is that of the flags and the code. -/
theorem State.truthful_of_noticed {code : Int} (hprocess : s.process = .noticed code)
    {state : ProcessState} (hstate : state = (s.outcome state).dueState) :
    (s.outcome state).Truthful := by
  refine ⟨by simp [State.outcome, hprocess], ?_, hstate⟩
  simp [State.outcome, hprocess, OsProcess.returncode, OsProcess.exitCode]

/-- A cancellation is what a stop or a kill calls for. -/
theorem State.dueState_of_stopRequested (h : s.stopRequested = true) :
    (if s.forceKillRequested then ProcessState.killed else .cancelled) =
      (s.outcome (if s.forceKillRequested then .killed else .cancelled)).dueState := by
  rw [Outcome.dueState]
  show _ = if s.forceKillRequested then _ else if s.stopRequested then _ else _
  rw [if_pos h]

@[simp] theorem State.runner_complete (state : ProcessState) :
    (s.complete state).runner = s.runner := by
  rw [State.complete]
  split <;> rfl

/-- The control of a handle that is not terminal. -/
theorem State.Valid.control (h : s.Valid) (hterminal : s.state.isTerminal = false) (kill : Bool)
    (calls : List Call) : ({ (s.control kill).1 with calls } : State).Valid := by
  have hstopping : s.process ≠ .none →
      (s.control kill).1 = { s with
        stopRequested := true
        forceKillRequested := s.forceKillRequested || kill
        state := .stopping } := by
    intro hne
    rw [State.control]
    exact congrArg Prod.fst (if_neg hne)
  cases h.stage with
  | queued hrunner hcancelled hprocess hstate hpublished =>
    have hcontrol : (s.control kill).1 = State.completeCancelled { s with
        stopRequested := true
        forceKillRequested := s.forceKillRequested || kill
        runnerCancelled := true } := by
      rw [State.control]
      refine congrArg Prod.fst ((if_pos hprocess).trans (if_pos hstate))
    rw [hcontrol]
    generalize ht : ({ s with
        stopRequested := true
        forceKillRequested := s.forceKillRequested || kill
        runnerCancelled := true } : State) = t
    have hstop : t.stopRequested = true := by rw [← ht]
    have hnone : t.process = .none := by rw [← ht]; exact hprocess
    have hreturncode : t.process = .none → t.returncode = none := by rw [← ht]; exact h.returncode
    have hvalid : ({ t.completeCancelled with runner := .queued, calls } : State).Valid := by
      refine State.valid_complete (by rw [← ht]; exact hpublished) (fun _ ↦ hstop) hreturncode ?_
        (State.truthful_of_none hreturncode hnone (State.dueState_of_stopRequested hstop))
        _ (.inl ⟨rfl, by rw [← ht]⟩) calls (fun _ ↦ hstop)
      split <;> rfl
    have hqueued : t.completeCancelled.runner = .queued := by
      rw [State.completeCancelled, State.runner_complete, ← ht]
      exact hrunner
    exact hvalid.of_eq hqueued rfl rfl rfl rfl rfl hvalid.force hvalid.calls
  | starting hrunner hprocess hstate hpublished =>
    have hcontrol : (s.control kill).1 = { s with
        stopRequested := true
        forceKillRequested := s.forceKillRequested || kill } := by
      rw [State.control]
      exact congrArg Prod.fst ((if_pos hprocess).trans (if_neg (by simp [hstate])))
    rw [hcontrol]
    exact h.of_eq rfl rfl rfl rfl rfl rfl (fun _ ↦ rfl) fun _ ↦ rfl
  | active hrunner hprocess hstate hpublished =>
    rw [hstopping hprocess]
    exact ⟨.active hrunner hprocess (.inr rfl) hpublished, fun _ ↦ rfl, h.returncode, fun _ ↦ rfl⟩
  | draining code hrunner hprocess hreturncode hstate hpublished =>
    rw [hstopping (by simp [hprocess])]
    exact ⟨.draining code hrunner hprocess hreturncode (.inr rfl) hpublished, fun _ ↦ rfl,
      h.returncode, fun _ ↦ rfl⟩
  | settled o _ _ _ _ hstate hsame =>
    rw [hsame, hstate] at hterminal
    cases hterminal

/-- A call of `stop` or `kill` keeps the invariant. -/
theorem State.Valid.call (h : s.Valid) (kill : Bool) : (s.call kill).Valid := by
  rw [State.call]
  split
  · exact h
  · next hterminal => exact h.control (by simpa using hterminal) kill _

/-- Where a call awaits is not part of the invariant. -/
theorem State.Valid.setCall (h : s.Valid) {n : Nat} {old : Call} (hold : s.calls[n]? = some old)
    (call : Call) : ({ s with calls := s.calls.set n call } : State).Valid := by
  refine h.of_eq rfl rfl rfl rfl rfl rfl h.force fun _ ↦ h.calls ?_
  rintro hnil
  rw [hnil] at hold
  cases hold

/-- So does its going on. -/
theorem State.Valid.resume (h : s.Valid) {n : Nat} (hs : s.resume n = some t) : t.Valid := by
  rw [State.resume] at hs
  split at hs
  · next kill hcall =>
    split at hs
    · cases hs
    · split at hs
      · cases hs
        exact h.setCall hcall _
      · next hterminal =>
        cases hs
        exact h.control (by simpa using hterminal) _ _
  · next hcall =>
    cases hs
    exact h.setCall hcall _
  · next hcall =>
    split at hs
    · cases hs
      exact h.setCall hcall _
    · cases hs
  · next hcall =>
    split at hs
    · cases hs
      exact h.setCall hcall _
    · cases hs
  · cases hs
  · cases hs

/-- A bound only passes in a call, behind its request. -/
theorem State.Valid.timeout (h : s.Valid) {n : Nat} (hs : s.timeout n = some t) : t.Valid := by
  rw [State.timeout] at hs
  split at hs
  · next hcall =>
    cases hs
    exact h.setCall hcall _
  · next hcall =>
    cases hs
    have hset := h.setCall hcall .joined
    have hstop : s.stopRequested = true := h.calls fun hnil ↦ by
      rw [hnil] at hcall
      cases hcall
    exact hset.of_eq rfl rfl rfl rfl rfl rfl (fun _ ↦ hstop) fun _ ↦ hstop
  · cases hs

/-- The end of the supervising task with a first result. -/
theorem State.Valid.finish (h : s.Valid) (hpublished : s.published = []) {state : ProcessState}
    (hterminal : state.isTerminal = true) (htruthful : (s.outcome state).Truthful) :
    ({ s.complete state with runner := .ended } : State).Valid := by
  have hcalls : (s.complete state).calls = s.calls := by
    rw [State.complete]
    split <;> rfl
  have hvalid := State.valid_complete hpublished h.force h.returncode hterminal htruthful .ended
    (.inr rfl) s.calls h.calls
  exact hvalid.of_eq rfl rfl rfl rfl rfl rfl hvalid.force (by rw [hcalls]; exact hvalid.calls)

/-- A task that waits for its slot has no process and no result. -/
theorem State.Valid.of_queued (h : s.Valid) (hrunner : s.runner = .queued)
    (hcancelled : s.runnerCancelled = false) : s.process = .none ∧ s.published = [] := by
  cases h.stage with
  | queued _ _ hprocess _ hpublished => exact ⟨hprocess, hpublished⟩
  | settled o hr _ _ _ _ _ => simp [hrunner, hcancelled] at hr
  | active hr => simp [hrunner] at hr
  | starting hr => simp [hrunner] at hr
  | draining _ hr => simp [hrunner] at hr

/-- A task that creates its process has none yet, and no result. -/
theorem State.Valid.of_starting (h : s.Valid) (hrunner : s.runner = .starting) :
    s.process = .none ∧ s.published = [] := by
  cases h.stage with
  | starting _ hprocess _ hpublished => exact ⟨hprocess, hpublished⟩
  | settled o hr _ _ _ _ _ => simp [hrunner] at hr
  | active hr => simp [hrunner] at hr
  | queued hr => simp [hrunner] at hr
  | draining _ hr => simp [hrunner] at hr

/-- A task that feeds its process or waits for it has one, and no result. -/
theorem State.Valid.of_active (h : s.Valid) (hrunner : s.runner = .feeding ∨ s.runner = .waiting) :
    s.process ≠ .none ∧ (s.state = .running ∨ s.state = .stopping) ∧ s.published = [] := by
  cases h.stage with
  | active _ hprocess hstate hpublished => exact ⟨hprocess, hstate, hpublished⟩
  | settled o hr _ _ _ _ _ => rcases hrunner with h | h <;> simp [h] at hr
  | starting hr => rcases hrunner with h | h <;> simp [h] at hr
  | queued hr => rcases hrunner with h | h <;> simp [h] at hr
  | draining _ hr => rcases hrunner with h | h <;> simp [h] at hr

/-- A task that drains the streams has noticed the exit, and has no result. -/
theorem State.Valid.of_draining (h : s.Valid) (hrunner : s.runner = .draining) :
    ∃ code, s.process = .noticed code ∧ s.returncode = some code ∧ s.published = [] := by
  cases h.stage with
  | draining code _ hprocess hreturncode _ hpublished =>
    exact ⟨code, hprocess, hreturncode, hpublished⟩
  | settled o hr _ _ _ _ _ => simp [hrunner] at hr
  | active hr => simp [hrunner] at hr
  | starting hr => simp [hrunner] at hr
  | queued hr => simp [hrunner] at hr

/-- No kill is forced without a stop. -/
theorem State.Valid.not_forced (h : s.Valid) (hstop : s.stopRequested = false) :
    s.forceKillRequested = false := by
  cases hforce : s.forceKillRequested with
  | false => rfl
  | true =>
    rw [h.force hforce] at hstop
    cases hstop

/-- The process goes on to another state in which it exists; only an end is possible behind a
result. -/
theorem State.Valid.process (h : s.Valid) {process : OsProcess} (hsome : s.process ≠ .none)
    (hne : process ≠ .none) (halive : process ≠ .alive)
    (hnoticed : ∀ code, s.process ≠ .noticed code) : ({ s with process } : State).Valid := by
  refine ⟨?_, h.force, fun hnone ↦ absurd hnone hne, h.calls⟩
  cases h.stage with
  | queued _ _ hprocess => exact absurd hprocess hsome
  | starting _ hprocess => exact absurd hprocess hsome
  | active hrunner _ hstate hpublished => exact .active hrunner hne hstate hpublished
  | draining code _ hprocess => exact absurd hprocess (hnoticed code)
  | settled o hrunner _ hpublished htruthful hterminal hstate =>
    exact .settled o hrunner halive hpublished htruthful hterminal hstate

/-- What the classification of an observed exit gives is due. -/
theorem State.dueState_of_noticed {code : Int} (hprocess : s.process = .noticed code)
    (hreturncode : s.returncode = some code)
    (hforce : s.forceKillRequested = true → s.stopRequested = true) {state : ProcessState}
    (hstate : state = if s.callbackRaised ∧ ¬ s.stopRequested then .failed else s.terminalState) :
    state = (s.outcome state).dueState := by
  have hcode : (s.outcome state).returncode = some code := by
    simp [State.outcome, hprocess, OsProcess.returncode]
  rw [Outcome.dueState, hcode]
  show state = if s.forceKillRequested then _ else if s.stopRequested then _ else
    if s.callbackRaised ∨ _ then _ else _
  rw [hstate, State.terminalState, hreturncode]
  cases hf : s.forceKillRequested with
  | true => simp [hforce hf]
  | false =>
    cases s.stopRequested with
    | true => simp
    | false =>
      simp only [Bool.false_eq_true, if_false, not_false_eq_true, and_true, Option.some.injEq,
        ne_eq]
      by_cases hraised : s.callbackRaised = true
      · rw [if_pos hraised, if_pos (.inl hraised)]
      · by_cases hzero : code = 0
        · rw [if_neg hraised, if_pos hzero, if_neg (by simp [hraised, hzero])]
        · rw [if_neg hraised, if_neg hzero, if_pos (.inr hzero)]

/-- Every event that fails truthfully keeps the invariant. -/
theorem State.Valid.step (h : s.Valid) {e : Event} (hg : FailsTruthfully s e)
    (hs : s.step e = some t) : t.Valid := by
  cases e with
  | slot =>
    rw [State.step] at hs
    split at hs
    · next hcan =>
      obtain ⟨hprocess, hpublished⟩ := h.of_queued hcan.1 hcan.2
      split at hs
      · next hstop =>
        cases hs
        refine h.finish hpublished ?_ (State.truthful_of_none h.returncode hprocess
          (State.dueState_of_stopRequested hstop))
        split <;> rfl
      · cases hs
        exact ⟨.starting rfl hprocess rfl hpublished, h.force, h.returncode, h.calls⟩
    · cases hs
  | cancelled =>
    rw [State.step] at hs
    split at hs
    · next hcan =>
      cases hs
      cases h.stage with
      | settled o hrunner hprocess hpublished htruthful hterminal hstate =>
        rw [State.completeCancelled, State.complete_of_published (by simp [hpublished])]
        exact ⟨.settled o (.inr rfl) hprocess hpublished htruthful hterminal hstate, h.force,
          h.returncode, h.calls⟩
      | queued _ hc => simp [hc] at hcan
      | starting hr => simp [hr] at hcan
      | active hr => rcases hr with hr | hr <;> simp [hr] at hcan
      | draining _ hr => simp [hr] at hcan
    · cases hs
  | spawned =>
    rw [State.step] at hs
    split at hs
    · next hrunner =>
      cases hs
      obtain ⟨-, hpublished⟩ := h.of_starting hrunner
      refine ⟨.active ?_ (by simp) (.inl rfl) hpublished, h.force, (fun hnone ↦ by cases hnone),
        h.calls⟩
      show (if s.hasInput then Runner.feeding else .waiting) = .feeding ∨
        (if s.hasInput then Runner.feeding else .waiting) = .waiting
      split <;> simp
    · cases hs
  | spawnFailed =>
    rw [State.step] at hs
    split at hs
    · next hrunner =>
      cases hs
      obtain ⟨hprocess, hpublished⟩ := h.of_starting hrunner
      have hstop : s.stopRequested = false := hg
      have hforce := h.not_forced hstop
      refine h.finish hpublished rfl (State.truthful_of_none h.returncode hprocess ?_)
      simp [Outcome.dueState, State.outcome, hforce, hstop, hprocess, h.returncode]
    · cases hs
  | fed =>
    rw [State.step] at hs
    split at hs
    · next hrunner =>
      cases hs
      obtain ⟨hprocess, hstate, hpublished⟩ := h.of_active (.inl hrunner)
      exact ⟨.active (.inr rfl) hprocess hstate hpublished, h.force, h.returncode, h.calls⟩
    · cases hs
  | feedFailed =>
    rw [State.step] at hs
    split at hs
    · next hrunner =>
      cases hs
      obtain ⟨-, -, hpublished⟩ := h.of_active (.inl hrunner)
      obtain ⟨hnoticed, hstop, hfailed⟩ := hg
      have hforce := h.not_forced hstop
      obtain ⟨code, hprocess⟩ : ∃ code, s.process = .noticed code := by
        cases hp : s.process with
        | noticed code => exact ⟨code, rfl⟩
        | none => simp [hp, OsProcess.returncode] at hnoticed
        | alive => simp [hp, OsProcess.returncode] at hnoticed
        | exited code => simp [hp, OsProcess.returncode] at hnoticed
      refine h.finish hpublished rfl (State.truthful_of_noticed hprocess ?_)
      simp only [Outcome.dueState, State.outcome, hforce, hstop, hprocess]
      rw [hprocess] at hfailed
      simp [hfailed]
    · cases hs
  | exit code =>
    rw [State.step] at hs
    split at hs
    · next halive =>
      cases hs
      exact h.process (by simp [halive]) (by simp) (by simp) (by simp [halive])
    · cases hs
  | notice =>
    rw [State.step] at hs
    split at hs
    · next code hexited =>
      cases hs
      exact h.process (by simp [hexited]) (by simp) (by simp) (by simp [hexited])
    · cases hs
  | waited =>
    rw [State.step] at hs
    split at hs
    · next code hrunner hprocess =>
      cases hs
      obtain ⟨-, hstate, hpublished⟩ := h.of_active (.inr hrunner)
      exact ⟨.draining code rfl hprocess rfl hstate hpublished, h.force,
        fun hnone ↦ by simp [hprocess] at hnone, h.calls⟩
    · cases hs
  | callbackRaises =>
    rw [State.step] at hs
    split at hs
    · cases hs
    · cases hs
      exact h.of_eq rfl rfl rfl rfl rfl rfl h.force h.calls
  | drained =>
    rw [State.step] at hs
    split at hs
    · next hrunner =>
      cases hs
      obtain ⟨code, hprocess, hreturncode, hpublished⟩ := h.of_draining hrunner
      refine h.finish hpublished ?_ (State.truthful_of_noticed hprocess
        (State.dueState_of_noticed hprocess hreturncode h.force rfl))
      rw [State.terminalState]
      repeat' split
      all_goals rfl
    · cases hs
  | stop =>
    cases hs
    exact h.call false
  | kill =>
    cases hs
    exact h.call true
  | close =>
    rw [State.step] at hs
    split at hs
    · cases hs
      exact h
    · cases hs
      have hcall := h.call false
      exact hcall.of_eq rfl rfl rfl rfl rfl rfl hcall.force hcall.calls
  | resume n => exact h.resume hs
  | timeout n => exact h.timeout hs

/-- A control of a settled handle changes nothing. -/
theorem State.call_of_terminal (h : s.state.isTerminal = true) (kill : Bool) : s.call kill = s := by
  rw [State.call, if_pos h]

/-- A terminal state and its result stay. -/
theorem State.Valid.step_of_terminal (h : s.Valid) {e : Event} (hs : s.step e = some t)
    (hterminal : s.state.isTerminal = true) :
    t.state = s.state ∧ t.published = s.published := by
  obtain ⟨-, -, -, -, -, hsettled⟩ := h.settled
  have hpublished := hsettled.mp hterminal
  cases e with
  | stop =>
    cases hs
    rw [State.call_of_terminal hterminal]
    exact ⟨rfl, rfl⟩
  | kill =>
    cases hs
    rw [State.call_of_terminal hterminal]
    exact ⟨rfl, rfl⟩
  | close =>
    rw [State.step, State.call_of_terminal hterminal] at hs
    split at hs <;> cases hs <;> exact ⟨rfl, rfl⟩
  | resume n =>
    rw [State.step, State.resume] at hs
    simp only [hterminal, if_true] at hs
    repeat' split at hs
    all_goals first | cases hs; exact ⟨rfl, rfl⟩ | cases hs
  | timeout n =>
    rw [State.step, State.timeout] at hs
    split at hs <;> cases hs <;> exact ⟨rfl, rfl⟩
  | slot =>
    rw [State.step] at hs
    split at hs
    · next hcan => exact absurd (h.of_queued hcan.1 hcan.2).2 hpublished
    · cases hs
  | spawned =>
    rw [State.step] at hs
    split at hs
    · next hrunner => exact absurd (h.of_starting hrunner).2 hpublished
    · cases hs
  | cancelled =>
    rw [State.step, State.completeCancelled, State.complete_of_published hpublished] at hs
    split at hs <;> cases hs
    exact ⟨rfl, rfl⟩
  | spawnFailed | feedFailed =>
    rw [State.step, State.complete_of_published hpublished] at hs
    split at hs <;> cases hs
    exact ⟨rfl, rfl⟩
  | drained =>
    rw [State.step] at hs
    split at hs
    · next hrunner =>
      obtain ⟨_, -, -, hnone⟩ := h.of_draining hrunner
      exact absurd hnone hpublished
    · cases hs
  | fed | exit _ | notice | waited | callbackRaises =>
    rw [State.step] at hs
    split at hs <;> cases hs
    exact ⟨rfl, rfl⟩

/-- A run has one true outcome, which stays, as long as what fails fails truthfully. -/
theorem one_truthful_outcome (h : machine.Reach FailsTruthfully s) :
    s.Settled ∧ ∀ e t, s.step e = some t → s.state.isTerminal = true →
      t.state = s.state ∧ t.published = s.published := by
  have hvalid : s.Valid := by
    refine h.invariant ?_ fun _ _ _ _ ih hg hs ↦ ih.step hg hs
    rintro _ ⟨hasInput, rfl⟩
    exact ⟨.queued rfl rfl rfl rfl rfl, (fun hforce ↦ by cases hforce), fun _ ↦ rfl,
      fun hcalls ↦ absurd rfl hcalls⟩
  exact ⟨hvalid.settled, fun e t hs hterminal ↦ hvalid.step_of_terminal hs hterminal⟩

/-- A process that is stopped while it is fed, and does not listen. -/
def stoppedWhileFed : List Event :=
  [.slot, .spawned, .stop, .callbackRaises, .fed, .resume 0, .timeout 0, .timeout 0, .exit (-9),
    .notice, .waited, .drained]

/-- It is settled as killed. -/
theorem one_truthful_outcome_stoppedWhileFed :
    let s := (machine.runIf FailsTruthfully (.created true) stoppedWhileFed).getD (.created true)
    s.state = .killed ∧ s.Settled := by
  have hreached : machine.Reach FailsTruthfully
      ((machine.runIf FailsTruthfully (.created true) stoppedWhileFed).getD (.created true)) :=
    .runIf stoppedWhileFed (.init ⟨true, rfl⟩) rfl
  exact ⟨rfl, (one_truthful_outcome hreached).1⟩

/-- A process that closes its stdin while it is fed, and goes on. -/
def brokenPipe : List Event := [.slot, .spawned, .feedFailed]

/-- Its result is published while it is alive. -/
theorem broken_pipe_not_settled : ¬ ∀ s, machine.Reachable s → s.Settled := by
  intro h
  have hreached : machine.Reachable
      ((machine.run (.created true) brokenPipe).getD (.created true)) :=
    .run brokenPipe (.init ⟨true, rfl⟩) rfl
  exact (h _ hreached).process (by decide) (by decide)

end ScrapyCffi.Ffmpeg
