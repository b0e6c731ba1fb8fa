import Mathlib.Logic.Function.Basic
import ScrapyCffi.Base.Machine

/-!
# Starting and closing registered resources

`ResourceService.start`, `close` and `_close_entries` (`runtime/resources.py:348–405`) between
their `await`s. Resources are numbered in the order of their registration, and these numbers are
their names. A call that waits for `_lifecycle_lock` begins when the lock is free.
-/

namespace ScrapyCffi.Resources

open ScrapyCffi.Base

/-- A task of `asyncio.gather`: it waits for its first step, awaits, has run `close` to its end,
which may be a `CancelledError`, or was cancelled before its first step. -/
inductive CloseStatus
  | waiting
  | running
  | finished (cancelled : Bool)
  | skipped
  deriving DecidableEq

/-- `close` was called. -/
def CloseStatus.isBegun : CloseStatus → Bool
  | .running | .finished _ => true
  | .waiting | .skipped => false

/-- `close` is over. -/
def CloseStatus.Finished (status : CloseStatus) : Prop := ∃ cancelled, status = .finished cancelled

/-- The task is over. -/
def CloseStatus.isDone : CloseStatus → Bool
  | .finished _ | .skipped => true
  | .waiting | .running => false

/-- What `cancel` makes of a task. -/
def CloseStatus.cancel (status : CloseStatus) : CloseStatus :=
  if status = .waiting then .skipped else status

/-- A running `_close_entries`, of `start` or of `close`, with its tasks in the order of
`reversed_entries`; `cancelled` tells that its caller was cancelled. -/
structure Closing where
  rollback : Bool
  tasks : List (Nat × CloseStatus)
  cancelled : Bool
  deriving DecidableEq

/-- The holder of the lock: nobody, `start` with what it has started, or `_close_entries`. -/
inductive ServicePhase
  | idle
  | starting (started : List Nat)
  | closing (closing : Closing)
  deriving DecidableEq

/-- `ResourceService`. The other fields are history: the resources whose `start` of the last
`start` call has completed and whose `close` has not run since, whether the last call was a
`start` that raised, and what was to be closed by the last `_close_entries` that was not
cancelled. -/
structure Service where
  started : Bool
  starting : Bool
  activeNames : List Nat
  phase : ServicePhase
  opened : Nat → Bool
  raised : Bool
  round : List Nat

/-- Nothing has started. -/
def Service.init : Service where
  started := false
  starting := false
  activeNames := []
  phase := .idle
  opened _ := false
  raised := false
  round := []

/-- `_close_entries`, up to its `await`. -/
def Service.closeEntries (s : Service) (rollback : Bool) (entries : List Nat) : Service :=
  { s with phase := .closing ⟨rollback, entries.reverse.map (·, .waiting), false⟩ }

/-- The end of a `start` whose rollback is over; an exception of `_close_entries` skips the
clearing of the names. -/
def Service.endStart (s : Service) (interrupted : Bool) : Service :=
  { s with
    activeNames := if interrupted then s.activeNames else []
    starting := false
    raised := true
    phase := .idle }

/-- The end of a `close`. -/
def Service.endClose (s : Service) : Service := { s with started := false, phase := .idle }

variable (count : Nat)

/-- The loop of `start` goes on. -/
def Service.startNext (s : Service) (started : List Nat) : Service :=
  if started.length < count then { s with phase := .starting started }
  else { s with starting := false, started := true, phase := .idle }

/-- `start`, up to its first `await`. -/
def Service.start (s : Service) : Option Service :=
  match s.phase with
  | .idle =>
    let s := { s with raised := false, round := [] }
    if s.started then some s
    else some (({ s with starting := true, opened := fun _ ↦ false } : Service).startNext count [])
  | _ => none

/-- The `start` of a resource returns. -/
def Service.resourceStarted (s : Service) : Option Service :=
  match s.phase with
  | .starting started =>
    let name := started.length
    some (({ s with
      activeNames := s.activeNames ++ [name]
      opened := Function.update s.opened name true } : Service).startNext count
        (started ++ [name]))
  | _ => none

/-- The `start` of a resource raises, or is cancelled. -/
def Service.resourceFails (s : Service) : Option Service :=
  match s.phase with
  | .starting [] => some (s.endStart false)
  | .starting started => some (s.closeEntries true started)
  | _ => none

/-- `close`, up to its first `await`. -/
def Service.close (s : Service) : Option Service :=
  match s.phase with
  | .idle =>
    let entries := s.activeNames
    let s := { s with activeNames := [], raised := false, round := [] }
    if entries = [] then some s.endClose else some (s.closeEntries false entries)
  | _ => none

/-- A task gets another status. -/
def Service.setStatus (s : Service) (c : Closing) (index name : Nat) (status : CloseStatus) :
    Service :=
  { s with
    phase := .closing { c with tasks := c.tasks.set index (name, status) }
    opened := match status with
      | .finished _ => Function.update s.opened name false
      | _ => s.opened }

/-- The next task takes its first step: `close` is over after it, or awaits. -/
def Service.closeBegins (s : Service) (index : Nat) (status : CloseStatus) : Option Service :=
  match s.phase with
  | .closing c =>
    match c.tasks[index]? with
    | some (name, .waiting) =>
      if (c.tasks.take index).all (·.2 ≠ .waiting) ∧ status.isBegun then
        some (s.setStatus c index name status)
      else none
    | _ => none
  | _ => none

/-- A `close` that awaited is over. -/
def Service.closeEnds (s : Service) (index : Nat) (cancelled : Bool) : Option Service :=
  match s.phase with
  | .closing c =>
    match c.tasks[index]? with
    | some (name, .running) => some (s.setStatus c index name (.finished cancelled))
    | _ => none
  | _ => none

/-- The caller of `_close_entries` is cancelled, and with it the tasks. -/
def Service.cancel (s : Service) : Option Service :=
  match s.phase with
  | .closing c =>
    some { s with
      phase := .closing { c with
        tasks := c.tasks.map fun t ↦ (t.1, t.2.cancel)
        cancelled := true } }
  | _ => none

/-- `asyncio.gather` returns. -/
def Service.gathered (s : Service) : Option Service :=
  match s.phase with
  | .closing c =>
    if c.tasks.all (·.2.isDone) then
      let interrupted := c.cancelled || c.tasks.any (·.2 = .finished true)
      let s := { s with round := if c.cancelled then [] else c.tasks.map Prod.fst }
      some (if c.rollback then s.endStart interrupted else s.endClose)
    else none
  | _ => none

/-- What happens. -/
inductive ServiceEvent
  | start
  | resourceStarted
  | resourceFails
  | close
  | closeBegins (index : Nat) (status : CloseStatus)
  | closeEnds (index : Nat) (cancelled : Bool)
  | cancel
  | gathered
  deriving DecidableEq

/-- One event. -/
def Service.step (s : Service) : ServiceEvent → Option Service
  | .start => s.start count
  | .resourceStarted => s.resourceStarted count
  | .resourceFails => s.resourceFails
  | .close => s.close
  | .closeBegins index status => s.closeBegins index status
  | .closeEnds index cancelled => s.closeEnds index cancelled
  | .cancel => s.cancel
  | .gathered => s.gathered

/-- Every interleaving. -/
def serviceMachine : Machine Service ServiceEvent where
  init s := s = Service.init
  step := Service.step count

/-- A `start` that raised has closed what it had started and left no name active; of two resources
the later is closed before the `close` of the earlier begins; and all are closed. -/
structure Service.Orderly (s : Service) : Prop where
  rolledBack : s.phase = .idle → s.raised = true →
    s.activeNames = [] ∧ ∀ name, s.opened name = false
  ordered : ∀ c, s.phase = .closing c → ∀ i j a b, (i, a) ∈ c.tasks → (j, b) ∈ c.tasks → i < j →
    a.isBegun → b.Finished
  complete : s.phase = .idle → ∀ name ∈ s.round, s.opened name = false

/-- Whether `_close_entries` of a rollback runs. -/
def Service.rollingBack (s : Service) : Bool :=
  match s.phase with
  | .closing c => c.rollback
  | _ => false

/-- The number of tasks of the running `_close_entries`. -/
def Service.taskCount (s : Service) : Nat :=
  match s.phase with
  | .closing c => c.tasks.length
  | _ => 0

/-- No `close` but the last awaits, and a rollback is not cancelled, nor is a `close` in it. -/
def ClosesAtOnce (s : Service) : ServiceEvent → Prop
  | .closeBegins index status => (status = .running → index + 1 = s.taskCount) ∧
      (s.rollingBack = true → status ≠ .finished true)
  | .closeEnds _ cancelled => s.rollingBack = true → cancelled = false
  | .cancel => s.rollingBack = false
  | _ => True

instance (s : Service) : ∀ e, Decidable (ClosesAtOnce s e)
  | .closeBegins .. => inferInstanceAs (Decidable (_ ∧ _))
  | .closeEnds .. => inferInstanceAs (Decidable (_ → _))
  | .cancel => inferInstanceAs (Decidable (_ = _))
  | .start | .resourceStarted | .resourceFails | .close | .gathered => .isTrue trivial

/-! ## The tasks of one round -/

/-- A task and one after it: that of an earlier resource, which does not begin before the first is
over, and the first does not await. -/
structure InOrder (a b : Nat × CloseStatus) : Prop where
  later : b.1 < a.1
  awaits : a.2 ≠ .running
  finished : b.2.isBegun = true → a.2.Finished

/-- What is known of a running `_close_entries`. -/
structure Closing.Calm (c : Closing) (opened : Nat → Bool) : Prop where
  order : c.tasks.Pairwise InOrder
  skipped : c.cancelled = false → ∀ t ∈ c.tasks, t.2 ≠ .skipped
  cancelled : c.cancelled = true → c.rollback = false ∧ ∀ t ∈ c.tasks, t.2 ≠ .waiting
  finished : ∀ t ∈ c.tasks, t.2.Finished → opened t.1 = false
  covered : c.rollback = true → ∀ name, opened name = true → ∃ t ∈ c.tasks, t.1 = name
  uncancelled : c.rollback = true → ∀ t ∈ c.tasks, t.2 ≠ .finished true

/-- The tasks at the start of a round. -/
theorem calm_closeEntries (rollback : Bool) (entries : List Nat) (opened : Nat → Bool)
    (hsorted : entries.Pairwise (· < ·))
    (hcovered : rollback = true → ∀ name, opened name = true → name ∈ entries) :
    Closing.Calm ⟨rollback, entries.reverse.map (·, .waiting), false⟩ opened where
  order := by
    rw [List.pairwise_map, List.pairwise_reverse]
    refine hsorted.imp fun hlt ↦ ⟨hlt, ?_, fun hbegun ↦ ?_⟩
    · intro h
      cases h
    · cases hbegun
  skipped _ t ht := by
    obtain ⟨name, -, rfl⟩ := List.mem_map.mp ht
    intro h
    cases h
  cancelled h := by cases h
  finished t ht := by
    obtain ⟨name, -, rfl⟩ := List.mem_map.mp ht
    rintro ⟨_, h⟩
    cases h
  covered hrollback name hopened :=
    ⟨(name, .waiting), List.mem_map.mpr ⟨name, by simp [hcovered hrollback name hopened], rfl⟩, rfl⟩
  uncancelled _ t ht := by
    obtain ⟨name, -, rfl⟩ := List.mem_map.mp ht
    intro h
    cases h

/-- Two tasks of a round. -/
theorem Closing.Calm.ordered {c : Closing} {opened : Nat → Bool} (h : c.Calm opened) {i j : Nat}
    {a b : CloseStatus} (hi : (i, a) ∈ c.tasks) (hj : (j, b) ∈ c.tasks) (hij : i < j)
    (ha : a.isBegun = true) : b.Finished := by
  obtain ⟨p, hp, hpj⟩ := List.mem_iff_getElem.mp hj
  obtain ⟨q, hq, hqi⟩ := List.mem_iff_getElem.mp hi
  have hpairs := List.pairwise_iff_getElem.mp h.order
  obtain hpq | rfl | hqp := Nat.lt_trichotomy p q
  · have horder := hpairs p q hp hq hpq
    rw [hpj, hqi] at horder
    exact horder.finished ha
  · rw [hpj] at hqi
    cases hqi
    exact absurd hij (Nat.lt_irrefl _)
  · have hlater := (hpairs q p hq hp hqp).later
    rw [hpj, hqi] at hlater
    exact absurd hij (Nat.lt_asymm hlater)

/-- A list with a change at one place. -/
theorem split_of_getElem? {α : Type} {l : List α} {index : Nat} {x : α}
    (h : l[index]? = some x) (y : α) :
    l = l.take index ++ x :: l.drop (index + 1) ∧
      l.set index y = l.take index ++ y :: l.drop (index + 1) := by
  obtain ⟨hlt, rfl⟩ := List.getElem?_eq_some_iff.mp h
  refine ⟨?_, List.set_eq_take_append_cons_drop.trans (if_pos hlt)⟩
  rw [← List.drop_eq_getElem_cons hlt, List.take_append_drop]

/-- A task goes on when those before it are over, and awaits only as the last. -/
theorem Closing.Calm.set {c : Closing} {opened : Nat → Bool} (h : c.Calm opened) {index name : Nat}
    {before after : CloseStatus} (hget : c.tasks[index]? = some (name, before))
    (hafter : after.isBegun = true) (hprevious : ∀ t ∈ c.tasks.take index, t.2.Finished)
    (hawaits : after = .running → index + 1 = c.tasks.length)
    (hcancelled : c.rollback = true → after ≠ .finished true) (opened' : Nat → Bool)
    (hopened : ∀ n, opened' n = true → opened n = true)
    (hclosed : after.Finished → opened' name = false) :
    Closing.Calm { c with tasks := c.tasks.set index (name, after) } opened' := by
  obtain ⟨hold, hnew⟩ := split_of_getElem? hget (name, after)
  have hmem : ∀ t ∈ c.tasks.set index (name, after), t ∈ c.tasks ∨ t = (name, after) := by
    intro t ht
    exact List.mem_or_eq_of_mem_set ht
  have hfalse : ∀ n, opened n = false → opened' n = false := fun n hn ↦
    Bool.eq_false_iff.mpr fun hopen ↦ by simp [hopened n hopen] at hn
  refine ⟨?_, fun hc t ht ↦ ?_, fun hc ↦ ⟨(h.cancelled hc).1, fun t ht ↦ ?_⟩, fun t ht hf ↦ ?_,
    fun hr n hn ↦ ?_, fun hr t ht ↦ ?_⟩
  · have horder := h.order
    dsimp only
    rw [hnew]
    rw [hold, List.pairwise_append, List.pairwise_cons] at horder
    obtain ⟨hpre, ⟨hx, hpost⟩, hcross⟩ := horder
    rw [List.pairwise_append, List.pairwise_cons]
    refine ⟨hpre, ⟨fun t ht ↦ ⟨(hx t ht).later, fun hrun ↦ ?_, fun hbegun ↦ ?_⟩, hpost⟩,
      fun a ha t ht ↦ ?_⟩
    · have hlength := congrArg List.length hold
      have hpos := List.length_pos_of_mem ht
      have hmin : index ≤ c.tasks.length := by
        have := hawaits hrun
        omega
      simp only [List.length_append, List.length_cons, List.length_take] at hlength
      have := hawaits hrun
      omega
    · cases after with
      | finished cancelled => exact ⟨cancelled, rfl⟩
      | running =>
        have hlength := congrArg List.length hold
        have hpos := List.length_pos_of_mem ht
        simp only [List.length_append, List.length_cons, List.length_take] at hlength
        have := hawaits rfl
        omega
      | waiting => cases hafter
      | skipped => cases hafter
    · obtain rfl | ht := List.mem_cons.mp ht
      · have hcross := hcross a ha _ List.mem_cons_self
        exact ⟨hcross.later, hcross.awaits, fun _ ↦ hprevious a ha⟩
      · exact hcross a ha t (List.mem_cons_of_mem _ ht)
  · obtain ht | rfl := hmem t ht
    · exact h.skipped hc t ht
    · rintro rfl
      cases hafter
  · obtain ht | rfl := hmem t ht
    · exact (h.cancelled hc).2 t ht
    · rintro rfl
      cases hafter
  · obtain ht | rfl := hmem t ht
    · exact hfalse _ (h.finished t ht hf)
    · exact hclosed hf
  · obtain ⟨t, ht, rfl⟩ := h.covered hr n (hopened n hn)
    dsimp only
    rw [hold] at ht
    rw [hnew]
    obtain ht | ht := List.mem_append.mp ht
    · exact ⟨t, List.mem_append_left _ ht, rfl⟩
    · obtain rfl | ht := List.mem_cons.mp ht
      · exact ⟨_, List.mem_append_right _ List.mem_cons_self, rfl⟩
      · exact ⟨t, List.mem_append_right _ (List.mem_cons_of_mem _ ht), rfl⟩
  · obtain ht | rfl := hmem t ht
    · exact h.uncancelled hr t ht
    · exact hcancelled hr

/-- What is known in each phase. -/
structure Service.Kept (s : Service) : Prop where
  rolledBack : s.phase = .idle → s.raised = true →
    s.activeNames = [] ∧ ∀ name, s.opened name = false
  complete : s.phase = .idle → ∀ name ∈ s.round, s.opened name = false
  names : s.phase = .idle → s.activeNames.Pairwise (· < ·) ∧
    (s.started = false → s.activeNames = [])
  starting : ∀ started, s.phase = .starting started → s.activeNames = started ∧
    started = List.range started.length ∧ (∀ name, s.opened name = true → name ∈ started) ∧
    s.raised = false ∧ s.round = []
  closing : ∀ c, s.phase = .closing c → c.Calm s.opened ∧
    (c.rollback = false → s.activeNames = [] ∧ s.raised = false)

variable {count : Nat} {s t : Service}

/-- The invariant is enough. -/
theorem Service.Kept.orderly (h : s.Kept) : s.Orderly where
  rolledBack := h.rolledBack
  ordered c hc _ _ _ _ hi hj hij ha := (h.closing c hc).1.ordered hi hj hij ha
  complete := h.complete

/-- The loop of `start` goes on. -/
theorem kept_startNext (started : List Nat) (hrange : started = List.range started.length)
    (hactive : s.activeNames = started) (hopened : ∀ name, s.opened name = true → name ∈ started)
    (hraised : s.raised = false) (hround : s.round = []) : (s.startNext count started).Kept := by
  rw [Service.startNext]
  split
  · refine ⟨fun hp ↦ (by cases hp), fun hp ↦ (by cases hp), fun hp ↦ (by cases hp), ?_,
      fun c hp ↦ (by cases hp)⟩
    rintro _ ⟨rfl⟩
    exact ⟨hactive, hrange, hopened, hraised, hround⟩
  · refine ⟨fun _ hr ↦ ?_, fun _ name hn ↦ ?_, fun _ ↦ ⟨?_, fun hs ↦ (by cases hs)⟩,
      fun _ hp ↦ (by cases hp), fun c hp ↦ (by cases hp)⟩
    · have hr : s.raised = true := hr
      rw [hraised] at hr
      cases hr
    · have hn : name ∈ s.round := hn
      rw [hround] at hn
      cases hn
    · show s.activeNames.Pairwise _
      rw [hactive, hrange]
      exact List.pairwise_lt_range

/-- `start` begins. -/
theorem Service.Kept.start (h : s.Kept) (hs : s.start count = some t) : t.Kept := by
  rw [Service.start] at hs
  split at hs
  · next hphase =>
    dsimp only at hs
    split at hs
    · cases hs
      exact ⟨fun _ hr ↦ (by cases hr), fun _ _ hn ↦ (by cases hn), h.names,
        fun _ hp ↦ (by simp [hphase] at hp), fun _ hp ↦ (by simp [hphase] at hp)⟩
    · next hstarted =>
      cases hs
      refine kept_startNext [] rfl ((h.names hphase).2 ?_) (fun _ hn ↦ (by cases hn)) rfl rfl
      simpa using hstarted
  · cases hs

/-- A resource is started. -/
theorem Service.Kept.resourceStarted (h : s.Kept) (hs : s.resourceStarted count = some t) :
    t.Kept := by
  rw [Service.resourceStarted] at hs
  split at hs
  · next started hphase =>
    cases hs
    obtain ⟨hactive, hrange, hopened, hraised, hround⟩ := h.starting started hphase
    refine kept_startNext _ ?_ (by rw [← hactive]) (fun name hn ↦ ?_) hraised hround
    · rw [List.length_append, List.length_singleton, List.range_succ, ← hrange]
    · by_cases hname : name = started.length
      · simp [hname]
      · simp only [Function.update_of_ne hname] at hn
        exact List.mem_append_left _ (hopened name hn)
  · cases hs

/-- `_close_entries` begins. -/
theorem kept_closeEntries (rollback : Bool) (entries : List Nat)
    (hsorted : entries.Pairwise (· < ·))
    (hcovered : rollback = true → ∀ name, s.opened name = true → name ∈ entries)
    (hactive : rollback = false → s.activeNames = [] ∧ s.raised = false) :
    (s.closeEntries rollback entries).Kept := by
  refine ⟨fun hp ↦ (by cases hp), fun hp ↦ (by cases hp), fun hp ↦ (by cases hp),
    fun _ hp ↦ (by cases hp), ?_⟩
  rintro c ⟨rfl⟩
  exact ⟨calm_closeEntries rollback entries s.opened hsorted hcovered, hactive⟩

/-- A resource does not start. -/
theorem Service.Kept.resourceFails (h : s.Kept) (hs : s.resourceFails = some t) : t.Kept := by
  rw [Service.resourceFails] at hs
  split at hs
  · next hphase =>
    cases hs
    obtain ⟨-, -, hopened, -⟩ := h.starting [] hphase
    have hclosed : ∀ name, s.opened name = false := fun name ↦
      Bool.eq_false_iff.mpr fun hn ↦ by cases hopened name hn
    exact ⟨fun _ _ ↦ ⟨rfl, hclosed⟩, fun _ name _ ↦ hclosed name,
      fun _ ↦ ⟨.nil, fun _ ↦ rfl⟩, fun _ hp ↦ (by cases hp), fun _ hp ↦ (by cases hp)⟩
  · next started _ hphase =>
    cases hs
    obtain ⟨-, hrange, hopened, -⟩ := h.starting started hphase
    refine kept_closeEntries true started ?_ (fun _ ↦ hopened) fun hr ↦ by cases hr
    rw [hrange]
    exact List.pairwise_lt_range
  · cases hs

/-- `close` begins. -/
theorem Service.Kept.close (h : s.Kept) (hs : s.close = some t) : t.Kept := by
  rw [Service.close] at hs
  split at hs
  · next hphase =>
    dsimp only at hs
    split at hs
    · cases hs
      exact ⟨fun _ hr ↦ (by cases hr), fun _ _ hn ↦ (by cases hn), fun _ ↦ ⟨.nil, fun _ ↦ rfl⟩,
        fun _ hp ↦ (by cases hp), fun _ hp ↦ (by cases hp)⟩
    · cases hs
      exact kept_closeEntries false _ (h.names hphase).1 (fun hr ↦ by cases hr)
        fun _ ↦ ⟨rfl, rfl⟩
  · cases hs

/-- A task goes on. -/
theorem Service.Kept.setStatus {c : Closing} {index name : Nat} {before after : CloseStatus}
    (h : s.Kept) (hphase : s.phase = .closing c) (hget : c.tasks[index]? = some (name, before))
    (hafter : after.isBegun = true) (hprevious : ∀ t ∈ c.tasks.take index, t.2.Finished)
    (hawaits : after = .running → index + 1 = c.tasks.length)
    (hcancelled : c.rollback = true → after ≠ .finished true) :
    (s.setStatus c index name after).Kept := by
  obtain ⟨hcalm, hactive⟩ := h.closing c hphase
  refine ⟨fun hp ↦ (by cases hp), fun hp ↦ (by cases hp), fun hp ↦ (by cases hp),
    fun _ hp ↦ (by cases hp), ?_⟩
  rintro _ ⟨rfl⟩
  have hset := hcalm.set hget hafter hprevious hawaits hcancelled
  refine ⟨?_, hactive⟩
  cases after with
  | waiting => cases hafter
  | skipped => cases hafter
  | running => exact hset s.opened (fun _ hn ↦ hn) fun ⟨_, hf⟩ ↦ by cases hf
  | finished cancelled =>
    refine hset _ (fun n hn ↦ ?_) fun _ ↦ Function.update_self ..
    have hn : Function.update s.opened name false n = true := hn
    by_cases hname : n = name
    · rw [hname, Function.update_self] at hn
      cases hn
    · rwa [Function.update_of_ne hname] at hn

/-- A task takes its first step. -/
theorem Service.Kept.closeBegins {index : Nat} {status : CloseStatus} (h : s.Kept)
    (hg : ClosesAtOnce s (.closeBegins index status)) (hs : s.closeBegins index status = some t) :
    t.Kept := by
  rw [Service.closeBegins] at hs
  split at hs
  · next c hphase =>
    split at hs
    · next name hget =>
      split at hs
      · next hnext =>
        cases hs
        rw [ClosesAtOnce, Service.taskCount, Service.rollingBack, hphase] at hg
        obtain ⟨hcalm, -⟩ := h.closing c hphase
        have hold := (split_of_getElem? hget (name, status)).1
        have horder := hcalm.order
        rw [hold, List.pairwise_append] at horder
        refine h.setStatus hphase hget hnext.2 (fun t ht ↦ ?_) hg.1 hg.2
        -- the tasks before it have begun, and none of them awaits
        have hwaiting : t.2 ≠ .waiting := by simpa using List.all_eq_true.mp hnext.1 t ht
        have hrunning := (horder.2.2 t ht _ List.mem_cons_self).awaits
        cases hstatus : t.2 with
        | waiting => exact absurd hstatus hwaiting
        | running => exact absurd hstatus hrunning
        | finished cancelled => exact ⟨cancelled, rfl⟩
        | skipped =>
          exfalso
          cases hc : c.cancelled with
          | false => exact hcalm.skipped hc t (List.mem_of_mem_take ht) hstatus
          | true => exact (hcalm.cancelled hc).2 _ (List.mem_of_getElem? hget) rfl
      · cases hs
    · cases hs
  · cases hs

/-- A `close` that awaited is over. -/
theorem Service.Kept.closeEnds {index : Nat} {cancelled : Bool} (h : s.Kept)
    (hg : ClosesAtOnce s (.closeEnds index cancelled)) (hs : s.closeEnds index cancelled = some t) :
    t.Kept := by
  rw [Service.closeEnds] at hs
  split at hs
  · next c hphase =>
    split at hs
    · next name hget =>
      cases hs
      rw [ClosesAtOnce, Service.rollingBack, hphase] at hg
      obtain ⟨hcalm, -⟩ := h.closing c hphase
      have hold := (split_of_getElem? hget (name, .running)).1
      have horder := hcalm.order
      rw [hold, List.pairwise_append] at horder
      refine h.setStatus hphase hget rfl (fun t ht ↦ ?_) (fun hr ↦ (by cases hr)) fun hr ↦ ?_
      · exact (horder.2.2 t ht _ List.mem_cons_self).finished rfl
      · rw [hg hr]
        intro hf
        cases hf
    · cases hs
  · cases hs

@[simp] theorem isBegun_cancel (status : CloseStatus) : status.cancel.isBegun = status.isBegun := by
  cases status <;> rfl

/-- A `close` is cancelled. -/
theorem Service.Kept.cancel (h : s.Kept) (hg : ClosesAtOnce s .cancel) (hs : s.cancel = some t) :
    t.Kept := by
  rw [Service.cancel] at hs
  split at hs
  · next c hphase =>
    cases hs
    rw [ClosesAtOnce, Service.rollingBack, hphase] at hg
    have hg : c.rollback = false := hg
    obtain ⟨hcalm, hactive⟩ := h.closing c hphase
    refine ⟨fun hp ↦ (by cases hp), fun hp ↦ (by cases hp), fun hp ↦ (by cases hp),
      fun _ hp ↦ (by cases hp), ?_⟩
    rintro _ ⟨rfl⟩
    have hfinished : ∀ status : CloseStatus, status.Finished → status.cancel.Finished := by
      rintro _ ⟨cancelled, rfl⟩
      exact ⟨cancelled, rfl⟩
    refine ⟨⟨?_, fun hc ↦ (by cases hc), fun _ ↦ ⟨hg, fun t ht ↦ ?_⟩, fun t ht hf ↦ ?_,
      fun hr ↦ ?_, fun hr ↦ ?_⟩, hactive⟩
    · rw [List.pairwise_map]
      refine hcalm.order.imp fun horder ↦ ⟨horder.later, ?_, fun hbegun ↦ ?_⟩
      · dsimp only
        rw [CloseStatus.cancel]
        split
        · exact fun hr ↦ by cases hr
        · exact horder.awaits
      · rw [isBegun_cancel] at hbegun
        exact hfinished _ (horder.finished hbegun)
    · obtain ⟨before, -, rfl⟩ := List.mem_map.mp ht
      dsimp only
      rw [CloseStatus.cancel]
      split
      · exact fun hr ↦ by cases hr
      · next hne => exact hne
    · obtain ⟨before, hbefore, rfl⟩ := List.mem_map.mp ht
      refine hcalm.finished before hbefore ?_
      dsimp only at hf
      rw [CloseStatus.cancel] at hf
      split at hf
      · obtain ⟨_, hf⟩ := hf
        cases hf
      · exact hf
    · have hr : c.rollback = true := hr
      rw [hg] at hr
      cases hr
    · have hr : c.rollback = true := hr
      rw [hg] at hr
      cases hr
  · cases hs

/-- `_close_entries` is through. -/
theorem Service.Kept.gathered (h : s.Kept) (hs : s.gathered = some t) : t.Kept := by
  rw [Service.gathered] at hs
  split at hs
  · next c hphase =>
    obtain ⟨hcalm, hactive⟩ := h.closing c hphase
    split at hs
    · next hall =>
      cases hs
      -- all tasks are over, and those of a round that was not cancelled have run
      have hclosed : c.cancelled = false → ∀ t ∈ c.tasks, s.opened t.1 = false := by
        intro hc t ht
        refine hcalm.finished t ht ?_
        have hdone := List.all_eq_true.mp hall t ht
        cases hstatus : t.2 with
        | waiting => simp [hstatus, CloseStatus.isDone] at hdone
        | running => simp [hstatus, CloseStatus.isDone] at hdone
        | finished cancelled => exact ⟨cancelled, rfl⟩
        | skipped => exact absurd hstatus (hcalm.skipped hc t ht)
      have hround : ∀ name ∈ (if c.cancelled then [] else c.tasks.map Prod.fst),
          s.opened name = false := by
        intro name hn
        split at hn
        · cases hn
        · next hc =>
          obtain ⟨t, ht, rfl⟩ := List.mem_map.mp hn
          exact hclosed (by simpa using hc) t ht
      split
      · next hrollback =>
        have hc : c.cancelled = false := by
          rw [Bool.eq_false_iff]
          intro hc
          have hr := (hcalm.cancelled hc).1
          rw [hrollback] at hr
          cases hr
        have hany : c.tasks.any (·.2 = .finished true) = false := by
          rw [List.any_eq_false]
          intro t ht
          simpa using hcalm.uncancelled hrollback t ht
        have hnames : ∀ name, s.opened name = false := by
          intro name
          rw [Bool.eq_false_iff]
          intro hn
          obtain ⟨t, ht, rfl⟩ := hcalm.covered hrollback name hn
          rw [hclosed hc t ht] at hn
          cases hn
        rw [hany, hc]
        exact ⟨fun _ _ ↦ ⟨rfl, hnames⟩, fun _ name _ ↦ hnames name, fun _ ↦ ⟨.nil, fun _ ↦ rfl⟩,
          fun _ hp ↦ (by cases hp), fun _ hp ↦ (by cases hp)⟩
      · next hrollback =>
        obtain ⟨hnames, hraised⟩ := hactive (by simpa using hrollback)
        refine ⟨fun _ hr ↦ ?_, fun _ ↦ hround, fun _ ↦ ?_, fun _ hp ↦ (by cases hp),
          fun _ hp ↦ (by cases hp)⟩
        · have hr : s.raised = true := hr
          rw [hraised] at hr
          cases hr
        · show s.activeNames.Pairwise _ ∧ _
          rw [hnames]
          exact ⟨.nil, fun _ ↦ rfl⟩
    · cases hs
  · cases hs

/-- One event under the condition. -/
theorem Service.Kept.step {e : ServiceEvent} (h : s.Kept) (hg : ClosesAtOnce s e)
    (hs : s.step count e = some t) : t.Kept := by
  cases e with
  | start => exact h.start hs
  | resourceStarted => exact h.resourceStarted hs
  | resourceFails => exact h.resourceFails hs
  | close => exact h.close hs
  | closeBegins index status => exact h.closeBegins hg hs
  | closeEnds index cancelled => exact h.closeEnds hg hs
  | cancel => exact h.cancel hg hs
  | gathered => exact h.gathered hs

/-- Nothing is started at first. -/
theorem kept_init : Service.init.Kept where
  rolledBack _ h := by cases h
  complete _ _ h := by cases h
  names _ := ⟨.nil, fun _ ↦ rfl⟩
  starting _ h := by cases h
  closing _ h := by cases h

/-- In every run in which no `close` but the last of a round awaits, and no rollback is cancelled,
resources are started and closed in order. -/
theorem lifecycle_orderly (count : Nat) (h : (serviceMachine count).Reach ClosesAtOnce s) :
    s.Orderly := by
  have hkept : s.Kept :=
    h.invariant (fun _ hinit ↦ hinit ▸ kept_init) fun _ _ _ _ ih hg hs ↦ ih.step hg hs
  exact hkept.orderly

/-- Of three resources the last does not start, and a second `start` and a `close` follow. -/
def startedTwice : List ServiceEvent :=
  [.start, .resourceStarted, .resourceStarted, .resourceFails, .closeBegins 0 (.finished false),
    .closeBegins 1 .running, .closeEnds 1 false, .gathered, .start, .resourceStarted,
    .resourceStarted, .resourceStarted, .close, .closeBegins 0 (.finished false)]

theorem lifecycle_orderly_startedTwice :
    (((serviceMachine 3).runIf ClosesAtOnce Service.init startedTwice).getD
      Service.init).Orderly :=
  lifecycle_orderly 3 (.runIf startedTwice (.init rfl) rfl)

/-- Two resources are closed, and the `close` of the later one awaits. -/
def closedTogether : List ServiceEvent :=
  [.start, .resourceStarted, .resourceStarted, .close, .closeBegins 0 .running,
    .closeBegins 1 .running]

/-- The `close` of the earlier one has begun before. -/
theorem close_not_in_order : ¬ ∀ s, (serviceMachine 2).Reachable s → s.Orderly := by
  intro h
  have hreached : (serviceMachine 2).Reachable
      (((serviceMachine 2).run Service.init closedTogether).getD Service.init) :=
    .run closedTogether (.init rfl) rfl
  obtain ⟨_, hfinished⟩ := (h _ hreached).ordered
    ⟨false, [(1, .running), (0, .running)], false⟩ rfl 0 1 .running .running (by decide)
    (by decide) (by decide) rfl
  cases hfinished

end ScrapyCffi.Resources
