import Mathlib.Data.List.Perm.Basic
import ScrapyCffi.Base.Table
import ScrapyCffi.Engine.Stretch

/-!
# Steps of the engine, inverted

What a move leaves of the task pool, and the invariant that ties WebSocket entries to the
listeners they cancel: a cancellation never ends a managed task.
-/

namespace ScrapyCffi.Engine

open ScrapyCffi.Base

variable {distributed : Bool} {s t : State} {position : Nat} {point found : Task}
  {outcome : Outcome} {move : Move} {effect : Effect}

/-! ### Steps and moves -/

/-- An element taken out of a list by its position. -/
theorem erase_perm {α : Type} {l : List α} {i : Nat} {a : α} (h : l[i]? = some a) :
    (a :: l.eraseIdx i).Perm l := by
  obtain ⟨hlt, rfl⟩ := List.getElem?_eq_some_iff.mp h
  exact List.getElem_cons_eraseIdx_perm hlt

/-- A step is taken before the waiter returns. -/
theorem waiter_of_step {event : Event} (h : s.step distributed event = some t) :
    s.waiter ≠ .returned := by
  intro hr
  simp [State.step, hr] at h

/-- A step of a task is a move of the point at which it stands. -/
theorem run_spec (h : s.step distributed (.run position outcome) = some t) :
    ∃ point move, s.tasks[position]? = some point ∧
      point.move distributed s outcome = some move ∧ t = s.apply distributed position move := by
  have hw := waiter_of_step h
  simp only [State.step, if_neg hw] at h
  obtain ⟨move, hmove, rfl⟩ := Option.map_eq_some_iff.mp h
  obtain ⟨point, hpoint, hmove⟩ := Option.bind_eq_some_iff.mp hmove
  exact ⟨point, move, hpoint, hmove, rfl⟩

/-- A scheduler loop hands over a request that it holds. -/
theorem dispatch_spec (h : s.step distributed (.dispatch position) = some t) :
    ∃ delivery, s.inHand[position]? = some delivery ∧ t = { s with
      inHand := s.inHand.eraseIdx position
      tasks := s.tasks ++ (s.create (some (.requestInterceptChain delivery))).toList } := by
  have hw := waiter_of_step h
  simp only [State.step, if_neg hw] at h
  obtain ⟨delivery, hd, rfl⟩ := Option.map_eq_some_iff.mp h
  exact ⟨delivery, hd, rfl⟩

/-- A scheduler loop gets the object of a local queue, or builds the request of a serialised
one with a new dictionary. -/
theorem get_spec {metaDict : Nat} (h : s.step distributed (.get position metaDict) = some t) :
    ∃ request ownership queued, s.queue[position]? = some queued ∧
      ((queued = .object request ∧ ownership = s.ownership) ∨
        ∃ workId, queued = .bytes request.kind workId ∧
          s.ownership.workIds request.metaDict = none ∧
          ownership = { s.ownership with
            workIds := Function.update s.ownership.workIds request.metaDict workId }) ∧
      t = { s with
        queue := s.queue.eraseIdx position
        ownership
        inHand := ⟨request, s.delivered⟩ :: s.inHand
        delivered := s.delivered + 1 } := by
  have hw := waiter_of_step h
  simp only [State.step, if_neg hw, State.get] at h
  split at h
  · cases h
  · split at h
    · cases h
    · next request hq =>
      cases h
      exact ⟨request, s.ownership, _, hq, .inl ⟨rfl, rfl⟩, rfl⟩
    · next kind workId hq =>
      split at h
      · next hnone =>
        cases h
        exact ⟨⟨kind, metaDict⟩, _, _, hq, .inr ⟨workId, rfl, hnone, rfl⟩, rfl⟩
      · cases h

/-- The start producer creates a task for each output. -/
theorem produce_spec (h : s.step distributed .produce = some t) : t = { s with
    tasks := s.tasks ++ (s.create (some (.getSpiderOutput none))).toList } := by
  have hw := waiter_of_step h
  simp only [State.step, if_neg hw] at h
  split at h
  · cases h
  · exact (Option.some.inj h).symm

/-- User code copies a dictionary into one without a work id. -/
theorem copyMeta_spec {source target : Nat}
    (h : s.step distributed (.copyMeta source target) = some t) :
    s.ownership.workIds target = none ∧ t = { s with
      ownership.workIds :=
        Function.update s.ownership.workIds target (s.ownership.workIds source) } := by
  have hw := waiter_of_step h
  simp only [State.step, if_neg hw] at h
  split at h
  · next hnone => exact ⟨hnone, (Option.some.inj h).symm⟩
  · cases h

/-- The waiter only moves itself, and returns only once no managed task is live and the idle
event is set. -/
theorem waiter_spec (h : s.step distributed .waiter = some t) :
    ∃ waiter, t = { s with waiter } ∧ waiter ≠ .producer ∧
      (s.waiter = .producer → s.producerDone = true) ∧
      (waiter = .returned → s.waiter = .quiescent ∧ s.ownership.workIdle = true ∧
        ∀ task ∈ s.tasks, task.managed = false) := by
  have hw := waiter_of_step h
  simp only [State.step, if_neg hw, State.wait] at h
  split at h
  · next hp =>
    split at h
    · next hd =>
      cases h
      exact ⟨.idle, rfl, nofun, fun _ ↦ hd, nofun⟩
    · cases h
  · next hp =>
    split at h
    · cases h
      exact ⟨.quiescent, rfl, nofun, by simp [hp], nofun⟩
    · cases h
  · next hp =>
    split at h
    · next hall =>
      cases h
      refine ⟨_, rfl, ?_, by simp [hp], fun hr ↦ ⟨hp, ?_, by simpa using hall⟩⟩
      · split <;> nofun
      · by_contra hidle
        simp [hidle] at hr
    · cases h
  · cases h

/-- A move goes on, reaches a handler or fails the task. -/
theorem move_cases (h : point.move distributed s outcome = some move) :
    point.proceed distributed s outcome = some move ∨
      (∃ handler, outcome = .raises ∧ point.handler = some handler ∧ move = .to handler) ∨
      point.fail = some move := by
  unfold Task.move at h
  split at h
  · split at h
    · next handler hh => exact .inr (.inl ⟨handler, rfl, hh, (Option.some.inj h).symm⟩)
    · exact .inr (.inr h)
  · exact .inr (.inr h)
  · exact .inl h

/-- A failing task is a managed one; it ends or closes its connection. -/
theorem fail_spec (h : point.fail = some move) :
    point.managed = true ∧ move.created = none ∧
      ((∃ request child source, point = .schedulerPut request child source ∧
          move.effect = .fail (some request) ∧ move.next = .done) ∨
        (move.effect = .fail none ∧ (move.next = .done ∨ ∃ delivery url entry,
          point = .doWebsocketConnect delivery url entry ∧
            move.next = .closeWebsocket delivery url false))) := by
  unfold Task.fail at h
  split at h
  · next hm =>
    refine ⟨hm, ?_⟩
    split at h
    · next request child source =>
      cases h
      exact ⟨rfl, .inl ⟨request, child, source, rfl, rfl, rfl⟩⟩
    · next delivery url entry =>
      cases h
      exact ⟨rfl, .inr ⟨rfl, .inr ⟨delivery, url, entry, rfl, rfl⟩⟩⟩
    · cases h
      exact ⟨rfl, .inr ⟨rfl, .inl rfl⟩⟩
  · cases h

/-- `TaskManager.create` starts nothing else than the task it is given. -/
theorem of_create {created : Option Task} (h : s.create created = some found) :
    created = some found := by
  cases created with
  | none => cases h
  | some point =>
    rw [State.create] at h
    split at h
    · cases h
    · exact h

/-- Until the stop event is set, `TaskManager.create` starts the task. -/
theorem create_of_running (hstop : s.stopEvent = false) (created : Option Task) :
    s.create created = created := by
  cases created with
  | none => rfl
  | some point => simp [State.create, hstop]

/-- Cancelling a listener ends at most one task. -/
theorem task_of_cancel {c : Connections} {entry : Nat} {tasks : List Task}
    (h : (c.cancel entry tasks)[position]? = some found) :
    found = .done ∨ tasks[position]? = some found := by
  unfold Connections.cancel at h
  split at h
  · exact .inr h
  · rw [List.getElem?_set] at h
    split at h
    · split at h
      · exact .inl (Option.some.inj h).symm
      · cases h
    · exact .inr h

/-- Cancelling a listener keeps the number of tasks. -/
@[simp] theorem length_cancel (c : Connections) (entry : Nat) (tasks : List Task) :
    (c.cancel entry tasks).length = tasks.length := by
  unfold Connections.cancel
  split
  · rfl
  · exact List.length_set

/-- Closing the entry of a URL ends at most one task. -/
theorem task_of_closeUrl {url : Nat} (h : (s.closeUrl url).tasks[position]? = some found) :
    found = .done ∨ s.tasks[position]? = some found := by
  unfold State.closeUrl at h
  split at h
  · exact .inr h
  · exact task_of_cancel h

/-- Closing the entry of a URL keeps the number of tasks. -/
@[simp] theorem length_closeUrl (s : State) (url : Nat) :
    (s.closeUrl url).tasks.length = s.tasks.length := by
  unfold State.closeUrl
  split
  · rfl
  · exact length_cancel ..

/-- Closing the entry of a URL changes tasks and connections only. -/
theorem closeUrl_eq (s : State) (url : Nat) :
    ∃ tasks connections, s.closeUrl url = { s with tasks, connections } := by
  unfold State.closeUrl
  split
  · exact ⟨s.tasks, s.connections, rfl⟩
  · exact ⟨_, _, rfl⟩

/-- An effect ends at most one task. -/
theorem task_of_perform (h : (s.perform distributed effect).tasks[position]? = some found) :
    found = .done ∨ s.tasks[position]? = some found := by
  cases effect with
  | close entry => exact task_of_cancel h
  | closeUrl url => exact task_of_closeUrl h
  | _ => exact .inr h

/-- Effects leave the scheduler loops alone. -/
theorem inHand_perform : (s.perform distributed effect).inHand = s.inHand := by
  cases effect with
  | closeUrl url =>
    obtain ⟨_, _, he⟩ := closeUrl_eq s url
    rw [State.perform, he]
  | _ => rfl

/-- An effect keeps the number of tasks. -/
@[simp] theorem length_perform (s : State) (effect : Effect) :
    (s.perform distributed effect).tasks.length = s.tasks.length := by
  cases effect with
  | close entry => exact length_cancel ..
  | closeUrl url => exact length_closeUrl ..
  | _ => rfl

/-- A task after a move has ended, is the one that moved, stayed or was created. -/
theorem task_of_apply {j : Nat}
    (h : (s.apply distributed position move).tasks[j]? = some found) :
    found = .done ∨ (j = position ∧ found = move.next) ∨
      (j ≠ position ∧ s.tasks[j]? = some found) ∨
      (j = s.tasks.length ∧ move.created = some found) := by
  rcases of_advance h with ⟨rfl, hf⟩ | ⟨hne, hj⟩ | ⟨hlast, hs⟩
  · exact .inr (.inl ⟨rfl, hf⟩)
  · exact (task_of_perform hj).imp_right fun hj ↦ .inr (.inl ⟨hne, hj⟩)
  · exact .inr (.inr (.inr ⟨by simpa using hlast, of_create hs⟩))

/-- No move sets the stop event. -/
theorem stopEvent_apply :
    (s.apply distributed position move).stopEvent = s.stopEvent := by
  show (s.perform distributed move.effect).stopEvent = _
  cases move.effect with
  | closeUrl url =>
    obtain ⟨_, _, he⟩ := closeUrl_eq s url
    rw [State.perform, he]
  | _ => rfl

/-- No move clears the record of a failed task. -/
theorem raised_of_apply (h : (s.apply distributed position move).raised = false) :
    s.raised = false := by
  change (s.perform distributed move.effect).raised = false at h
  cases he : move.effect with
  | closeUrl url =>
    obtain ⟨_, _, hurl⟩ := closeUrl_eq s url
    rw [he, State.perform, hurl] at h
    exact h
  | fail request =>
    rw [he] at h
    cases h
  | _ =>
    rw [he] at h
    exact h

/-- The stop event and the record of a failed task stay set. -/
theorem flags_of_step {event : Event} (h : s.step distributed event = some t) :
    (t.stopEvent = false → s.stopEvent = false) ∧ (t.raised = false → s.raised = false) := by
  cases event with
  | run position outcome =>
    obtain ⟨point, move, -, -, rfl⟩ := run_spec h
    exact ⟨stopEvent_apply.symm.trans, raised_of_apply⟩
  | produce =>
    rw [produce_spec h]
    exact ⟨id, id⟩
  | get position metaDict =>
    obtain ⟨_, _, _, _, _, rfl⟩ := get_spec h
    exact ⟨id, id⟩
  | dispatch position =>
    obtain ⟨_, _, rfl⟩ := dispatch_spec h
    exact ⟨id, id⟩
  | waiter =>
    obtain ⟨_, rfl, _⟩ := waiter_spec h
    exact ⟨id, id⟩
  | copyMeta source target =>
    obtain ⟨_, rfl⟩ := copyMeta_spec h
    exact ⟨id, id⟩
  | closeSession url =>
    simp only [State.step, if_neg (waiter_of_step h), Option.some.injEq] at h
    subst h
    obtain ⟨_, _, he⟩ := closeUrl_eq s url
    rw [he]
    exact ⟨id, id⟩
  | producerEnds =>
    simp only [State.step, if_neg (waiter_of_step h)] at h
    cases h
    exact ⟨id, id⟩
  | stop =>
    simp only [State.step, if_neg (waiter_of_step h)] at h
    cases h
    exact ⟨nofun, id⟩

/-- The task that moved stands at its next point. -/
theorem apply_self (hpoint : s.tasks[position]? = some point) :
    (s.apply distributed position move).tasks[position]? = some move.next :=
  advance_self (by simpa using (List.getElem?_eq_some_iff.mp hpoint).1)

/-- A created task joins unless the stop event is set. -/
theorem mem_apply_created (hc : move.created = some found) (hstop : s.stopEvent = false) :
    found ∈ (s.apply distributed position move).tasks :=
  mem_advance (by simp [hc, create_of_running hstop])

/-! ### Listeners -/

@[simp] theorem listens_resume (caller : Caller) (delivery : Delivery) :
    (caller.resume delivery).listens = caller.entry := by
  cases caller <;> rfl

@[simp] theorem managed_resume (caller : Caller) (delivery : Delivery) :
    (caller.resume delivery).managed = false := by
  cases caller <;> rfl

@[simp] theorem listens_resumeOutput (source : Option Source) :
    (resumeOutput source).listens = none := by
  cases source <;> rfl

/-- What a move says about listeners: only `fetch_websocket` starts one and only a closing
one closes its entry. -/
structure ListenerMove (s : State) (point : Task) (move : Move) : Prop where
  next : ∀ entry, move.next.listens = some entry → point.listens = some entry
  unmanaged : point.managed = false → move.next.managed = false
  created : ∀ task, move.created = some task → ∀ entry, task.listens = some entry →
    ∃ url, move.effect = .register url entry
  register : ∀ url entry, move.effect = .register url entry →
    entry = (s.connections.pool url).getD s.connections.opened ∧
      ∃ task, move.created = some task ∧ task.managed = false
  connect : ∀ entry, move.effect = .connect entry →
    ∃ url, s.connections.pool url = some entry
  close : ∀ entry, move.effect = .close entry → point.listens = some entry

/-- By inspection of every coroutine. -/
private theorem listenerMove_proceed (h : point.proceed distributed s outcome = some move) :
    ListenerMove s point move := by
  cases stretch_of_proceed h <;> constructor <;>
    first
    | exact fun _ hother ↦ hother
    | exact fun _ ↦ rfl
    | exact fun hm ↦ hm
    | exact fun _ ↦ managed_resume _ _
    | (intro hm; cases hm; done)
    | (intro _ hother; cases hother; done)
    | (intro _ _ hother; cases hother; done)
    | (intro _ hother; cases (listens_resumeOutput _).symm.trans hother)
    | exact fun _ hother ↦ (listens_resume _ _).symm.trans hother
    | (rintro _ ⟨⟩ _ hother; cases hother; done)
    | (rintro _ ⟨⟩; rfl)
    | skip
  case register.created =>
    rintro _ ⟨⟩ _ ⟨⟩
    exact ⟨_, rfl⟩
  case register.register =>
    rintro _ _ ⟨⟩
    exact ⟨rfl, _, rfl, rfl⟩
  case connect.connect hfound =>
    rintro _ ⟨⟩
    exact ⟨_, hfound⟩

/-- A handler runs in the task that raised. -/
theorem listens_handler {handler : Task} (h : point.handler = some handler) :
    handler.listens = point.listens := by
  have hcaller : ∀ (delivery : Delivery) (caller : Caller),
      caller.handler delivery = some handler → handler.listens = caller.entry := by
    intro delivery caller hc
    cases caller <;> cases hc <;> rfl
  cases point <;> first | cases h | exact hcaller _ _ h

/-- A task is unmanaged when it has ended or listens. -/
theorem unmanaged_iff : point.managed = false ↔ point = .done ∨ ∃ entry, point.listens = some entry := by
  unfold Task.managed
  cases hl : point.listens with
  | none => simp
  | some entry => simp

/-- Every move keeps to the listeners' rules. -/
theorem listenerMove (h : point.move distributed s outcome = some move) :
    ListenerMove s point move := by
  rcases move_cases h with h | ⟨handler, -, hh, rfl⟩ | h
  · exact listenerMove_proceed h
  · have hl := listens_handler hh
    have hnext : point.managed = false → handler.managed = false := by
      intro hm
      rcases unmanaged_iff.mp hm with rfl | ⟨entry, he⟩
      · cases hh
      · exact unmanaged_iff.mpr (.inr ⟨entry, hl.trans he⟩)
    exact ⟨fun entry he ↦ hl ▸ he, hnext, by simp [Move.to], by simp [Move.to],
      by simp [Move.to], by simp [Move.to]⟩
  · obtain ⟨hm, hc, hf⟩ := fail_spec h
    have hnext : move.next.listens = none := by
      rcases hf with ⟨_, _, _, _, _, hn⟩ | ⟨_, hn | ⟨_, _, _, _, hn⟩⟩ <;> rw [hn] <;> rfl
    have heffect : ∃ request, move.effect = .fail request := by
      rcases hf with ⟨request, _, _, _, he, _⟩ | ⟨he, _⟩
      · exact ⟨some request, he⟩
      · exact ⟨none, he⟩
    obtain ⟨request, he⟩ := heffect
    exact ⟨fun entry hn ↦ by simp [hnext] at hn, fun hu ↦ by simp [hm] at hu, by simp [hc],
      by simp [he], by simp [he], by simp [he]⟩

/-- The entries of the pools have been opened, and no other entry has been closed. -/
structure Connections.WF (c : Connections) : Prop where
  pool_opened : ∀ url entry, c.pool url = some entry → entry < c.opened
  fresh : ∀ entry, c.opened ≤ entry → (c.entries entry).closed = false

namespace Connections.WF

variable {c : Connections} {entry : Nat}

/-- Updating an opened entry. -/
theorem update (hc : c.WF) (he : entry < c.opened) (value : WebSocketEntry) :
    ({ c with entries := Function.update c.entries entry value } : Connections).WF where
  pool_opened := hc.pool_opened
  fresh other ho := by
    simp only at ho ⊢
    rw [Function.update_of_ne (by omega)]
    exact hc.fresh other ho

/-- Removing an entry from its pool. -/
theorem remove (hc : c.WF) (url : Nat) :
    ({ c with pool := Function.update c.pool url none } : Connections).WF where
  pool_opened _ _ hp := hc.pool_opened _ _ (entry_of_remove hp).2
  fresh := hc.fresh

/-- Registering the entry of the URL or the next one. -/
theorem register (hc : c.WF) (url listener : Nat) :
    (c.register url ((c.pool url).getD c.opened) listener).WF where
  pool_opened other found hp := by
    simp only [Connections.register] at hp ⊢
    rcases entry_of_insert hp with ⟨-, rfl⟩ | ⟨-, hp⟩
    · omega
    · have := hc.pool_opened _ _ hp
      omega
  fresh other ho := by
    simp only [Connections.register] at ho ⊢
    rw [Function.update_of_ne (by omega)]
    exact hc.fresh other (by omega)

end Connections.WF

/-- Every entry in a pool or with a listener has been opened, and what it would cancel is no
managed task. -/
structure Wired (s : State) : Prop where
  connections : s.connections.WF
  listens_opened : ∀ (j : Nat) task entry, s.tasks[j]? = some task →
    task.listens = some entry → entry < s.connections.opened
  listener_lt : ∀ entry < s.connections.opened,
    (s.connections.entries entry).listener < s.tasks.length
  listener_unmanaged : ∀ entry < s.connections.opened, ∀ task,
    s.tasks[(s.connections.entries entry).listener]? = some task → task.managed = false

namespace Wired

/-- Cancelling an opened entry leaves every managed task where it stands. -/
theorem cancel_managed (hw : Wired s) {entry : Nat} (he : entry < s.connections.opened)
    (hj : s.tasks[position]? = some point) (hm : point.managed = true) :
    (s.connections.cancel entry s.tasks)[position]? = some point := by
  unfold Connections.cancel
  split
  · exact hj
  · have hne : (s.connections.entries entry).listener ≠ position := by
      rintro rfl
      simp [hw.listener_unmanaged entry he point hj] at hm
    rwa [List.getElem?_set_ne hne]

/-- So does closing the entry of a URL. -/
theorem closeUrl_managed (hw : Wired s) {url : Nat} (hj : s.tasks[position]? = some point)
    (hm : point.managed = true) : (s.closeUrl url).tasks[position]? = some point := by
  unfold State.closeUrl
  split
  · exact hj
  · next entry hp => exact hw.cancel_managed (hw.connections.pool_opened url entry hp) hj hm

/-- Closing the entry of a URL keeps the connections well formed. -/
theorem closeUrl_connections (hw : Wired s) (url : Nat) : (s.closeUrl url).connections.WF := by
  unfold State.closeUrl
  split
  · exact hw.connections
  · next entry hp =>
    exact (hw.connections.update (hw.connections.pool_opened url entry hp) _).remove url

/-- A managed task stays where it stands while another task moves. -/
theorem apply_managed (hw : Wired s) {j : Nat} (hpoint : s.tasks[position]? = some point)
    (hl : ListenerMove s point move) (hne : j ≠ position) (hj : s.tasks[j]? = some found)
    (hm : found.managed = true) :
    (s.apply distributed position move).tasks[j]? = some found := by
  refine advance_of_ne hne ?_
  cases he : move.effect with
  | close entry =>
    exact hw.cancel_managed (hw.listens_opened _ _ _ hpoint (hl.close entry he)) hj hm
  | closeUrl url => exact hw.closeUrl_managed hj hm
  | _ => exact hj

/-- A position of an unmanaged task never holds a managed one. -/
theorem apply_unmanaged {j : Nat} (hpoint : s.tasks[position]? = some point)
    (hl : ListenerMove s point move) (hlt : j < s.tasks.length)
    (hu : ∀ task, s.tasks[j]? = some task → task.managed = false) :
    ∀ task, (s.apply distributed position move).tasks[j]? = some task →
      task.managed = false := by
  intro task ht
  rcases task_of_apply ht with rfl | ⟨rfl, rfl⟩ | ⟨-, hj⟩ | ⟨rfl, -⟩
  · rfl
  · exact hl.unmanaged (hu point hpoint)
  · exact hu task hj
  · omega

/-- The connections after the effect of a move. -/
theorem connections_perform (hw : Wired s) (hpoint : s.tasks[position]? = some point)
    (hl : ListenerMove s point move) : (s.perform distributed move.effect).connections.WF := by
  cases he : move.effect with
  | register url entry =>
    obtain ⟨rfl, -⟩ := hl.register url entry he
    exact hw.connections.register url _
  | connect entry =>
    obtain ⟨url, hp⟩ := hl.connect entry he
    exact hw.connections.update (hw.connections.pool_opened url entry hp) _
  | close entry =>
    exact hw.connections.update (hw.listens_opened _ _ _ hpoint (hl.close entry he)) _
  | closeUrl url => exact closeUrl_connections hw url
  | _ => exact hw.connections

/-- Closing the entry of a URL opens none. -/
@[simp] theorem opened_closeUrl (s : State) (url : Nat) :
    (s.closeUrl url).connections.opened = s.connections.opened := by
  unfold State.closeUrl
  split <;> rfl

/-- Only a registration opens an entry. -/
theorem opened_perform (hw : Wired s) (hl : ListenerMove s point move) (distributed : Bool) :
    s.connections.opened ≤ (s.perform distributed move.effect).connections.opened ∧
      ∀ entry < (s.perform distributed move.effect).connections.opened,
        entry < s.connections.opened ∨ ∃ url, move.effect = .register url entry := by
  cases he : move.effect with
  | register url entry =>
    refine ⟨Nat.le_max_left .., fun other ho ↦ ?_⟩
    have hle : entry ≤ s.connections.opened := by
      obtain ⟨rfl, -⟩ := hl.register url entry he
      cases hp : s.connections.pool url with
      | none => exact Nat.le_refl _
      | some found => exact Nat.le_of_lt (hw.connections.pool_opened url found hp)
    by_cases hother : other < s.connections.opened
    · exact .inl hother
    · simp only [State.perform, Connections.register] at ho
      exact .inr ⟨url, by rw [show other = entry by omega]⟩
  | closeUrl url =>
    rw [State.perform, opened_closeUrl]
    exact ⟨Nat.le_refl _, fun _ ↦ .inl⟩
  | _ => exact ⟨Nat.le_refl _, fun _ ↦ .inl⟩

/-- Replacing an entry by one with the same listener changes no listener. -/
theorem listener_update {c : Connections} {entry other : Nat} {value : WebSocketEntry}
    (hv : value.listener = (c.entries other).listener) :
    (Function.update c.entries other value entry).listener = (c.entries entry).listener := by
  by_cases ho : entry = other
  · subst ho
    rw [Function.update_self, hv]
  · rw [Function.update_of_ne ho]

/-- Closing the entry of a URL changes no listener. -/
theorem listener_closeUrl (s : State) (url entry : Nat) :
    ((s.closeUrl url).connections.entries entry).listener =
      (s.connections.entries entry).listener := by
  unfold State.closeUrl
  split
  · rfl
  · exact listener_update rfl

/-- Only a registration changes the listener of an entry. -/
theorem listener_perform (distributed : Bool) (s : State) {entry : Nat} (hr : ∀ url, effect ≠ .register url entry) :
    ((s.perform distributed effect).connections.entries entry).listener =
      (s.connections.entries entry).listener := by
  cases effect with
  | register url other =>
    have ho : entry ≠ other := by
      rintro rfl
      exact hr url rfl
    simp [State.perform, Connections.register, Function.update_of_ne ho]
  | connect other => exact listener_update rfl
  | close other => exact listener_update rfl
  | closeUrl url => exact listener_closeUrl s url entry
  | _ => rfl

/-- A move adds at most the task it creates, and a listener in any case. -/
theorem length_apply (s : State) (move : Move) :
    s.tasks.length ≤ (s.apply distributed position move).tasks.length := by
  simp [State.apply, advance]

/-- A registered listener stands at the position that its entry names. -/
theorem listener_created (hl : ListenerMove s point move) {url entry : Nat}
    (he : move.effect = .register url entry) (distributed : Bool) (position : Nat) :
    ∃ task, move.created = some task ∧ task.managed = false ∧
      (s.apply distributed position move).tasks.length = s.tasks.length + 1 ∧
      ((s.perform distributed move.effect).connections.entries entry).listener =
        s.tasks.length := by
  obtain ⟨-, task, hc, hm⟩ := hl.register url entry he
  refine ⟨task, hc, hm, ?_, ?_⟩
  · simp [State.apply, advance, hc, State.create, hm]
  · simp [he, State.perform, Connections.register]

/-- A move changes the connections by its effect only. -/
theorem connections_apply (s : State) (move : Move) :
    (s.apply distributed position move).connections =
      (s.perform distributed move.effect).connections := rfl

/-- Moves keep the wiring. -/
theorem apply (hw : Wired s) (hpoint : s.tasks[position]? = some point)
    (hl : ListenerMove s point move) : Wired (s.apply distributed position move) where
  connections := hw.connections_perform hpoint hl
  listens_opened j task entry hj he := by
    rw [connections_apply]
    obtain ⟨hle, -⟩ := hw.opened_perform hl distributed
    rcases task_of_apply hj with rfl | ⟨rfl, rfl⟩ | ⟨-, hj⟩ | ⟨-, hc⟩
    · cases he
    · exact (hw.listens_opened _ _ _ hpoint (hl.next entry he)).trans_le hle
    · exact (hw.listens_opened _ _ _ hj he).trans_le hle
    · obtain ⟨url, hr⟩ := hl.created task hc entry he
      rw [hr]
      exact Nat.le_max_right ..
  listener_lt entry ho := by
    rw [connections_apply] at ho ⊢
    by_cases hr : ∃ url, move.effect = .register url entry
    · obtain ⟨url, hr⟩ := hr
      obtain ⟨-, -, -, hlength, hlistener⟩ :=
        listener_created hl hr distributed position
      rw [hlength]
      rw [hlistener]
      exact Nat.lt_succ_self _
    · have hlt := ((hw.opened_perform hl distributed).2 entry ho).resolve_right hr
      refine Nat.lt_of_lt_of_le ?_ (length_apply s move)
      rw [listener_perform distributed s fun url hu ↦ hr ⟨url, hu⟩]
      exact hw.listener_lt entry hlt
  listener_unmanaged entry ho task ht := by
    rw [connections_apply] at ho ht
    by_cases hr : ∃ url, move.effect = .register url entry
    · obtain ⟨url, hr⟩ := hr
      obtain ⟨created, hc, hm, hlength, hlistener⟩ :=
        listener_created hl hr distributed position
      rw [hlistener] at ht
      rcases task_of_apply ht with rfl | ⟨rfl, rfl⟩ | ⟨-, hj⟩ | ⟨-, hcreated⟩
      · rfl
      · exact absurd hpoint (by simp)
      · exact absurd hj (by simp)
      · exact Option.some.inj (hc.symm.trans hcreated) ▸ hm
    · have hlt := ((hw.opened_perform hl distributed).2 entry ho).resolve_right hr
      rw [listener_perform distributed s fun url hu ↦ hr ⟨url, hu⟩] at ht
      exact apply_unmanaged hpoint hl (hw.listener_lt entry hlt)
        (hw.listener_unmanaged entry hlt) task ht

/-- A managed task that joins keeps the wiring. -/
theorem join (hw : Wired s) (start : Option Task)
    (hm : ∀ task, start = some task → task.listens = none) (ht : t.tasks = s.tasks ++ start.toList)
    (hc : t.connections = s.connections) : Wired t where
  connections := hc ▸ hw.connections
  listens_opened j task entry hj he := by
    rw [ht] at hj
    rw [hc]
    rcases of_join hj with hj | ⟨-, hs⟩
    · exact hw.listens_opened j task entry hj he
    · cases (hm task hs).symm.trans he
  listener_lt entry ho := by
    rw [hc] at ho ⊢
    rw [ht, List.length_append]
    have := hw.listener_lt entry ho
    omega
  listener_unmanaged entry ho task hj := by
    rw [hc] at ho hj
    rw [ht] at hj
    rcases of_join hj with hj | ⟨hlast, -⟩
    · exact hw.listener_unmanaged entry ho task hj
    · have := hw.listener_lt entry ho
      omega

/-- The wiring depends on the tasks and the connections only. -/
theorem same (hw : Wired s) (ht : t.tasks = s.tasks) (hc : t.connections = s.connections) :
    Wired t :=
  hw.join none (by simp) (by simpa using ht) hc

/-- Closing the entry of a URL keeps the wiring. -/
theorem closeUrl (hw : Wired s) (url : Nat) : Wired (s.closeUrl url) where
  connections := closeUrl_connections hw url
  listens_opened j task entry hj he := by
    rw [opened_closeUrl]
    rcases task_of_closeUrl hj with rfl | hj
    · cases he
    · exact hw.listens_opened j task entry hj he
  listener_lt entry ho := by
    rw [opened_closeUrl] at ho
    rw [listener_closeUrl, length_closeUrl]
    exact hw.listener_lt entry ho
  listener_unmanaged entry ho task hj := by
    rw [opened_closeUrl] at ho
    rw [listener_closeUrl] at hj
    rcases task_of_closeUrl hj with rfl | hj
    · rfl
    · exact hw.listener_unmanaged entry ho task hj

/-- Every step keeps the wiring. -/
theorem step (hw : Wired s) {event : Event} (h : s.step distributed event = some t) :
    Wired t := by
  cases event with
  | run position outcome =>
    obtain ⟨point, move, hpoint, hmove, rfl⟩ := run_spec h
    exact hw.apply hpoint (listenerMove hmove)
  | produce =>
    rw [produce_spec h]
    exact hw.join _ (fun task hs ↦ by cases of_create hs; rfl) rfl rfl
  | get position metaDict =>
    obtain ⟨_, _, _, _, _, rfl⟩ := get_spec h
    exact hw.same rfl rfl
  | dispatch position =>
    obtain ⟨delivery, _, rfl⟩ := dispatch_spec h
    exact hw.join _ (fun task hs ↦ by cases of_create hs; rfl) rfl rfl
  | waiter =>
    obtain ⟨_, rfl, _⟩ := waiter_spec h
    exact hw.same rfl rfl
  | copyMeta source target =>
    obtain ⟨_, rfl⟩ := copyMeta_spec h
    exact hw.same rfl rfl
  | closeSession url =>
    simp only [State.step, if_neg (waiter_of_step h)] at h
    cases h
    exact hw.closeUrl url
  | producerEnds | stop =>
    simp only [State.step, if_neg (waiter_of_step h)] at h
    cases h
    exact hw.same rfl rfl

end Wired

/-- Every reached state is wired. -/
theorem wired {guard : State → Event → Prop} (h : (machine distributed).Reach guard s) :
    Wired s := by
  refine Machine.Reach.invariant (fun s hs ↦ ?_) (fun _ _ _ _ hw _ hs ↦ hw.step hs) h
  subst hs
  constructor
  · exact ⟨by simp [State.start], by simp [State.start]⟩
  all_goals simp [State.start]

/-! ### The idle event -/

/-- Every effect keeps the idle event in step with the pending work. -/
theorem idleIff_perform (ho : s.ownership.IdleIff) :
    (s.perform distributed effect).ownership.IdleIff := by
  cases effect with
  | track request => exact ho.track request
  | release request => exact ho.release request
  | closeUrl url =>
    obtain ⟨_, _, he⟩ := closeUrl_eq s url
    rw [State.perform, he]
    exact ho
  | fail request =>
    cases request with
    | none => exact ho
    | some request => exact ho.release request
  | _ => exact ho

/-- In every reached state the idle event is set exactly when no work is pending. -/
theorem idleIff {guard : State → Event → Prop} (h : (machine distributed).Reach guard s) :
    s.ownership.IdleIff := by
  refine Machine.Reach.invariant (I := fun s ↦ s.ownership.IdleIff) (fun s hs ↦ ?_)
    (fun s event t _ ho _ hs ↦ ?_) h
  · subst hs
    exact ⟨fun _ ↦ rfl, fun _ ↦ rfl⟩
  · replace hs : s.step distributed event = some t := hs
    cases event with
    | run position outcome =>
      obtain ⟨point, move, -, -, rfl⟩ := run_spec hs
      exact idleIff_perform ho
    | produce =>
      rw [produce_spec hs]
      exact ho
    | get position metaDict =>
      obtain ⟨_, _, _, _, hcase, rfl⟩ := get_spec hs
      rcases hcase with ⟨-, rfl⟩ | ⟨_, -, -, rfl⟩ <;> exact ho
    | dispatch position =>
      obtain ⟨_, _, rfl⟩ := dispatch_spec hs
      exact ho
    | waiter =>
      obtain ⟨_, rfl, _⟩ := waiter_spec hs
      exact ho
    | copyMeta source target =>
      obtain ⟨_, rfl⟩ := copyMeta_spec hs
      exact ho
    | closeSession url =>
      simp only [State.step, if_neg (waiter_of_step hs), Option.some.injEq] at hs
      subst hs
      obtain ⟨_, _, he⟩ := closeUrl_eq s url
      rw [he]
      exact ho
    | producerEnds | stop =>
      simp only [State.step, if_neg (waiter_of_step hs)] at hs
      cases hs
      exact ho

end ScrapyCffi.Engine
