import ScrapyCffi.Engine.Runs

/-!
# The engine never finishes early

`_wait_for_explicit_completion` trusts `_pending_work_ids`, a set of the ids that requests
carry in their `meta`. A child request built with `meta=response.meta` or a copy of it is
accepted under its parent's id, and the parent's completion removes that id while the child
still waits in the queue. In runs where no request is accepted under an id that another one
carries, and no WebSocket request connects over the entry of an open connection, the waiter
returns only when nothing is left.
-/

namespace ScrapyCffi.Engine

open ScrapyCffi.Base

variable {distributed : Bool} {s t : State} {position : Nat} {point found : Task}
  {outcome : Outcome} {move : Move} {effect : Effect} {workId : Nat}

/-- The source request of an output. -/
def outputCarries (source : Option Source) : List Request :=
  source.toList.map fun source ↦ source.delivery.request

/-- The accepted requests that a task works on, whose ids it may release. -/
def Task.carries : Task → List Request
  | .getSpiderOutput source | .managerSpiderinterceptorsResult _ _ source
  | .processSpiderExceptionChain source | .processItems _ source | .enqueueRequest _ _ source
  | .schedulerPut _ _ source | .putAccepted _ source => outputCarries source
  | .putRejected request source => request :: outputCarries source
  | .requestInterceptChain delivery | .responseInterceptChain delivery _ _
  | .exceptionInterceptChain delivery _ | .processSpiderInputChain delivery _ _
  | .processResponse delivery _ _ | .completeRequest delivery _ | .releaseRequest delivery _
  | .processDownloader delivery | .fetchHttp delivery | .processWebsocketRequest delivery
  | .doWebsocketConnect delivery _ _ | .closeWebsocket delivery _ _
  | .websocketConnecting delivery _ _ | .websocketListener delivery _ => [delivery.request]
  | .done | .websocketClosing _ => []

/-- What a caller of `process_downloadInterceptor_chain` carries once it goes on. -/
def Caller.carries (delivery : Delivery) : Caller → List Request
  | .listener _ => [delivery.request]
  | _ => []

/-- The request that the task has given to `scheduler.put`. -/
def Task.putting : Task → Option Request
  | .schedulerPut request _ _ => some request
  | _ => none

/-- Every accepted request of the task. -/
def Task.holds (task : Task) : List Request := task.putting.toList ++ task.carries

/-- The work ids of the requests in the queue and in the hands of the scheduler loops. -/
def State.waitingIds (s : State) : List (Option Nat) :=
  s.queue.map s.ownership.queuedId ++ s.inHand.map fun delivery ↦
    s.ownership.workId delivery.request

/-- Some accepted request carries the work id. -/
def State.Carries (s : State) (workId : Nat) : Prop :=
  some workId ∈ s.waitingIds ∨
    ∃ task ∈ s.tasks, ∃ request ∈ task.holds, s.ownership.workId request = some workId

/-- No request is accepted under a work id that another accepted request carries, and a
WebSocket request connects only when the pool has no entry of its URL. -/
def Sole (s : State) (point : Task) (_ : Outcome) : Prop :=
  match point with
  | .enqueueRequest request _ _ =>
    s.stopEvent = false → ∀ workId ∈ s.ownership.workId request, ¬ s.Carries workId
  | .processWebsocketRequest ⟨⟨.webSocket url websocketId sendMessage, _⟩, _⟩ =>
    s.stale websocketId = false → s.sends url websocketId sendMessage = false →
      s.connections.pool url = none
  | _ => True

instance (s : State) (workId : Nat) : Decidable (s.Carries workId) :=
  inferInstanceAs (Decidable (_ ∨ _))

instance (s : State) (point : Task) (outcome : Outcome) : Decidable (Sole s point outcome) := by
  unfold Sole
  split <;> infer_instance

/-- The producer is done, no request waits, and no task or listener is live. -/
def Finished (s : State) : Prop :=
  s.producerDone = true ∧ s.queue = [] ∧ s.inHand = [] ∧ ∀ task ∈ s.tasks, task = .done

@[simp] theorem carries_resumeOutput (source : Option Source) :
    (resumeOutput source).carries = outputCarries source := by
  cases source <;> rfl

@[simp] theorem putting_resumeOutput (source : Option Source) :
    (resumeOutput source).putting = none := by
  cases source <;> rfl

@[simp] theorem putting_resume (caller : Caller) (delivery : Delivery) :
    (caller.resume delivery).putting = none := by
  cases caller <;> rfl

@[simp] theorem outputCarries_none : outputCarries none = [] := rfl

@[simp] theorem outputCarries_some (source : Source) :
    outputCarries (some source) = [source.delivery.request] := rfl

/-- Only the receive loop goes on with the request. -/
@[simp] theorem carries_resume (caller : Caller) (delivery : Delivery) :
    (caller.resume delivery).carries = caller.carries delivery := by
  cases caller <;> rfl

/-- What awaits the chain carries no other request. -/
theorem mem_caller_carries {caller : Caller} {delivery : Delivery} {request : Request}
    (h : request ∈ caller.carries delivery) : request = delivery.request := by
  cases caller <;> first | exact List.mem_singleton.mp h | cases h

/-- An output goes on with the request of its source. -/
theorem mem_resumeOutput {source : Option Source} {request : Request}
    (h : request ∈ (resumeOutput source).carries) : request ∈ outputCarries source :=
  carries_resumeOutput source ▸ h

/-- A resumed caller carries the request of its delivery. -/
theorem mem_resume {caller : Caller} {delivery : Delivery} {request : Request}
    (h : request ∈ (caller.resume delivery).carries) : request ∈ [delivery.request] :=
  List.mem_singleton.mpr (mem_caller_carries (carries_resume caller delivery ▸ h))

/-- What a move does with the accepted requests of its task. -/
structure CarryingMove (s : State) (point : Task) (move : Move) : Prop where
  next : ∀ request ∈ move.next.carries, request ∈ point.holds
  created : ∀ task, move.created = some task →
    task.putting = none ∧ ∀ request ∈ task.carries, request ∈ point.carries
  putting : ∀ request, move.next.putting = some request → move.effect = .track request
  track : ∀ request, move.effect = .track request → s.stopEvent = false ∧
    move.created = none ∧ ∃ child source, point = .enqueueRequest request child source ∧
      move.next = .schedulerPut request child source
  push : ∀ request, move.effect = .push request → point.putting = some request ∧
    ∀ other ∈ move.next.carries, other ∈ point.carries
  release : ∀ request, move.effect = .release request → request ∈ point.carries

/-- By inspection of every coroutine. -/
private theorem carryingMove_proceed (h : point.proceed distributed s outcome = some move) :
    CarryingMove s point move := by
  cases stretch_of_proceed h <;> constructor <;>
    first
    | exact fun _ hr ↦ hr
    | (intro _ hother; cases hother; done)
    | exact fun _ hr ↦ mem_resumeOutput hr
    | exact fun _ hr ↦ mem_resume hr
    | (intro _ hr; cases (putting_resumeOutput _).symm.trans hr)
    | (intro _ hr; cases (putting_resume _ _).symm.trans hr)
    | (rintro _ ⟨⟩; exact ⟨rfl, fun _ hr ↦ hr⟩)
    | (rintro _ ⟨⟩; exact ⟨rfl, fun _ hr ↦ (by cases hr)⟩)
    | (rintro _ ⟨⟩; rfl)
    | (rintro _ ⟨⟩; exact List.mem_cons_self)
    | skip
  case enqueue.track hstop =>
    rintro _ ⟨⟩
    exact ⟨hstop, rfl, _, _, rfl, rfl⟩
  case putAccepts.next => exact fun _ ↦ List.mem_append_right _
  case putRejected.next => exact fun _ hr ↦ List.mem_cons_of_mem _ (mem_resumeOutput hr)

/-- A handler carries what its task carried. -/
private theorem carries_handler {handler : Task} (h : point.handler = some handler) :
    handler.putting = none ∧ ∀ request ∈ handler.carries, request ∈ point.carries := by
  have hcaller : ∀ (delivery : Delivery) (caller : Caller),
      caller.handler delivery = some handler →
      handler.putting = none ∧ ∀ request ∈ handler.carries, request ∈ [delivery.request] := by
    intro delivery caller hc
    cases caller <;> cases hc <;> simp [Task.putting, Task.carries]
  cases point <;> first | cases h | exact hcaller _ _ h

/-- Every move works on the accepted requests of its task only. -/
theorem carryingMove (h : point.move distributed s outcome = some move) :
    CarryingMove s point move := by
  rcases move_cases h with h | ⟨handler, -, hh, rfl⟩ | h
  · exact carryingMove_proceed h
  · obtain ⟨hp, hc⟩ := carries_handler hh
    exact ⟨fun request hr ↦ List.mem_append_right _ (hc request hr), by simp [Move.to],
      by simp [Move.to, hp], by simp [Move.to], by simp [Move.to], by simp [Move.to]⟩
  · obtain ⟨-, hcreated, hf⟩ := fail_spec h
    have hnext : move.next.putting = none ∧ ∀ request ∈ move.next.carries,
        request ∈ point.holds := by
      rcases hf with ⟨_, _, _, _, _, hn⟩ | ⟨_, hn | ⟨_, _, _, rfl, hn⟩⟩ <;> rw [hn]
      · exact ⟨rfl, by simp [Task.carries]⟩
      · exact ⟨rfl, by simp [Task.carries]⟩
      · exact ⟨rfl, by simp [Task.carries, Task.holds]⟩
    have heffect : ∃ failed, move.effect = .fail failed := by
      rcases hf with ⟨request, _, _, _, he, _⟩ | ⟨he, _⟩
      · exact ⟨some request, he⟩
      · exact ⟨none, he⟩
    obtain ⟨failed, he⟩ := heffect
    exact ⟨hnext.2, by simp [hcreated], by simp [hnext.1], by simp [he], by simp [he],
      by simp [he]⟩

/-! ### Exclusive work ids -/

/-- The id of a request that waits in the queue, in the hands of a loop or in `scheduler.put`
is pending, and no other accepted request carries it. -/
structure Exclusive (s : State) : Prop where
  known : s.ownership.Known
  waiting : ∀ id ∈ s.waitingIds, ∃ workId ∈ s.ownership.pendingWorkIds, id = some workId
  nodup : s.waitingIds.Nodup
  tracked : ∀ task ∈ s.tasks, ∀ request ∈ task.holds,
    ∃ workId, s.ownership.workId request = some workId
  putting : ∀ task ∈ s.tasks, ∀ request, task.putting = some request →
    ∀ workId, s.ownership.workId request = some workId → workId ∈ s.ownership.pendingWorkIds
  waiting_alone : ∀ task ∈ s.tasks, ∀ request ∈ task.holds,
    s.ownership.workId request ∉ s.waitingIds
  putting_alone : ∀ (i j : Nat) p q request other, s.tasks[i]? = some p →
    s.tasks[j]? = some q → p.putting = some request → other ∈ q.holds →
    (j = i → other ∈ q.carries) → s.ownership.workId other ≠ s.ownership.workId request

/-- The ids of the requests that wait are kept while dictionaries gain ids. -/
theorem waitingIds_mono (hs : ∀ id ∈ s.waitingIds, ∃ workId, id = some workId)
    (hid : ∀ metaDict workId, s.ownership.workIds metaDict = some workId →
      t.ownership.workIds metaDict = some workId)
    (hq : t.queue = s.queue) (hi : t.inHand = s.inHand) : t.waitingIds = s.waitingIds := by
  rw [State.waitingIds, State.waitingIds, hq, hi]
  congr 1
  · refine List.map_congr_left fun queued hmem ↦ ?_
    obtain ⟨workId, hw⟩ := hs _ (List.mem_append_left _ (List.mem_map_of_mem hmem))
    cases queued with
    | object request =>
      exact (hid _ _ hw).trans hw.symm
    | bytes => rfl
  · refine List.map_congr_left fun delivery hmem ↦ ?_
    obtain ⟨workId, hw⟩ := hs _ (List.mem_append_right _ (List.mem_map_of_mem hmem))
    exact (hid _ _ hw).trans hw.symm

namespace Exclusive

/-- A step on the dictionaries and the pending set that only adds to them. -/
theorem grow (h : Exclusive s) {o : Ownership}
    (hid : ∀ metaDict workId, s.ownership.workIds metaDict = some workId →
      o.workIds metaDict = some workId)
    (hknown : o.Known) (hpending : s.ownership.pendingWorkIds ⊆ o.pendingWorkIds) :
    Exclusive { s with ownership := o } := by
  have hwaiting : State.waitingIds { s with ownership := o } = s.waitingIds :=
    waitingIds_mono (fun id hm ↦ (h.waiting id hm).imp fun _ ↦ And.right) hid rfl rfl
  have hsame : ∀ task ∈ s.tasks, ∀ request ∈ task.holds,
      o.workId request = s.ownership.workId request := by
    intro task ht request hr
    obtain ⟨workId, hw⟩ := h.tracked task ht request hr
    exact (hid _ _ hw).trans hw.symm
  exact
    { known := hknown
      waiting id hm := by
        obtain ⟨workId, hp, he⟩ := h.waiting id (hwaiting ▸ hm)
        exact ⟨workId, hpending hp, he⟩
      nodup := hwaiting ▸ h.nodup
      tracked task ht request hr := by
        obtain ⟨workId, hw⟩ := h.tracked task ht request hr
        exact ⟨workId, hid _ _ hw⟩
      putting task ht request hr workId hw := by
        have hmem : request ∈ task.holds := List.mem_append_left _ (by simp [hr])
        exact hpending (h.putting task ht request hr workId
          ((hsame task ht request hmem).symm.trans hw))
      waiting_alone task ht request hr := by
        rw [hwaiting, show Ownership.workId _ request = _ from hsame task ht request hr]
        exact h.waiting_alone task ht request hr
      putting_alone i j p q request other hi hj hp hqm hc := by
        have hpm : request ∈ p.holds := List.mem_append_left _ (by simp [hp])
        rw [show Ownership.workId _ request = _ from
            hsame p (List.mem_of_getElem? hi) request hpm,
          show Ownership.workId _ other = _ from hsame q (List.mem_of_getElem? hj) other hqm]
        exact h.putting_alone i j p q request other hi hj hp hqm hc }

/-- The request is held by a task of `s` that puts nothing in `t`. -/
def HeldAt (s t : State) (request : Request) : Prop :=
  ∃ (i : Nat) (p : Task), s.tasks[i]? = some p ∧ request ∈ p.holds ∧
    ∀ q, t.tasks[i]? = some q → q.putting = none

/-- Tasks that move on with what they hold, and the release of what one of them holds. -/
theorem moves_on (h : Exclusive s) (hid : t.ownership.workIds = s.ownership.workIds)
    (hseq : t.ownership.workSequence = s.ownership.workSequence)
    (hsub : t.ownership.pendingWorkIds ⊆ s.ownership.pendingWorkIds)
    (hkeep : ∀ workId ∈ s.ownership.pendingWorkIds, workId ∉ t.ownership.pendingWorkIds →
      ∃ request, HeldAt s t request ∧ s.ownership.workId request = some workId)
    (hq : t.queue = s.queue) (hi : t.inHand = s.inHand)
    (htasks : ∀ (j : Nat) q, t.tasks[j]? = some q → s.tasks[j]? = some q ∨
      (q.putting = none ∧ ∀ request ∈ q.carries, HeldAt s t request)) : Exclusive t := by
  have hworkId : ∀ request, t.ownership.workId request = s.ownership.workId request :=
    fun request ↦ congrFun hid request.metaDict
  have hwaiting : t.waitingIds = s.waitingIds :=
    waitingIds_mono (fun id hm ↦ (h.waiting id hm).imp fun _ ↦ And.right)
      (fun _ _ hw ↦ hid ▸ hw) hq hi
  have hputting : ∀ (j : Nat) q request, t.tasks[j]? = some q → q.putting = some request →
      s.tasks[j]? = some q := by
    intro j q request hj hp
    rcases htasks j q hj with hj | ⟨hn, -⟩
    · exact hj
    · cases hn.symm.trans hp
  have hholds : ∀ (j : Nat) q request, t.tasks[j]? = some q → request ∈ q.holds →
      (s.tasks[j]? = some q) ∨ HeldAt s t request := by
    intro j q request hj hr
    rcases htasks j q hj with hj | ⟨hn, hc⟩
    · exact .inl hj
    · exact .inr (hc request (by simpa [Task.holds, hn] using hr))
  have hheld : ∀ request, HeldAt s t request → ∃ task ∈ s.tasks, request ∈ task.holds :=
    fun request ⟨_, p, hp, hr, _⟩ ↦ ⟨p, List.mem_of_getElem? hp, hr⟩
  have halone : ∀ request, HeldAt s t request → ∀ (i : Nat) p other, t.tasks[i]? = some p →
      p.putting = some other → s.ownership.workId request ≠ s.ownership.workId other := by
    intro request ⟨k, held, hk, hr, hnone⟩ i p other hi hp
    have hne : k ≠ i := by
      rintro rfl
      cases (hnone p hi).symm.trans hp
    exact h.putting_alone i k p held other request (hputting i p other hi hp) hk hp hr
      fun heq ↦ absurd heq hne
  constructor
  case known =>
    constructor
    · rw [hid, hseq]
      exact h.known.workIds
    · intro workId hm
      rw [hseq]
      exact h.known.pending workId (hsub hm)
  case waiting =>
    intro id hm
    rw [hwaiting] at hm
    obtain ⟨workId, hp, rfl⟩ := h.waiting id hm
    refine ⟨workId, ?_, rfl⟩
    by_contra hgone
    obtain ⟨request, hr, hw⟩ := hkeep workId hp hgone
    obtain ⟨task, ht, hr⟩ := hheld request hr
    exact h.waiting_alone task ht request hr (hw ▸ hm)
  case nodup => exact hwaiting ▸ h.nodup
  case tracked =>
    intro task ht request hr
    obtain ⟨j, hj⟩ := List.getElem?_of_mem ht
    rw [hworkId]
    rcases hholds j task request hj hr with hj | hheldAt
    · exact h.tracked task (List.mem_of_getElem? hj) request hr
    · obtain ⟨old, ho, hr⟩ := hheld request hheldAt
      exact h.tracked old ho request hr
  case putting =>
    intro task ht request hr workId hw
    obtain ⟨j, hj⟩ := List.getElem?_of_mem ht
    rw [hworkId] at hw
    have hold := hputting j task request hj hr
    by_contra hgone
    obtain ⟨other, ho, hother⟩ :=
      hkeep workId (h.putting task (List.mem_of_getElem? hold) request hr workId hw) hgone
    exact halone other ho j task request hj hr (hother.trans hw.symm)
  case waiting_alone =>
    intro task ht request hr
    obtain ⟨j, hj⟩ := List.getElem?_of_mem ht
    rw [hwaiting, hworkId]
    rcases hholds j task request hj hr with hj | hheldAt
    · exact h.waiting_alone task (List.mem_of_getElem? hj) request hr
    · obtain ⟨old, ho, hr⟩ := hheld request hheldAt
      exact h.waiting_alone old ho request hr
  case putting_alone =>
    intro i j p q request other hi hj hp hqm hc
    rw [hworkId, hworkId]
    rcases hholds j q other hj hqm with hold | hheldAt
    · exact h.putting_alone i j p q request other (hputting i p request hi hp) hold hp hqm hc
    · exact halone other hheldAt i p request hi hp

/-- Growing dictionaries give no accepted request another id. -/
theorem carries_of_grow (h : Exclusive s) {o : Ownership}
    (hid : ∀ metaDict workId, s.ownership.workIds metaDict = some workId →
      o.workIds metaDict = some workId)
    (hc : State.Carries { s with ownership := o } workId) : s.Carries workId := by
  rcases hc with hm | ⟨task, ht, request, hr, hw⟩
  · have hwaiting : State.waitingIds { s with ownership := o } = s.waitingIds :=
      waitingIds_mono (fun id hm ↦ (h.waiting id hm).imp fun _ ↦ And.right) hid rfl rfl
    exact .inl (hwaiting ▸ hm)
  · obtain ⟨found, hf⟩ := h.tracked task ht request hr
    have heq : found = workId := Option.some.inj ((hid _ _ hf).symm.trans hw)
    exact .inr ⟨task, ht, request, hr, heq ▸ hf⟩

/-- The ids that accepted requests carry have been given out. -/
theorem le_of_carries (h : Exclusive s) (hc : s.Carries workId) :
    workId ≤ s.ownership.workSequence := by
  rcases hc with hm | ⟨_, _, request, _, hw⟩
  · obtain ⟨found, hp, he⟩ := h.waiting _ hm
    exact Option.some.inj he ▸ h.known.pending found hp
  · exact h.known.workIds _ _ hw

/-- A pending id that no accepted request carries may wait in the queue. -/
theorem enqueue (h : Exclusive s) (queued : Queued) {workId : Nat}
    (hq : s.ownership.queuedId queued = some workId)
    (hp : workId ∈ s.ownership.pendingWorkIds) (halone : ¬ s.Carries workId) :
    Exclusive { s with queue := s.queue ++ [queued] } := by
  have hperm : (State.waitingIds { s with queue := s.queue ++ [queued] }).Perm
      (some workId :: s.waitingIds) := by
    simp only [State.waitingIds, List.map_append, List.map_cons, List.map_nil, hq,
      List.append_assoc, List.singleton_append]
    exact List.perm_middle
  refine { h with waiting := ?_, nodup := ?_, waiting_alone := ?_ }
  · intro id hm
    rcases List.mem_cons.mp (hperm.mem_iff.mp hm) with rfl | hm
    · exact ⟨workId, hp, rfl⟩
    · exact h.waiting id hm
  · rw [hperm.nodup_iff, List.nodup_cons]
    exact ⟨fun hm ↦ halone (.inl hm), h.nodup⟩
  · intro task ht request hr hm
    rcases List.mem_cons.mp (hperm.mem_iff.mp hm) with hid | hm
    · exact halone (.inr ⟨task, ht, request, hr, hid⟩)
    · exact h.waiting_alone task ht request hr hm

/-- A pending id that no accepted request carries may be given to `scheduler.put` by a task
that goes on with what it carries. -/
theorem startPut (h : Exclusive s) {request : Request} (next : Task)
    (hpoint : s.tasks[position]? = some point) (hw : s.ownership.workId request = some workId)
    (hp : workId ∈ s.ownership.pendingWorkIds) (halone : ¬ s.Carries workId)
    (hnext : next.putting = some request) (hc : next.carries = point.carries) :
    Exclusive { s with tasks := s.tasks.set position next } := by
  have hholds : next.holds = request :: point.carries := by simp [Task.holds, hnext, hc]
  have hpm : point ∈ s.tasks := List.mem_of_getElem? hpoint
  have hcarried : ∀ other ∈ point.carries, other ∈ point.holds :=
    fun other ↦ List.mem_append_right _
  have hother : ∀ task ∈ s.tasks, ∀ other ∈ task.holds,
      s.ownership.workId other ≠ s.ownership.workId request :=
    fun task ht other ho heq ↦ halone (.inr ⟨task, ht, other, ho, heq.trans hw⟩)
  have htask : ∀ (j : Nat) q, (s.tasks.set position next)[j]? = some q →
      (j = position ∧ q = next) ∨ (j ≠ position ∧ s.tasks[j]? = some q) := by
    intro j q hj
    have hj : (advance s.tasks position next (none : Option Task).toList)[j]? = some q := by
      simpa [advance] using hj
    rcases of_advance hj with hself | hstay | ⟨-, hnone⟩
    · exact .inl hself
    · exact .inr hstay
    · cases hnone
  have hmem : ∀ task ∈ s.tasks.set position next, task = next ∨ task ∈ s.tasks := by
    intro task ht
    obtain ⟨j, hj⟩ := List.getElem?_of_mem ht
    exact (htask j task hj).imp And.right fun hold ↦ List.mem_of_getElem? hold.2
  refine { h with tracked := ?_, putting := ?_, waiting_alone := ?_, putting_alone := ?_ }
  · intro task ht other ho
    rcases hmem task ht with rfl | ht
    · rcases List.mem_cons.mp (hholds ▸ ho) with rfl | ho
      · exact ⟨workId, hw⟩
      · exact h.tracked point hpm other (hcarried other ho)
    · exact h.tracked task ht other ho
  · intro task ht other ho found hf
    rcases hmem task ht with rfl | ht
    · cases hnext.symm.trans ho
      exact Option.some.inj (hw.symm.trans hf) ▸ hp
    · exact h.putting task ht other ho found hf
  · intro task ht other ho
    rcases hmem task ht with rfl | ht
    · rcases List.mem_cons.mp (hholds ▸ ho) with rfl | ho
      · exact fun hm ↦ halone (.inl (hw ▸ hm))
      · exact h.waiting_alone point hpm other (hcarried other ho)
    · exact h.waiting_alone task ht other ho
  · intro i j p q first other hi hj hpf hqm hcar
    rcases htask i p hi with ⟨rfl, rfl⟩ | ⟨hine, hiold⟩
    · cases hnext.symm.trans hpf
      rcases htask j q hj with ⟨rfl, rfl⟩ | ⟨-, hjold⟩
      · exact hother point hpm other (hcarried other (hc ▸ hcar rfl))
      · exact hother q (List.mem_of_getElem? hjold) other hqm
    · rcases htask j q hj with ⟨rfl, rfl⟩ | ⟨-, hjold⟩
      · rcases List.mem_cons.mp (hholds ▸ hqm) with rfl | ho
        · exact (hother p (List.mem_of_getElem? hiold) first
            (List.mem_append_left _ (by simp [hpf]))).symm
        · exact h.putting_alone i j p point first other hiold hpoint hpf (hcarried other ho)
            fun heq ↦ absurd heq.symm hine
      · exact h.putting_alone i j p q first other hiold hjold hpf hqm hcar

/-- The tasks after a move, for `moves_on`. -/
theorem heldAt_move (hpoint : s.tasks[position]? = some point) (hc : CarryingMove s point move)
    (htrack : ∀ request, move.effect ≠ .track request)
    (ht : t.tasks = (s.apply distributed position move).tasks) :
    (∀ request ∈ point.holds, HeldAt s t request) ∧
    ∀ (j : Nat) q, t.tasks[j]? = some q → s.tasks[j]? = some q ∨
      (q.putting = none ∧ ∀ request ∈ q.carries, HeldAt s t request) := by
  have hnext : move.next.putting = none := by
    cases hp : move.next.putting with
    | none => rfl
    | some request => exact absurd (hc.putting request hp) (htrack request)
  have hheld : ∀ request ∈ point.holds, HeldAt s t request := by
    refine fun request hr ↦ ⟨position, point, hpoint, hr, fun q hq ↦ ?_⟩
    rw [ht, apply_self hpoint] at hq
    exact Option.some.inj hq ▸ hnext
  refine ⟨hheld, fun j q hj ↦ ?_⟩
  rw [ht] at hj
  rcases task_of_apply hj with rfl | ⟨rfl, rfl⟩ | ⟨-, hold⟩ | ⟨-, hcreated⟩
  · exact .inr ⟨rfl, by simp [Task.carries]⟩
  · exact .inr ⟨hnext, fun request hr ↦ hheld request (hc.next request hr)⟩
  · exact .inl hold
  · obtain ⟨hnone, hcarried⟩ := hc.created q hcreated
    exact .inr ⟨hnone, fun request hr ↦
      hheld request (List.mem_append_right _ (hcarried request hr))⟩

/-- A move other than a track keeps the work ids, and what it releases it holds. -/
theorem ownership_move (htrack : ∀ request, effect ≠ .track request)
    (hfail : ∀ request, effect ≠ .fail request) :
    (s.perform distributed effect).ownership.workIds = s.ownership.workIds ∧
    (s.perform distributed effect).ownership.workSequence = s.ownership.workSequence ∧
    (s.perform distributed effect).ownership.pendingWorkIds ⊆ s.ownership.pendingWorkIds ∧
    ∀ workId ∈ s.ownership.pendingWorkIds,
      workId ∉ (s.perform distributed effect).ownership.pendingWorkIds →
      ∃ request, effect = .release request ∧ s.ownership.workId request = some workId := by
  cases effect with
  | track request => exact absurd rfl (htrack request)
  | fail request => exact absurd rfl (hfail request)
  | release request =>
    refine ⟨rfl, rfl, fun workId hm ↦ (Ownership.mem_release.mp hm).1, fun workId hm hgone ↦ ?_⟩
    refine ⟨request, rfl, ?_⟩
    by_contra hne
    exact hgone (Ownership.mem_release.mpr ⟨hm, hne⟩)
  | closeUrl url =>
    obtain ⟨_, _, he⟩ := closeUrl_eq s url
    rw [State.perform, he]
    exact ⟨rfl, rfl, fun _ ↦ id, fun _ hm hgone ↦ absurd hm hgone⟩
  | _ => exact ⟨rfl, rfl, fun _ ↦ id, fun _ hm hgone ↦ absurd hm hgone⟩

/-- Only a push adds to the queue. -/
theorem queue_of_perform (hpush : ∀ request, effect ≠ .push request) :
    (s.perform distributed effect).queue = s.queue := by
  cases effect with
  | push request => exact absurd rfl (hpush request)
  | closeUrl url =>
    obtain ⟨_, _, he⟩ := closeUrl_eq s url
    rw [State.perform, he]
  | _ => rfl

/-- Moves keep work ids exclusive when no id that is carried is accepted again. -/
theorem apply (h : Exclusive s) (hpoint : s.tasks[position]? = some point)
    (hc : CarryingMove s point move) (hs : Sole s point outcome)
    (hfail : ∀ request, move.effect ≠ .fail request) :
    Exclusive (s.apply distributed position move) := by
  by_cases htrack : ∃ request, move.effect = .track request
  · obtain ⟨request, he⟩ := htrack
    obtain ⟨hstop, hcreated, child, source, rfl, hnext⟩ := hc.track request he
    obtain ⟨workId, hw⟩ := s.ownership.workId_track request
    have hids : ∀ metaDict workId, s.ownership.workIds metaDict = some workId →
        (s.ownership.track request).workIds metaDict = some workId :=
      fun _ _ ↦ Ownership.workIds_track
    have hgrown := h.grow hids (h.known.track request) fun _ hm ↦ Ownership.mem_track.mpr (.inl hm)
    have halone : ¬ s.Carries workId := by
      intro hcarries
      rcases Ownership.of_workIds_track hw with hold | ⟨rfl, -⟩
      · exact hs hstop workId hold hcarries
      · exact absurd (h.le_of_carries hcarries) (by omega)
    have hput := hgrown.startPut move.next hpoint hw (Ownership.mem_track.mpr (.inr hw))
      (fun hcarries ↦ halone (h.carries_of_grow hids hcarries)) (by rw [hnext]; rfl)
      (by rw [hnext]; rfl)
    have happly : s.apply distributed position move = { s with
        ownership := s.ownership.track request
        tasks := s.tasks.set position move.next } := by
      simp [State.apply, he, hcreated, State.perform, advance, State.create]
    rw [happly]
    exact hput
  · have htrack : ∀ request, move.effect ≠ .track request :=
      fun request he ↦ htrack ⟨request, he⟩
    by_cases hpush : ∃ request, move.effect = .push request
    · obtain ⟨request, he⟩ := hpush
      obtain ⟨hputting, hcarried⟩ := hc.push request he
      have hpm : request ∈ point.holds := List.mem_append_left _ (by simp [hputting])
      have hmem : point ∈ s.tasks := List.mem_of_getElem? hpoint
      obtain ⟨workId, hw⟩ := h.tracked point hmem request hpm
      have hmoved := h.moves_on
        (t := { s with tasks := (s.apply distributed position move).tasks }) rfl rfl
        (fun _ ↦ id) (fun _ hm hn ↦ absurd hm hn) rfl rfl (heldAt_move hpoint hc htrack rfl).2
      have halone : ¬ State.Carries
          { s with tasks := (s.apply distributed position move).tasks } workId := by
        have hpoint_alone : ∀ other ∈ point.carries, s.ownership.workId other ≠ some workId :=
          fun other ho heq ↦ h.putting_alone position position point point request other hpoint
            hpoint hputting (List.mem_append_right _ ho) (fun _ ↦ ho) (heq.trans hw.symm)
        rintro (hm | ⟨task, ht, other, ho, hother⟩)
        · exact h.waiting_alone point hmem request hpm (hw ▸ hm)
        · obtain ⟨j, hj⟩ := List.getElem?_of_mem ht
          rcases task_of_apply hj with rfl | ⟨rfl, rfl⟩ | ⟨hne, hold⟩ | ⟨-, hcreated⟩
          · simp [Task.holds, Task.putting, Task.carries] at ho
          · have hnone : move.next.putting = none := by
              cases hp : move.next.putting with
              | none => rfl
              | some found => exact absurd (hc.putting found hp) (htrack found)
            exact hpoint_alone other (hcarried other (by simpa [Task.holds, hnone] using ho)) hother
          · exact h.putting_alone position j point task request other hpoint hold hputting ho
              (fun heq ↦ absurd heq hne) (hother.trans hw.symm)
          · obtain ⟨hnone, hsub⟩ := hc.created task hcreated
            exact hpoint_alone other (hsub other (by simpa [Task.holds, hnone] using ho)) hother
      have hqueued := hmoved.enqueue (if distributed then
        .bytes request.kind (s.ownership.workId request) else .object request)
        (by cases distributed <;> exact hw) (h.putting point hmem request hputting workId hw) halone
      have happly : s.apply distributed position move = { s with
          tasks := (s.apply distributed position move).tasks
          queue := s.queue ++ [if distributed then
            .bytes request.kind (s.ownership.workId request) else .object request] } := by
        simp [State.apply, he, State.perform]
      rw [happly]
      exact hqueued
    · obtain ⟨hid, hseq, hsub, hgone⟩ := ownership_move (s := s) htrack hfail
      obtain ⟨hheld, htasks⟩ := heldAt_move (t := s.apply distributed position move)
        hpoint hc htrack rfl
      refine h.moves_on hid hseq hsub (fun workId hm hn ↦ ?_)
        (queue_of_perform fun request he ↦ hpush ⟨request, he⟩) inHand_perform htasks
      obtain ⟨request, he, hw⟩ := hgone workId hm hn
      exact ⟨request, hheld request (List.mem_append_right _ (hc.release request he)), hw⟩

/-- The waiting ids in another order. -/
theorem reorder (h : Exclusive s) (hperm : t.waitingIds.Perm s.waitingIds)
    (ho : t.ownership = s.ownership) (ht : t.tasks = s.tasks) : Exclusive t := by
  constructor
  case known => exact ho ▸ h.known
  case waiting =>
    intro id hm
    rw [ho]
    exact h.waiting id (hperm.mem_iff.mp hm)
  case nodup => exact hperm.nodup_iff.mpr h.nodup
  case tracked =>
    rw [ht, ho]
    exact h.tracked
  case putting =>
    rw [ht, ho]
    exact h.putting
  case waiting_alone =>
    rw [ht, ho]
    exact fun task hmem request hr hm ↦ h.waiting_alone task hmem request hr (hperm.mem_iff.mp hm)
  case putting_alone =>
    rw [ht, ho]
    exact h.putting_alone

/-- `scheduler.get` gives the request the id under which it waited. -/
theorem get (h : Exclusive s) {metaDict : Nat}
    (hs : s.step distributed (.get position metaDict) = some t) : Exclusive t := by
  obtain ⟨request, o, queued, hqueued, hcase, rfl⟩ := get_spec hs
  have hmem : s.ownership.queuedId queued ∈ s.waitingIds :=
    List.mem_append_left _ (List.mem_map_of_mem (List.mem_of_getElem? hqueued))
  have hgrown : Exclusive { s with ownership := o } ∧
      o.queuedId queued = o.workId request := by
    rcases hcase with ⟨rfl, rfl⟩ | ⟨id, rfl, hnone, rfl⟩
    · exact ⟨h, rfl⟩
    · obtain ⟨workId, hp, rfl⟩ := h.waiting id hmem
      refine ⟨h.grow (fun _ _ hw ↦ Ownership.workIds_update hnone hw) ⟨fun other found hw ↦ ?_,
        h.known.pending⟩ (fun _ ↦ id), by simp [Ownership.queuedId, Ownership.workId]⟩
      rcases entry_of_insert hw with ⟨-, rfl⟩ | ⟨-, hw⟩
      · exact h.known.pending found hp
      · exact h.known.workIds other found hw
  refine hgrown.1.reorder ?_ rfl rfl
  have hperm := (erase_perm hqueued).map o.queuedId
  simp only [State.waitingIds, List.map_cons, ← hgrown.2]
  exact List.perm_middle.trans (hperm.append_right _)

/-- A task joins with requests that neither wait nor are being put. -/
theorem join (h : Exclusive s) (start : Option Task)
    (hstart : ∀ task, start = some task → task.putting = none ∧ ∀ request ∈ task.carries,
      (∃ workId, s.ownership.workId request = some workId) ∧
      s.ownership.workId request ∉ s.waitingIds ∧
      ∀ p ∈ s.tasks, ∀ other, p.putting = some other →
        s.ownership.workId request ≠ s.ownership.workId other) :
    Exclusive { s with tasks := s.tasks ++ start.toList } := by
  have htask : ∀ task ∈ s.tasks ++ start.toList, task ∈ s.tasks ∨ start = some task := by
    intro task ht
    exact (List.mem_append.mp ht).imp_right Option.mem_toList.mp
  have hholds : ∀ task, start = some task → ∀ request ∈ task.holds, request ∈ task.carries := by
    intro task ht request hr
    simpa [Task.holds, (hstart task ht).1] using hr
  refine { h with tracked := ?_, putting := ?_, waiting_alone := ?_, putting_alone := ?_ }
  · intro task ht request hr
    rcases htask task ht with ht | ht
    · exact h.tracked task ht request hr
    · exact ((hstart task ht).2 request (hholds task ht request hr)).1
  · intro task ht request hr
    rcases htask task ht with ht | ht
    · exact h.putting task ht request hr
    · cases (hstart task ht).1.symm.trans hr
  · intro task ht request hr
    rcases htask task ht with ht | ht
    · exact h.waiting_alone task ht request hr
    · exact ((hstart task ht).2 request (hholds task ht request hr)).2.1
  · intro i j p q request other hi hj hp hq hc
    rcases of_join hi with hi | ⟨-, hi⟩
    · rcases of_join hj with hj | ⟨-, hj⟩
      · exact h.putting_alone i j p q request other hi hj hp hq hc
      · exact ((hstart q hj).2 other (hholds q hj other hq)).2.2 p (List.mem_of_getElem? hi)
          request hp
    · cases (hstart p hi).1.symm.trans hp

/-- A request that a loop hands over no longer waits. -/
theorem dispatch (h : Exclusive s) (hs : s.step distributed (.dispatch position) = some t) :
    Exclusive t := by
  obtain ⟨delivery, hd, rfl⟩ := dispatch_spec hs
  have hperm : s.waitingIds.Perm (s.ownership.workId delivery.request ::
      State.waitingIds { s with inHand := s.inHand.eraseIdx position }) := by
    have := (erase_perm hd).symm.map fun delivery ↦ s.ownership.workId delivery.request
    exact (this.append_left _).trans List.perm_middle
  have hnodup := List.nodup_cons.mp (hperm.nodup_iff.mp h.nodup)
  have hleft : ∀ id ∈ State.waitingIds { s with inHand := s.inHand.eraseIdx position },
      id ∈ s.waitingIds := fun id hm ↦ hperm.mem_iff.mpr (List.mem_cons_of_mem _ hm)
  have htaken := hperm.mem_iff.mpr List.mem_cons_self
  have hless : Exclusive { s with inHand := s.inHand.eraseIdx position } :=
    { h with
      waiting := fun id hm ↦ h.waiting id (hleft id hm)
      nodup := hnodup.2
      waiting_alone := fun task ht request hr hm ↦
        h.waiting_alone task ht request hr (hleft _ hm) }
  refine hless.join _ fun task ht ↦ ?_
  cases of_create ht
  refine ⟨rfl, fun request hr ↦ ?_⟩
  obtain rfl := List.mem_singleton.mp hr
  refine ⟨?_, hnodup.1, fun p hp other ho heq ↦ ?_⟩
  · obtain ⟨workId, -, hw⟩ := h.waiting _ htaken
    exact ⟨workId, hw⟩
  · exact h.waiting_alone p hp other (List.mem_append_left _ (by simp [ho])) (heq ▸ htaken)

/-- Every step that takes no id twice keeps work ids exclusive. -/
theorem step (h : Exclusive s) {event : Event} (hg : onRun Sole s event)
    (hs : s.step distributed event = some t) (hraised : t.raised = false) : Exclusive t := by
  cases event with
  | run position outcome =>
    obtain ⟨point, move, hpoint, hmove, rfl⟩ := run_spec hs
    refine h.apply hpoint (carryingMove hmove) (hg point hpoint) fun request he ↦ ?_
    simp [State.apply, he, State.perform] at hraised
  | produce =>
    rw [produce_spec hs]
    refine h.join _ fun task ht ↦ ?_
    cases of_create ht
    exact ⟨rfl, by simp [Task.carries]⟩
  | get position metaDict => exact h.get hs
  | dispatch position => exact h.dispatch hs
  | waiter =>
    obtain ⟨_, rfl, _⟩ := waiter_spec hs
    exact h.reorder (.refl _) rfl rfl
  | copyMeta source target =>
    obtain ⟨hnone, rfl⟩ := copyMeta_spec hs
    refine h.grow (fun _ _ hw ↦ Ownership.workIds_update hnone hw)
      ⟨fun other found hw ↦ ?_, h.known.pending⟩ fun _ ↦ id
    rcases entry_of_update hw with ⟨-, hw⟩ | ⟨-, hw⟩
    · exact h.known.workIds source found hw
    · exact h.known.workIds other found hw
  | closeSession url =>
    simp only [State.step, if_neg (waiter_of_step hs), Option.some.injEq] at hs
    subst hs
    obtain ⟨tasks, connections, he⟩ := closeUrl_eq s url
    have htasks : ∀ (j : Nat) q, tasks[j]? = some q → q = .done ∨ s.tasks[j]? = some q := by
      intro j q hj
      have hclosed : (s.closeUrl url).tasks[j]? = some q := by rw [he]; exact hj
      exact task_of_closeUrl hclosed
    rw [he]
    refine h.moves_on rfl rfl (fun _ ↦ id) (fun _ hm hn ↦ absurd hm hn) rfl rfl fun j q hj ↦ ?_
    rcases htasks j q hj with rfl | hold
    · exact .inr ⟨rfl, by simp [Task.carries]⟩
    · exact .inl hold
  | producerEnds | stop =>
    simp only [State.step, if_neg (waiter_of_step hs)] at hs
    cases hs
    exact h.reorder (.refl _) rfl rfl

end Exclusive

/-! ### Live connections -/

/-- Every listener is the one that its open entry cancels, and a task awaits its end. -/
def Attached (s : State) : Prop :=
  ∀ (j : Nat) q entry, s.tasks[j]? = some q → q.listens = some entry →
    (s.connections.entries entry).listener = j ∧
    (s.connections.entries entry).closed = false ∧
    ∃ (k : Nat) (delivery : Delivery) (url : Nat),
      s.tasks[k]? = some (.doWebsocketConnect delivery url entry)

/-- `doWebsocketConnect` waits for its entry to close, a registration has an entry of its own,
and the task that closes an entry ends. -/
structure ConnectingMove (s : State) (point : Task) (move : Move) : Prop where
  waits : ∀ delivery url entry, point = .doWebsocketConnect delivery url entry →
    move.effect = .none ∧ (s.connections.entries entry).closed = true
  registers : ∀ url entry, move.effect = .register url entry →
    entry = s.connections.opened ∧ ∃ delivery,
      move.next = .doWebsocketConnect delivery url entry ∧
      move.created = some (.websocketConnecting delivery url entry)
  closes : ∀ entry, move.effect = .close entry → move.next = .done
  closesUrl : ∀ url, move.effect = .closeUrl url → point.managed = true

/-- A sole connection has no entry to reuse. -/
theorem Sole.pool {delivery : Delivery} {url : Nat} {websocketId : Option Nat}
    {sendMessage : Bool} (hg : Sole s (.processWebsocketRequest delivery) outcome)
    (hk : delivery.request.kind = .webSocket url websocketId sendMessage)
    (hstale : s.stale websocketId = false) (hsends : s.sends url websocketId sendMessage = false) :
    s.connections.pool url = none := by
  obtain ⟨⟨_, _⟩, _⟩ := delivery
  cases hk
  exact hg hstale hsends

/-- By inspection of every coroutine. -/
private theorem connectingMove_proceed (hg : Sole s point outcome)
    (h : point.proceed distributed s outcome = some move) : ConnectingMove s point move := by
  cases stretch_of_proceed h <;> constructor <;>
    first
    | exact fun _ _ ↦ rfl
    | (intro _ hother; cases hother; done)
    | (intro _ _ hother; cases hother; done)
    | (intro _ _ _ hother; cases hother; done)
    | skip
  case register.registers hkind hstale hsends =>
    rintro _ _ ⟨⟩
    exact ⟨by simp [hg.pool hkind hstale hsends], _, rfl, rfl⟩
  case doWebsocketConnect.waits hclosed =>
    rintro _ _ _ ⟨⟩
    exact ⟨rfl, hclosed⟩

/-- Every sole move that does not fail keeps to the rules of connections. -/
theorem connectingMove (hg : Sole s point outcome) (hok : ∀ request, move.effect ≠ .fail request)
    (h : point.move distributed s outcome = some move) : ConnectingMove s point move := by
  rcases move_cases h with h | ⟨handler, -, hh, rfl⟩ | h
  · exact connectingMove_proceed hg h
  · refine ⟨?_, by simp [Move.to], by simp [Move.to], by simp [Move.to]⟩
    rintro delivery url entry rfl
    cases hh
  · obtain ⟨-, -, ⟨request, -, -, -, he, -⟩ | ⟨he, -⟩⟩ := fail_spec h
    · exact absurd he (hok _)
    · exact absurd he (hok _)

namespace Attached

/-- A task that joins without listening. -/
theorem join (h : Attached s) (start : Option Task)
    (hs : ∀ task, start = some task → task.listens = none)
    (ht : t.tasks = s.tasks ++ start.toList) (hc : t.connections = s.connections) :
    Attached t := by
  intro j q entry hj he
  rw [ht] at hj
  rcases of_join hj with hj | ⟨-, hq⟩
  · obtain ⟨hl, hopen, k, delivery, url, hk⟩ := h j q entry hj he
    refine ⟨hc ▸ hl, hc ▸ hopen, k, delivery, url, ?_⟩
    rw [ht, List.getElem?_append_left (List.getElem?_eq_some_iff.mp hk).1]
    exact hk
  · cases (hs q hq).symm.trans he

/-- A listener that stays when another entry is closed. -/
theorem of_close {entry other : Nat} (h : Attached s) {j : Nat} {q : Task}
    (hj : (s.connections.cancel other s.tasks)[j]? = some q) (he : q.listens = some entry) :
    s.tasks[j]? = some q ∧ other ≠ entry := by
  have hold : s.tasks[j]? = some q := by
    rcases task_of_cancel hj with rfl | hj
    · cases he
    · exact hj
  refine ⟨hold, ?_⟩
  rintro rfl
  obtain ⟨hl, hopen, -⟩ := h j q other hold he
  rw [Connections.cancel, if_neg (by simp [hopen]), hl,
    List.getElem?_set_self (List.getElem?_eq_some_iff.mp hold).1] at hj
  cases hj
  cases he

/-- Closing an entry ends its listener. -/
theorem close (h : Attached s) (hw : Wired s) {other : Nat} (ho : other < s.connections.opened)
    (ht : t.tasks = s.connections.cancel other s.tasks)
    (hc : t.connections.entries = (s.connections.close other).entries) : Attached t := by
  intro j q entry hj he
  rw [ht] at hj
  obtain ⟨hold, hne⟩ := h.of_close hj he
  obtain ⟨hl, hopen, k, delivery, url, hk⟩ := h j q entry hold he
  have hentry : t.connections.entries entry = s.connections.entries entry := by
    rw [hc]
    exact Function.update_of_ne hne.symm ..
  refine ⟨hentry ▸ hl, hentry ▸ hopen, k, delivery, url, ?_⟩
  rw [ht]
  exact hw.cancel_managed ho hk rfl

/-- So does closing the entry of a URL. -/
theorem closeUrl (h : Attached s) (hw : Wired s) (url : Nat) : Attached (s.closeUrl url) := by
  cases hp : s.connections.pool url with
  | none =>
    rw [State.closeUrl, hp]
    exact h
  | some entry =>
    have ho := hw.connections.pool_opened url entry hp
    exact h.close hw ho (by simp [State.closeUrl, hp]) (by simp [State.closeUrl, hp])

/-- The effect of a move, before its task stands at its next point. -/
theorem perform (h : Attached s) (hw : Wired s) (hpoint : s.tasks[position]? = some point)
    (hl : ListenerMove s point move) (hm : ConnectingMove s point move) :
    Attached (s.perform distributed move.effect) := by
  cases he : move.effect with
  | close entry =>
    exact h.close hw (hw.listens_opened _ _ _ hpoint (hl.close entry he)) rfl rfl
  | closeUrl url => exact h.closeUrl hw url
  | register url entry =>
    obtain ⟨rfl, -⟩ := hm.registers url entry he
    intro j q other hj ho
    have hlt := hw.listens_opened j q other hj ho
    simp only [State.perform, Connections.register]
    rw [Function.update_of_ne (by omega)]
    exact h j q other hj ho
  | connect entry =>
    intro j q other hj ho
    simp only [State.perform, Connections.connect]
    by_cases hother : other = entry
    · subst hother
      rw [Function.update_self]
      exact h j q other hj ho
    · rw [Function.update_of_ne hother]
      exact h j q other hj ho
  | _ => exact h

/-- The task at `position` goes on and at most one task joins. -/
theorem advance (h : Attached s) {next : Task} {start : Option Task}
    (hlt : position < s.tasks.length)
    (hnext : ∀ entry, next.listens = some entry →
      ∃ q, s.tasks[position]? = some q ∧ q.listens = some entry)
    (hwaits : ∀ delivery url entry,
      s.tasks[position]? = some (.doWebsocketConnect delivery url entry) →
      (s.connections.entries entry).closed = true)
    (hstart : ∀ task entry, start = some task → task.listens = some entry →
      (s.connections.entries entry).listener = s.tasks.length ∧
      (s.connections.entries entry).closed = false ∧
      ∃ delivery url, next = .doWebsocketConnect delivery url entry) :
    Attached { s with tasks := Base.advance s.tasks position next start.toList } := by
  have hold : ∀ (j : Nat) q entry, s.tasks[j]? = some q → q.listens = some entry →
      (s.connections.entries entry).listener = j ∧
      (s.connections.entries entry).closed = false ∧
      ∃ (k : Nat) (delivery : Delivery) (url : Nat),
        (Base.advance s.tasks position next start.toList)[k]? =
          some (.doWebsocketConnect delivery url entry) := by
    intro j q entry hj he
    obtain ⟨hl, hopen, k, delivery, url, hk⟩ := h j q entry hj he
    have hne : k ≠ position := by
      rintro rfl
      simp [hwaits delivery url entry hk] at hopen
    exact ⟨hl, hopen, k, delivery, url, advance_of_ne hne hk⟩
  intro j q entry hj he
  rcases of_advance hj with ⟨rfl, rfl⟩ | ⟨-, hj⟩ | ⟨rfl, hs⟩
  · obtain ⟨q, hq, hqe⟩ := hnext entry he
    exact hold j q entry hq hqe
  · exact hold j q entry hj he
  · obtain ⟨hl, hopen, delivery, url, rfl⟩ := hstart q entry hs he
    exact ⟨hl, hopen, position, delivery, url, advance_self hlt⟩

/-- Moves that do not fail keep listeners attached. -/
theorem apply (h : Attached s) (hw : Wired s) (hpoint : s.tasks[position]? = some point)
    (hl : ListenerMove s point move) (hm : ConnectingMove s point move) :
    Attached (s.apply distributed position move) := by
  refine (h.perform hw hpoint hl hm).advance ?_ (fun entry he ↦ ?_)
    (fun delivery url entry hk ↦ ?_) fun task entry ht he ↦ ?_
  · rw [length_perform]
    exact (List.getElem?_eq_some_iff.mp hpoint).1
  · have hlistens := hl.next entry he
    refine ⟨point, ?_, hlistens⟩
    cases heffect : move.effect with
    | close other =>
      rw [hm.closes other heffect] at he
      cases he
    | closeUrl url =>
      have := hm.closesUrl url heffect
      simp [Task.managed, hlistens] at this
    | _ => exact hpoint
  · have hp : point = .doWebsocketConnect delivery url entry := by
      rcases task_of_perform hk with hd | hk
      · cases hd
      · exact Option.some.inj (hpoint.symm.trans hk)
    obtain ⟨he, hclosed⟩ := hm.waits delivery url entry hp
    rw [he]
    exact hclosed
  · obtain ⟨url, heffect⟩ := hl.created task (of_create ht) entry he
    obtain ⟨rfl, delivery, hnext, -⟩ := hm.registers url entry heffect
    rw [heffect, length_perform]
    refine ⟨?_, ?_, delivery, url, hnext⟩
    · simp [State.perform, Connections.register]
    · simpa [State.perform, Connections.register] using hw.connections.fresh _ (Nat.le_refl _)

/-- Every step keeps listeners attached while no managed task raises. -/
theorem step (h : Attached s) (hw : Wired s) {event : Event} (hg : onRun Sole s event)
    (hs : s.step distributed event = some t) (hraised : t.raised = false) : Attached t := by
  cases event with
  | run position outcome =>
    obtain ⟨point, move, hpoint, hmove, rfl⟩ := run_spec hs
    refine h.apply hw hpoint (listenerMove hmove)
      (connectingMove (hg point hpoint) (fun request he ↦ ?_) hmove)
    simp [State.apply, he, State.perform] at hraised
  | produce =>
    rw [produce_spec hs]
    exact h.join _ (fun task ht ↦ by cases of_create ht; rfl) rfl rfl
  | dispatch position =>
    obtain ⟨delivery, -, rfl⟩ := dispatch_spec hs
    exact h.join _ (fun task ht ↦ by cases of_create ht; rfl) rfl rfl
  | get position metaDict =>
    obtain ⟨_, _, _, _, _, rfl⟩ := get_spec hs
    exact h
  | waiter =>
    obtain ⟨_, rfl, _⟩ := waiter_spec hs
    exact h
  | copyMeta source target =>
    obtain ⟨_, rfl⟩ := copyMeta_spec hs
    exact h
  | closeSession url =>
    simp only [State.step, if_neg (waiter_of_step hs)] at hs
    cases hs
    exact h.closeUrl hw url
  | producerEnds | stop =>
    simp only [State.step, if_neg (waiter_of_step hs)] at hs
    cases hs
    exact h

end Attached

/-! ### The return of the waiter -/

/-- The invariant of the runs that take no id twice. -/
theorem exclusive_attached (h : (machine distributed).Reach (onRun Sole) s)
    (hraised : s.raised = false) : Exclusive s ∧ Attached s := by
  refine Machine.Reach.invariant (I := fun s ↦ s.raised = false → Exclusive s ∧ Attached s)
    (fun s hs _ ↦ ?_) (fun s event t hr ih hg hs hraised ↦ ?_) h hraised
  · subst hs
    refine ⟨⟨⟨?_, ?_⟩, ?_, ?_, ?_, ?_, ?_, ?_⟩, ?_⟩ <;>
      simp [State.start, State.waitingIds, Attached]
  · obtain ⟨he, ha⟩ := ih ((flags_of_step hs).2 hraised)
    exact ⟨he.step hg hs hraised, ha.step (wired hr) hg hs hraised⟩

/-- A move touches neither the waiter nor the producer. -/
theorem waiter_apply : (s.apply distributed position move).waiter = s.waiter ∧
    (s.apply distributed position move).producerDone = s.producerDone := by
  show (s.perform distributed move.effect).waiter = _ ∧
    (s.perform distributed move.effect).producerDone = _
  cases move.effect with
  | closeUrl url =>
    obtain ⟨_, _, he⟩ := closeUrl_eq s url
    rw [State.perform, he]
    exact ⟨rfl, rfl⟩
  | _ => exact ⟨rfl, rfl⟩

/-- Only the waiter moves itself, and the producer stays done. -/
theorem waiter_of_other {event : Event} (h : s.step distributed event = some t)
    (hne : event ≠ .waiter) :
    t.waiter = s.waiter ∧ (s.producerDone = true → t.producerDone = true) := by
  cases event with
  | run position outcome =>
    obtain ⟨point, move, -, -, rfl⟩ := run_spec h
    exact ⟨waiter_apply.1, waiter_apply.2.trans⟩
  | produce =>
    rw [produce_spec h]
    exact ⟨rfl, id⟩
  | get position metaDict =>
    obtain ⟨_, _, _, _, _, rfl⟩ := get_spec h
    exact ⟨rfl, id⟩
  | dispatch position =>
    obtain ⟨_, _, rfl⟩ := dispatch_spec h
    exact ⟨rfl, id⟩
  | waiter => exact absurd rfl hne
  | copyMeta source target =>
    obtain ⟨_, rfl⟩ := copyMeta_spec h
    exact ⟨rfl, id⟩
  | closeSession url =>
    simp only [State.step, if_neg (waiter_of_step h), Option.some.injEq] at h
    subst h
    obtain ⟨_, _, he⟩ := closeUrl_eq s url
    rw [he]
    exact ⟨rfl, id⟩
  | producerEnds | stop =>
    simp only [State.step, if_neg (waiter_of_step h)] at h
    cases h
    first | exact ⟨rfl, id⟩ | exact ⟨rfl, fun _ ↦ rfl⟩

/-- The waiter leaves its first point once the producer is done. -/
theorem producerDone_of_waiter {guard : State → Event → Prop}
    (h : (machine distributed).Reach guard s) (hw : s.waiter ≠ .producer) :
    s.producerDone = true := by
  refine Machine.Reach.invariant (I := fun s ↦ s.waiter ≠ .producer → s.producerDone = true)
    (fun s hs hw ↦ ?_) (fun s event t _ ih _ hs hw ↦ ?_) h hw
  · subst hs
    exact absurd rfl hw
  · replace hs : s.step distributed event = some t := hs
    by_cases hp : event = .waiter
    · subst hp
      obtain ⟨waiter, rfl, -, hdone, -⟩ := waiter_spec hs
      by_cases hs : s.waiter = .producer
      · exact hdone hs
      · exact ih hs
    · obtain ⟨hsame, hdone⟩ := waiter_of_other hs hp
      exact hdone (ih (hsame ▸ hw))

/-- With no work pending and no managed task nothing is left. -/
theorem Exclusive.finished (h : Exclusive s) (ha : Attached s)
    (hempty : s.ownership.pendingWorkIds = ∅) (htasks : ∀ task ∈ s.tasks, task.managed = false)
    (hdone : s.producerDone = true) : Finished s := by
  have hwaiting : s.waitingIds = [] := by
    refine List.eq_nil_iff_forall_not_mem.mpr fun id hm ↦ ?_
    obtain ⟨workId, hp, -⟩ := h.waiting id hm
    simp [hempty] at hp
  obtain ⟨hqueue, hhand⟩ := List.append_eq_nil_iff.mp hwaiting
  refine ⟨hdone, List.map_eq_nil_iff.mp hqueue, List.map_eq_nil_iff.mp hhand,
    fun task ht ↦ ?_⟩
  rcases unmanaged_iff.mp (htasks task ht) with hd | ⟨entry, he⟩
  · exact hd
  · obtain ⟨j, hj⟩ := List.getElem?_of_mem ht
    obtain ⟨-, -, k, delivery, url, hk⟩ := ha j task entry hj he
    cases htasks _ (List.mem_of_getElem? hk)

/-- A start request whose callback yields nothing. -/
def childless : List Event :=
  startCallback ++ [.run 5 .nothing, .run 5 .proceeds, .run 5 .proceeds, .waiter, .waiter, .waiter]

/-- The same request whose callback yields a child with `meta=response.meta`. -/
def sharedMeta : List Event :=
  startCallback ++ [.run 5 (.request ⟨.http, 1⟩), .run 5 .proceeds, .run 5 .proceeds,
    .run 5 .accepted, .run 5 .proceeds, .run 5 .nothing, .run 5 .proceeds, .run 5 .proceeds,
    .waiter, .waiter, .waiter]

end ScrapyCffi.Engine
