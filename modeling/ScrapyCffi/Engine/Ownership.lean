import ScrapyCffi.Engine.Runs

/-!
# No orphaned ownership

Each exit of the downloader and of the interceptor chains either hands the request over or
settles it, except four: `fetch_http` only logs a falsy raw response, a request that an
interceptor reschedules in place of the current one need not carry its work id, a
`WebSocketResponse` is never the answer that completes a request, and `process_downloader`
ignores a plain `Request`. In runs that do not take these exits every pending work id belongs
to a queued request or is carried by a live task.
-/

namespace ScrapyCffi.Engine

open ScrapyCffi.Base

variable {distributed : Bool} {s t : State} {position : Nat} {point found : Task}
  {outcome : Outcome} {move : Move} {effect : Effect} {workId : Nat}

/-- The request that is completed once the answer's output ends. -/
def Answer.settles (delivery : Delivery) : Answer → List Request
  | .response webSocket => if webSocket then [] else [delivery.request]
  | .exception => [delivery.request]

/-- The connection of a WebSocket request settles it, not its listener. -/
def Caller.settles (requests : List Request) : Caller → List Request
  | .task | .fetchHttp | .fetchHttpExcept => requests
  | .listener _ | .listenerExcept _ | .listenerOuterExcept _ => []

/-- The request that `get_spider_output` completes. -/
def outputSettles : Option Source → List Request
  | some source => source.answer.settles source.delivery
  | none => []

/-- The requests that a task will hand over or settle. -/
def Task.settles : Task → List Request
  | .getSpiderOutput source | .managerSpiderinterceptorsResult _ _ source
  | .processSpiderExceptionChain source | .processItems _ source | .putAccepted _ source =>
    outputSettles source
  | .enqueueRequest request _ source | .schedulerPut request _ source
  | .putRejected request source => request :: outputSettles source
  | .responseInterceptChain delivery answer caller
  | .processSpiderInputChain delivery answer caller | .processResponse delivery answer caller =>
    caller.settles (answer.settles delivery)
  | .exceptionInterceptChain delivery caller | .completeRequest delivery caller
  | .releaseRequest delivery caller => caller.settles [delivery.request]
  | .requestInterceptChain delivery | .processDownloader delivery | .fetchHttp delivery
  | .processWebsocketRequest delivery | .doWebsocketConnect delivery _ _ => [delivery.request]
  | .closeWebsocket delivery _ terminal => if terminal then [delivery.request] else []
  | .done | .websocketConnecting .. | .websocketListener .. | .websocketClosing _ => []

/-- The work id belongs to a request in the queue, in the hands of a scheduler loop, or in
those of a live task. -/
def Owned (s : State) (workId : Nat) : Prop :=
  (∃ queued ∈ s.queue, s.ownership.queuedId queued = some workId) ∨
  (∃ delivery ∈ s.inHand, s.ownership.workId delivery.request = some workId) ∨
  ∃ task ∈ s.tasks, ∃ request ∈ task.settles, s.ownership.workId request = some workId

instance (s : State) (workId : Nat) : Decidable (Owned s workId) :=
  inferInstanceAs (Decidable (_ ∨ _ ∨ _))

/-- The stretch takes none of the exits that forget a request: a rescheduled request has the
work id of the one it replaces, a `WebSocketResponse` answers no request that waits for a
response, a raw response is not falsy and a downloaded request is not a plain one. -/
def Keeps (s : State) (point : Task) (outcome : Outcome) : Prop :=
  match point, outcome with
  | .requestInterceptChain _, .request request | .responseInterceptChain .., .request request
  | .exceptionInterceptChain .., .request request =>
    ∀ held ∈ point.settles, s.ownership.workId request = s.ownership.workId held
  | .requestInterceptChain _, .response webSocket
  | .responseInterceptChain .., .response webSocket
  | .exceptionInterceptChain .., .response webSocket => webSocket = true → point.settles = []
  | .fetchHttp _, .nothing => False
  | .processDownloader delivery, .proceeds => delivery.request.kind ≠ .plain
  | _, _ => True

instance (s : State) (point : Task) (outcome : Outcome) :
    Decidable (Keeps s point outcome) := by
  apply Task.casesOn (motive := fun point ↦ Decidable (Keeps s point outcome)) point <;>
    intros <;> apply Outcome.casesOn (motive := fun outcome ↦ Decidable (Keeps s _ outcome)) outcome
      <;> intros <;> dsimp only [Keeps] <;> infer_instance

@[simp] theorem settles_resumeOutput (source : Option Source) :
    (resumeOutput source).settles = outputSettles source := by
  cases source <;> rfl

@[simp] theorem settles_resume (caller : Caller) (delivery : Delivery) :
    (caller.resume delivery).settles = [] := by
  cases caller <;> rfl

/-- An answer settles at most the request that it answers. -/
theorem mem_answer_settles {delivery : Delivery} {answer : Answer} {request : Request}
    (h : request ∈ answer.settles delivery) : request = delivery.request := by
  unfold Answer.settles at h
  split at h
  · split at h
    · cases h
    · exact List.mem_singleton.mp h
  · exact List.mem_singleton.mp h

/-- A caller settles at most what it is given. -/
theorem mem_caller_settles {caller : Caller} {requests : List Request} {request : Request}
    (h : request ∈ caller.settles requests) : request ∈ requests := by
  cases caller <;> first | exact h | cases h

/-- An exception in place of an answer settles what the answer would have settled. -/
theorem settles_exception {caller : Caller} {answer : Answer} {delivery : Delivery}
    {request : Request} (h : request ∈ caller.settles (answer.settles delivery)) :
    request ∈ caller.settles [delivery.request] := by
  have := mem_answer_settles (mem_caller_settles h)
  subst this
  cases caller <;> first | exact List.mem_singleton_self _ | cases h

/-- What a move does with the requests that its task settles. -/
structure KeepingMove (s : State) (point : Task) (move : Move) : Prop where
  kept : ∀ request ∈ point.settles,
    (∃ next ∈ move.next.settles, s.ownership.workId next = s.ownership.workId request) ∨
    (∃ task, move.created = some task ∧
      ∃ next ∈ task.settles, s.ownership.workId next = s.ownership.workId request) ∨
    move.effect = .push request ∨ move.effect = .release request ∨
    ∃ failed, move.effect = .fail failed
  tracked : ∀ request, move.effect = .track request → request ∈ move.next.settles

/-- By inspection of every coroutine. -/
private theorem keepingMove_proceed (h : point.proceed distributed s outcome = some move)
    (hstop : s.stopEvent = false) (hk : Keeps s point outcome) : KeepingMove s point move := by
  cases stretch_of_proceed h <;> constructor <;>
    first
    | exact fun request hr ↦ .inl ⟨request, hr, rfl⟩
    | (intro _ hother; cases hother; done)
    | (rintro _ ⟨⟩; exact List.mem_cons_self)
    | exact fun request hr ↦ .inl ⟨request, (settles_resumeOutput _).symm ▸ hr, rfl⟩
    | exact fun request hr ↦ .inr (.inl ⟨_, rfl, request, hr, rfl⟩)
    -- the request of an interceptor stands for the one that it replaces
    | exact fun request hr ↦ .inr (.inl ⟨_, rfl, _, List.mem_cons_self, hk request hr⟩)
    | exact fun request hr ↦ .inl ⟨request, settles_exception hr, rfl⟩
    | skip
  case outputEnds.kept =>
    exact fun request hr ↦ .inl ⟨request, List.mem_singleton.mpr (mem_answer_settles hr), rfl⟩
  case boundary.kept =>
    exact fun request hr ↦ .inl ⟨request, List.mem_cons_of_mem _ hr, rfl⟩
  case enqueueStopped.kept hset => cases hset.symm.trans hstop
  case putAccepts.kept =>
    intro request hr
    rcases List.mem_cons.mp hr with rfl | hr
    · exact .inr (.inr (.inl rfl))
    · exact .inl ⟨request, hr, rfl⟩
  case putRejected.kept =>
    intro request hr
    rcases List.mem_cons.mp hr with rfl | hr
    · exact .inr (.inr (.inr (.inl rfl)))
    · exact .inl ⟨request, (settles_resumeOutput _).symm ▸ hr, rfl⟩
  case requestResponse.kept webSocket =>
    intro request hr
    cases webSocket with
    | false => exact .inr (.inl ⟨_, rfl, request, hr, rfl⟩)
    | true => cases hk rfl ▸ hr
  case responseResponse.kept webSocket =>
    intro request hr
    cases webSocket with
    | false => exact .inl ⟨request, settles_exception hr, rfl⟩
    | true => cases hk rfl ▸ hr
  case exceptionResponse.kept webSocket =>
    intro request hr
    cases webSocket with
    | false => exact .inr (.inl ⟨_, rfl, request, mem_caller_settles hr, rfl⟩)
    | true => cases hk rfl ▸ hr
  case processResponse.kept =>
    exact fun request hr ↦ .inr (.inl ⟨_, rfl, request, mem_caller_settles hr, rfl⟩)
  case downloadPlain.kept hkind => exact absurd hkind hk
  case fetchNothing.kept => exact hk.elim
  -- the two calls of `release`
  all_goals
    intro request hr
    have hrequest := List.mem_singleton.mp (mem_caller_settles hr)
    exact .inr (.inr (.inr (.inl (congrArg Effect.release hrequest.symm))))

/-- A handler settles what its task would have settled. -/
theorem settles_handler {handler : Task} (h : point.handler = some handler) {request : Request}
    (hr : request ∈ point.settles) : request ∈ handler.settles := by
  have hcaller : ∀ (delivery : Delivery) (caller : Caller),
      caller.handler delivery = some handler → request ∈ caller.settles [delivery.request] →
      request ∈ handler.settles := by
    intro delivery caller hc hm
    cases caller with
    | fetchHttp =>
      cases hc
      exact hm
    | task | fetchHttpExcept => cases hc
    | listener | listenerExcept | listenerOuterExcept => cases hm
  cases point <;> first
    | cases h
    | exact hcaller _ _ h (settles_exception hr)
    | exact hcaller _ _ h hr

/-- Moves that take none of the forgetting exits keep what they settle. -/
theorem keepingMove (h : point.move distributed s outcome = some move)
    (hstop : s.stopEvent = false) (hk : Keeps s point outcome) : KeepingMove s point move := by
  rcases move_cases h with h | ⟨handler, -, hh, rfl⟩ | h
  · exact keepingMove_proceed h hstop hk
  · exact ⟨fun request hr ↦ .inl ⟨request, settles_handler hh hr, rfl⟩, by simp [Move.to]⟩
  · obtain ⟨failed, he⟩ : ∃ failed, move.effect = .fail failed := by
      rcases (fail_spec h).2.2 with ⟨request, _, _, _, he, _⟩ | ⟨he, _⟩
      · exact ⟨some request, he⟩
      · exact ⟨none, he⟩
    exact ⟨fun _ _ ↦ .inr (.inr (.inr (.inr ⟨failed, he⟩))), by simp [he]⟩

/-- A task that settles a request is managed. -/
theorem managed_of_settles {request : Request} (h : request ∈ point.settles) :
    point.managed = true := by
  have hcaller : ∀ (caller : Caller) (requests : List Request),
      request ∈ caller.settles requests → caller.entry = none := by
    intro caller requests hc
    cases caller <;> first | rfl | cases hc
  cases point with
  | responseInterceptChain delivery answer caller
  | processSpiderInputChain delivery answer caller | processResponse delivery answer caller
  | exceptionInterceptChain delivery caller | completeRequest delivery caller
  | releaseRequest delivery caller => simp [Task.managed, Task.listens, hcaller caller _ h]
  | done | websocketConnecting | websocketListener | websocketClosing => cases h
  | _ => rfl

/-! ### Ownership over a run -/

/-- Effects keep the work ids that dictionaries hold. -/
theorem workIds_perform {metaDict : Nat} (h : s.ownership.workIds metaDict = some workId) :
    (s.perform distributed effect).ownership.workIds metaDict = some workId := by
  cases effect with
  | track request => exact Ownership.workIds_track h
  | closeUrl url =>
    obtain ⟨_, _, he⟩ := closeUrl_eq s url
    rw [State.perform, he]
    exact h
  | fail request => cases request <;> exact h
  | _ => exact h

/-- A pending work id was pending and is not released, or is that of a tracked request. -/
theorem pending_perform
    (h : workId ∈ (s.perform distributed effect).ownership.pendingWorkIds) :
    (workId ∈ s.ownership.pendingWorkIds ∧
      ∀ request, effect = .release request → s.ownership.workId request ≠ some workId) ∨
    ∃ request, effect = .track request ∧
      (s.perform distributed effect).ownership.workId request = some workId := by
  cases effect with
  | track request =>
    rcases Ownership.mem_track.mp h with h | h
    · exact .inl ⟨h, by simp⟩
    · exact .inr ⟨request, rfl, h⟩
  | release request =>
    obtain ⟨hmem, hne⟩ := Ownership.mem_release.mp h
    exact .inl ⟨hmem, fun other ho ↦ Effect.release.inj ho ▸ hne⟩
  | closeUrl url =>
    obtain ⟨_, _, he⟩ := closeUrl_eq s url
    rw [State.perform, he] at h
    exact .inl ⟨h, by simp⟩
  | fail request =>
    refine .inl ⟨?_, by simp⟩
    cases request with
    | none => exact h
    | some request => exact (Ownership.mem_release.mp h).1
  | _ => exact .inl ⟨h, by simp⟩

/-- Effects take nothing out of the queue. -/
theorem queue_perform {queued : Queued} (h : queued ∈ s.queue) :
    queued ∈ (s.perform distributed effect).queue := by
  cases effect with
  | push request => exact List.mem_append_left _ h
  | closeUrl url =>
    obtain ⟨_, _, he⟩ := closeUrl_eq s url
    rw [State.perform, he]
    exact h
  | _ => exact h

/-- A queued request keeps its work id. -/
theorem queuedId_mono {o o' : Ownership} {queued : Queued}
    (hid : ∀ metaDict, o.workIds metaDict = some workId → o'.workIds metaDict = some workId)
    (h : o.queuedId queued = some workId) : o'.queuedId queued = some workId := by
  cases queued with
  | object request => exact hid _ h
  | bytes kind found => exact h

/-- The queued copy of a request has its work id. -/
theorem queuedId_push (distributed : Bool) {request : Request} (h : s.ownership.workId request = some workId) :
    ∃ queued ∈ (s.perform distributed (.push request)).queue,
      s.ownership.queuedId queued = some workId := by
  refine ⟨_, List.mem_append_right _ (List.mem_singleton_self _), ?_⟩
  cases distributed <;> exact h

/-- Every pending work id is owned. -/
def AllOwned (s : State) : Prop := ∀ workId ∈ s.ownership.pendingWorkIds, Owned s workId

/-- A move that keeps what its task settles orphans no work id. -/
theorem AllOwned.apply (ho : AllOwned s) (hw : Wired s) (hpoint : s.tasks[position]? = some point)
    (hl : ListenerMove s point move) (hk : KeepingMove s point move)
    (hstop : s.stopEvent = false)
    (hraised : (s.apply distributed position move).raised = false) :
    AllOwned (s.apply distributed position move) := by
  intro workId hx
  rcases pending_perform hx with ⟨hx, hrelease⟩ | ⟨request, he, hid⟩
  · rcases ho workId hx with ⟨queued, hq, hid⟩ | ⟨delivery, hd, hid⟩ | ⟨task, ht, request, hr, hid⟩
    · exact .inl ⟨queued, queue_perform hq, queuedId_mono (fun _ ↦ workIds_perform) hid⟩
    · refine .inr (.inl ⟨delivery, ?_, workIds_perform hid⟩)
      exact inHand_perform (s := s) ▸ hd
    · obtain ⟨j, hj⟩ := List.getElem?_of_mem ht
      by_cases hne : j = position
      · subst hne
        obtain rfl := Option.some.inj (hpoint.symm.trans hj)
        rcases hk.kept request hr with ⟨next, hn, heq⟩ | ⟨created, hc, next, hn, heq⟩ | hpush |
          hreleased | ⟨failed, hfail⟩
        · exact .inr (.inr ⟨_, List.mem_of_getElem? (apply_self hpoint), next, hn,
            workIds_perform (heq.trans hid)⟩)
        · exact .inr (.inr ⟨created, mem_apply_created hc hstop, next, hn,
            workIds_perform (heq.trans hid)⟩)
        · obtain ⟨queued, hq, hqid⟩ := queuedId_push distributed hid
          refine .inl ⟨queued, ?_, queuedId_mono (fun _ ↦ workIds_perform) hqid⟩
          rw [← hpush] at hq
          exact hq
        · exact absurd hid (hrelease request hreleased)
        · rw [State.apply, hfail] at hraised
          cases hraised
      · exact .inr (.inr ⟨task, List.mem_of_getElem?
          (hw.apply_managed hpoint hl hne hj (managed_of_settles hr)), request, hr,
          workIds_perform hid⟩)
  · exact .inr (.inr ⟨_, List.mem_of_getElem? (apply_self hpoint), request, hk.tracked request he,
      hid⟩)

/-- Ownership grows with the queue, the loops, the tasks and the dictionaries. -/
theorem Owned.mono (h : Owned s workId)
    (hid : ∀ metaDict, s.ownership.workIds metaDict = some workId →
      t.ownership.workIds metaDict = some workId)
    (hq : ∀ queued ∈ s.queue, s.ownership.queuedId queued = some workId →
      queued ∈ t.queue ∨ Owned t workId)
    (hi : ∀ delivery ∈ s.inHand, s.ownership.workId delivery.request = some workId →
      delivery ∈ t.inHand ∨ Owned t workId)
    (ht : ∀ task ∈ s.tasks, task.managed = true → task ∈ t.tasks) : Owned t workId := by
  rcases h with ⟨queued, hmem, hx⟩ | ⟨delivery, hmem, hx⟩ | ⟨task, hmem, request, hr, hx⟩
  · exact (hq queued hmem hx).elim
      (fun hmem ↦ .inl ⟨queued, hmem, queuedId_mono hid hx⟩) id
  · exact (hi delivery hmem hx).elim (fun hmem ↦ .inr (.inl ⟨delivery, hmem, hid _ hx⟩)) id
  · exact .inr (.inr ⟨task, ht task hmem (managed_of_settles hr), request, hr, hid _ hx⟩)

/-- Every step that takes none of the forgetting exits keeps every work id owned. -/
theorem AllOwned.step {event : Event} (ho : AllOwned s) (hw : Wired s)
    (hg : onRun Keeps s event) (h : s.step distributed event = some t)
    (hstop : t.stopEvent = false) (hraised : t.raised = false) : AllOwned t := by
  cases event with
  | run position outcome =>
    obtain ⟨point, move, hpoint, hmove, rfl⟩ := run_spec h
    have hstop : s.stopEvent = false := stopEvent_apply (s := s) ▸ hstop
    exact ho.apply hw hpoint (listenerMove hmove)
      (keepingMove hmove hstop (hg point hpoint)) hstop hraised
  | produce =>
    rw [produce_spec h]
    exact fun workId hx ↦ (ho workId hx).mono (fun _ ↦ id) (fun _ hq _ ↦ .inl hq)
      (fun _ hi _ ↦ .inl hi) fun _ ht _ ↦ List.mem_append_left _ ht
  | get position metaDict =>
    obtain ⟨request, ownership, queued, hqueued, hcase, rfl⟩ := get_spec h
    intro workId hmem
    have hpending : ownership.pendingWorkIds = s.ownership.pendingWorkIds := by
      rcases hcase with ⟨-, rfl⟩ | ⟨_, -, -, rfl⟩ <;> rfl
    refine (ho workId (hpending ▸ hmem)).mono (fun metaDict hm ↦ ?_) (fun other hq hx ↦ ?_)
      (fun _ hi _ ↦ .inl (List.mem_cons_of_mem _ hi)) fun _ ht _ ↦ ht
    · rcases hcase with ⟨-, rfl⟩ | ⟨_, -, hnone, rfl⟩
      · exact hm
      · exact Ownership.workIds_update hnone hm
    · rcases List.mem_cons.mp ((erase_perm hqueued).mem_iff.mpr hq) with rfl | hq
      · refine .inr (.inr (.inl ⟨_, List.mem_cons_self, ?_⟩))
        rcases hcase with ⟨rfl, rfl⟩ | ⟨found, rfl, -, rfl⟩
        · exact hx
        · exact (Function.update_self ..).trans hx
      · exact .inl hq
  | dispatch position =>
    obtain ⟨delivery, hd, rfl⟩ := dispatch_spec h
    intro workId hmem
    refine (ho workId hmem).mono (fun _ ↦ id) (fun _ hq _ ↦ .inl hq) (fun other hi hx ↦ ?_)
      fun _ ht _ ↦ List.mem_append_left _ ht
    rcases List.mem_cons.mp ((erase_perm hd).mem_iff.mpr hi) with rfl | hi
    · refine .inr (.inr (.inr ⟨.requestInterceptChain other, ?_, _, List.mem_singleton_self _, hx⟩))
      exact List.mem_append_right _ (by simp [create_of_running (s := s) hstop])
    · exact .inl hi
  | waiter =>
    obtain ⟨_, rfl, _⟩ := waiter_spec h
    exact ho
  | copyMeta source target =>
    obtain ⟨hnone, rfl⟩ := copyMeta_spec h
    intro workId hx
    refine (ho workId hx).mono (fun metaDict hm ↦ ?_) (fun _ hq _ ↦ .inl hq)
      (fun _ hi _ ↦ .inl hi) fun _ ht _ ↦ ht
    exact Ownership.workIds_update hnone hm
  | closeSession url =>
    simp only [State.step, if_neg (waiter_of_step h), Option.some.injEq] at h
    subst h
    obtain ⟨tasks, connections, he⟩ := closeUrl_eq s url
    intro workId hx
    have htasks : ∀ task ∈ s.tasks, task.managed = true → task ∈ (s.closeUrl url).tasks := by
      intro task ht hm
      obtain ⟨j, hj⟩ := List.getElem?_of_mem ht
      exact List.mem_of_getElem? (hw.closeUrl_managed hj hm)
    rw [he] at hx htasks ⊢
    exact (ho workId hx).mono (fun _ ↦ id) (fun _ hq _ ↦ .inl hq) (fun _ hi _ ↦ .inl hi) htasks
  | producerEnds | stop =>
    simp only [State.step, if_neg (waiter_of_step h)] at h
    cases h
    exact ho

/-- In runs without the forgetting exits every pending work id is owned. -/
theorem allOwned (h : (machine distributed).Reach (onRun Keeps) s) (hstop : s.stopEvent = false)
    (hraised : s.raised = false) : AllOwned s := by
  refine Machine.Reach.invariant (I := fun s ↦ s.stopEvent = false → s.raised = false → AllOwned s)
    (fun s hs _ _ ↦ ?_) (fun s event t hr ho hg hs hstop hraised ↦ ?_) h hstop hraised
  · subst hs
    exact fun _ hx ↦ absurd hx (Finset.notMem_empty _)
  · obtain ⟨hstopped, hfailed⟩ := flags_of_step hs
    exact (ho (hstopped hstop) (hfailed hraised)).step (wired hr) hg hs hstop hraised

/-- Once no work is pending and no managed task is live, only the producer is waited for. -/
theorem waiter_returns (hidle : s.ownership.workIdle = true)
    (htasks : ∀ task ∈ s.tasks, task.managed = false) (hdone : s.producerDone = true) :
    ∃ events t, (machine distributed).run s events = some t ∧ t.waiter = .returned := by
  have hall : (s.tasks.all fun point ↦ !point.managed) = true := by simpa using htasks
  have hreturned : (machine distributed).run { s with waiter := .quiescent } [.waiter] =
      some { s with waiter := .returned } := by
    simp [Machine.run, machine, State.step, State.wait, hall, hidle]
  have hquiescent : (machine distributed).step { s with waiter := .idle } .waiter =
      some { s with waiter := .quiescent } := by
    simp [machine, State.step, State.wait, hidle]
  have hwaiting : (machine distributed).step { s with waiter := .producer } .waiter =
      some { s with waiter := .idle } := by
    simp [machine, State.step, State.wait, hdone]
  have hall : ∀ waiter, ∃ events t,
      (machine distributed).run { s with waiter } events = some t ∧ t.waiter = .returned := by
    intro waiter
    cases waiter with
    | returned => exact ⟨[], _, rfl, rfl⟩
    | quiescent => exact ⟨[.waiter], _, hreturned, rfl⟩
    | idle =>
      refine ⟨[.waiter, .waiter], { s with waiter := .returned }, ?_, rfl⟩
      rw [Machine.run_cons, hquiescent]
      exact hreturned
    | producer =>
      refine ⟨[.waiter, .waiter, .waiter], { s with waiter := .returned }, ?_, rfl⟩
      rw [Machine.run_cons, hwaiting, Option.bind_some, Machine.run_cons, hquiescent]
      exact hreturned
  exact hall s.waiter

end ScrapyCffi.Engine
