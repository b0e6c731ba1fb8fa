import ScrapyCffi.Engine.Runs

/-!
# Acknowledgement after children

`get_spider_output` handles the outputs of a source request one after the other, with
`wait_for_boundary`, before it calls `_complete_request`. Some routes leave that order: the
exception chain calls the manager without `wait_for_boundary`, the callbacks of WebSocket
messages and errors run in tasks of their own while `do_websocket_connect` completes the
request, and `enqueue_request` drops the child once the stop event is set. In runs that take
none of these routes no child is lost by a crash after the acknowledgement.
-/

namespace ScrapyCffi.Engine

open ScrapyCffi.Base

variable {distributed : Bool} {s t : State} {position : Nat} {point found : Task}
  {outcome : Outcome} {move : Move} {effect : Effect} {serial : Nat}

/-- The delivery on which a chain of the caller works; a listener leaves it to
`do_websocket_connect`. -/
def Caller.works (delivery : Delivery) : Caller → Option Nat
  | .task | .fetchHttp | .fetchHttpExcept => some delivery.serial
  | .listener _ | .listenerExcept _ | .listenerOuterExcept _ => none

/-- The delivery of a sourced output. -/
def outputWorks (source : Option Source) : Option Nat :=
  source.map fun source ↦ source.delivery.serial

/-- The delivery that the task may acknowledge or produce children for. -/
def Task.works : Task → Option Nat
  | .getSpiderOutput source | .managerSpiderinterceptorsResult _ _ source
  | .processSpiderExceptionChain source | .processItems _ source | .enqueueRequest _ _ source
  | .schedulerPut _ _ source | .putAccepted _ source | .putRejected _ source =>
    outputWorks source
  | .requestInterceptChain delivery | .processDownloader delivery | .fetchHttp delivery
  | .processWebsocketRequest delivery | .doWebsocketConnect delivery _ _
  | .closeWebsocket delivery _ _ => some delivery.serial
  | .responseInterceptChain delivery _ caller | .exceptionInterceptChain delivery caller
  | .processSpiderInputChain delivery _ caller | .processResponse delivery _ caller
  | .completeRequest delivery caller => caller.works delivery
  | .releaseRequest .. | .websocketConnecting .. | .websocketListener .. | .websocketClosing _
  | .done => none

/-- The child that the task brings to its boundary. -/
def Task.child : Task → Option Child
  | .managerSpiderinterceptorsResult (.reschedule _ child) _ _
  | .managerSpiderinterceptorsResult (.pipeline child) _ _ | .processItems child _
  | .enqueueRequest _ child _ | .schedulerPut _ child _ | .putAccepted child _ => child
  | _ => none

/-- The outputs of the source are awaited: no route that leaves their order is taken. -/
def Awaited (s : State) (point : Task) (outcome : Outcome) : Prop :=
  match point, outcome with
  | .processSpiderExceptionChain (some _), .request _ => False
  | .enqueueRequest _ (some _) _, .proceeds => s.stopEvent = false
  | .processResponse _ _ caller, .proceeds | .processResponse _ _ caller, .nothing =>
    caller.entry = none
  | .exceptionInterceptChain _ caller, .response _ => caller.entry = none
  | .processWebsocketRequest _, .exception => False
  | .releaseRequest _ .fetchHttp, .raises => False
  | _, _ => True

instance (s : State) (point : Task) (outcome : Outcome) :
    Decidable (Awaited s point outcome) := by
  unfold Awaited
  split <;> infer_instance

/-- Every child of an acknowledged request has crossed its boundary. -/
def State.ChildrenCrossed (s : State) : Prop :=
  ∀ serial ∈ s.acknowledged, ∀ child ∈ s.produced, child.source = serial → child ∈ s.crossed

instance (s : State) : Decidable s.ChildrenCrossed :=
  inferInstanceAs (Decidable (∀ serial ∈ s.acknowledged, ∀ child ∈ s.produced, _ → _))

/-- The task knows the delivery of its child, and leaves no child to a detached task. -/
def Task.Bound (task : Task) : Prop :=
  (∀ child, task.child = some child → task.works = some child.source) ∧
  match task with
  | .managerSpiderinterceptorsResult (.reschedule _ child) false _ => child = none
  | .completeRequest _ caller => caller.entry = none
  | _ => True

@[simp] theorem works_resumeOutput (source : Option Source) :
    (resumeOutput source).works = outputWorks source := by
  cases source <;> rfl

@[simp] theorem child_resumeOutput (source : Option Source) :
    (resumeOutput source).child = none := by
  cases source <;> rfl

@[simp] theorem works_resume (caller : Caller) (delivery : Delivery) :
    (caller.resume delivery).works = none := by
  cases caller <;> rfl

@[simp] theorem child_resume (caller : Caller) (delivery : Delivery) :
    (caller.resume delivery).child = none := by
  cases caller <;> rfl

@[simp] theorem bound_resumeOutput (source : Option Source) : (resumeOutput source).Bound := by
  cases source <;> exact ⟨by simp [resumeOutput, Task.child], trivial⟩

@[simp] theorem bound_resume (caller : Caller) (delivery : Delivery) :
    (caller.resume delivery).Bound := by
  cases caller <;> exact ⟨by simp [Caller.resume, Task.child], trivial⟩

@[simp] theorem outputWorks_none : outputWorks none = none := rfl

@[simp] theorem outputWorks_some (source : Source) :
    outputWorks (some source) = some source.delivery.serial := rfl

@[simp] theorem entry_task : Caller.task.entry = none := rfl

/-- A sourced output records the delivery of its source. -/
theorem works_child {source : Option Source} {child : Child} (h : s.child source = some child) :
    outputWorks source = some child.source := by
  obtain ⟨source, rfl, rfl⟩ := Option.map_eq_some_iff.mp h
  rfl

@[simp] theorem child_none : s.child none = none := rfl

/-- An awaited child reaches `scheduler.put`. -/
theorem Awaited.running {request : Request} {child : Child} {source : Option Source}
    (h : Awaited s (.enqueueRequest request (some child) source) .proceeds) :
    s.stopEvent = false := h

/-- The exception chain of an awaited output gives no request. -/
theorem Awaited.unsourced {request : Request} {source : Option Source}
    (h : Awaited s (.processSpiderExceptionChain source) (.request request)) : source = none := by
  cases source with
  | none => rfl
  | some => exact h.elim

@[simp] theorem works_task (delivery : Delivery) :
    Caller.works delivery .task = some delivery.serial := rfl

@[simp] theorem works_fetchHttp (delivery : Delivery) :
    Caller.works delivery .fetchHttp = some delivery.serial := rfl

@[simp] theorem works_fetchHttpExcept (delivery : Delivery) :
    Caller.works delivery .fetchHttpExcept = some delivery.serial := rfl

/-- Only a caller that does not listen works on the delivery. -/
theorem caller_works {caller : Caller} {delivery : Delivery} (h : caller.entry = none) :
    caller.works delivery = some delivery.serial := by
  cases caller <;> first | rfl | cases h

/-- A move passes the delivery of its task to at most one task. -/
structure WorkingMove (point : Task) (move : Move) : Prop where
  next : ∀ serial, move.next.works = some serial → point.works = some serial
  created : ∀ task, move.created = some task → ∀ serial, task.works = some serial →
    point.works = some serial ∧ move.next.works = none ∧ point.child = none
  acknowledge : ∀ serial, move.effect = .acknowledge serial → point.works = some serial ∧
    point.child = none ∧ move.next.works = none ∧ move.created = none

/-- By inspection of every stretch: what it creates works on the delivery only when an answer or an
output is handed over in order. -/
private theorem workingMove_proceed (hg : Awaited s point outcome) (hb : point.Bound)
    (h : point.proceed distributed s outcome = some move) : WorkingMove point move := by
  cases stretch_of_proceed h <;> constructor <;>
    first
    | exact fun _ hserial ↦ hserial
    | (intro _ hother; cases hother; done)
    | exact fun _ hserial ↦ (works_resumeOutput _).symm.trans hserial
    | (intro _ hserial; cases (works_resume _ _).symm.trans hserial)
    | (rintro _ ⟨⟩ _ hserial; cases hserial; done)
    | (rintro _ ⟨⟩ _ hserial; exact ⟨hserial, rfl, rfl⟩)
    | (rintro _ ⟨⟩; exact ⟨caller_works hb.2, rfl, rfl, rfl⟩)
    | skip
  case exceptionResponse.created =>
    rintro _ ⟨⟩ _ hserial
    exact ⟨(caller_works hg).trans hserial, works_resume _ _, rfl⟩
  case processResponse.created =>
    rintro _ ⟨⟩ _ hserial
    exact ⟨(caller_works hg).trans hserial, works_resume _ _, rfl⟩
  case registerException.created => exact hg.elim

/-- A move hands the child of its task on, brings it over its boundary or gives the delivery
up. -/
structure ChildMove (point : Task) (move : Move) : Prop where
  child : ∀ child, point.child = some child → move.next.works = none ∨
    move.next.child = some child ∨ move.effect = .cross (some child)
  produce : ∀ child, move.effect = .produce (some child) →
    move.created = none ∧ move.next.child = some child

/-- By inspection of every stretch. -/
private theorem childMove_proceed (hg : Awaited s point outcome) (hb : point.Bound)
    (h : point.proceed distributed s outcome = some move) : ChildMove point move := by
  cases stretch_of_proceed h <;> constructor <;>
    first
    | exact fun _ hchild ↦ .inr (.inl hchild)
    | (intro _ hother; cases hother; done)
    | exact fun _ hchild ↦ .inr (.inr (congrArg Effect.cross hchild))
    | exact fun _ hproduce ↦ ⟨rfl, Effect.produce.inj hproduce⟩
    | skip
  case detached.child =>
    intro child hchild
    cases hb.2.symm.trans hchild
  case enqueueStopped.child hstop =>
    rintro child rfl
    cases hstop.symm.trans hg.running

/-- By inspection of every stretch. -/
private theorem bound_proceed (hg : Awaited s point outcome) (hb : point.Bound)
    (h : point.proceed distributed s outcome = some move) :
    move.next.Bound ∧ ∀ task, move.created = some task → task.Bound ∧ task.child = none := by
  cases stretch_of_proceed h <;> constructor <;>
    first
    | (intro _ hother; cases hother; done)
    | exact hb
    | exact ⟨hb.1, trivial⟩
    | exact bound_resumeOutput _
    | exact bound_resume _ _
    | exact ⟨fun _ ↦ works_child, trivial⟩
    | exact ⟨fun _ hchild ↦ (by cases hchild), trivial⟩
    | exact ⟨fun _ hchild ↦ (by cases hchild), rfl⟩
    | (rintro _ ⟨⟩; exact ⟨⟨fun _ hchild ↦ (by cases hchild), trivial⟩, rfl⟩)
    | (rintro _ ⟨⟩; exact ⟨⟨fun _ hchild ↦ (by cases hchild), rfl⟩, rfl⟩)
    | skip
  case detached.right =>
    rintro _ ⟨⟩
    exact ⟨⟨fun _ hchild ↦ (by cases hb.2.symm.trans hchild), trivial⟩, hb.2⟩
  case chainRequest.left =>
    cases hg.unsourced
    exact ⟨fun _ hchild ↦ (by cases hchild), rfl⟩
  case errbackEnds.left => exact ⟨fun _ hchild ↦ (by cases hchild), hg⟩

/-- A handler works on what its task worked on and has no child. -/
private theorem works_handler {handler : Task} (hg : Awaited s point .raises)
    (h : point.handler = some handler) : handler.Bound ∧ point.child = none ∧
      ∀ serial, handler.works = some serial → point.works = some serial := by
  have hcaller : ∀ (delivery : Delivery) (caller : Caller),
      caller.handler delivery = some handler →
      handler.Bound ∧ (handler.works = none ∨
        (caller = .fetchHttp ∧ handler.works = some delivery.serial)) := by
    intro delivery caller hc
    cases caller <;> cases hc <;> simp [Task.Bound, Task.works, Task.child, Caller.works]
  have hworks : ∀ (delivery : Delivery) (caller : Caller),
      caller.handler delivery = some handler → ∀ serial, handler.works = some serial →
      caller = .fetchHttp ∧ caller.works delivery = some serial := by
    intro delivery caller hc serial hs
    rcases (hcaller delivery caller hc).2 with hn | ⟨rfl, hw⟩
    · cases hn.symm.trans hs
    · exact ⟨rfl, hw.symm.trans hs⟩
  cases point <;> first
    | cases h
    | exact ⟨(hcaller _ _ h).1, rfl, fun serial hs ↦ (hworks _ _ h serial hs).2⟩
    | skip
  next delivery caller =>
    refine ⟨(hcaller _ _ h).1, rfl, fun serial hs ↦ ?_⟩
    obtain ⟨rfl, -⟩ := hworks _ _ h serial hs
    exact hg.elim

/-- Every awaited move. -/
theorem awaitedMove (hg : Awaited s point outcome) (hb : point.Bound)
    (h : point.move distributed s outcome = some move) :
    WorkingMove point move ∧ ChildMove point move ∧ move.next.Bound ∧
      ∀ task, move.created = some task → task.Bound ∧ task.child = none := by
  rcases move_cases h with h | ⟨handler, rfl, hh, rfl⟩ | h
  · exact ⟨workingMove_proceed hg hb h, childMove_proceed hg hb h, bound_proceed hg hb h⟩
  · obtain ⟨hbound, hchild, hworks⟩ := works_handler hg hh
    exact ⟨⟨hworks, by simp [Move.to], by simp [Move.to]⟩,
      ⟨by simp [hchild], by simp [Move.to]⟩, hbound, by simp [Move.to]⟩
  · obtain ⟨-, hcreated, hf⟩ := fail_spec h
    have hnext : move.next.Bound ∧ (move.next.works = none ∨
        point.child = none ∧ move.next.works = point.works) := by
      rcases hf with ⟨_, _, _, _, _, hn⟩ | ⟨_, hn | ⟨_, _, _, rfl, hn⟩⟩ <;> rw [hn] <;>
        simp [Task.Bound, Task.works, Task.child]
    have heffect : ∃ failed, move.effect = .fail failed := by
      rcases hf with ⟨request, _, _, _, he, _⟩ | ⟨he, _⟩
      · exact ⟨some request, he⟩
      · exact ⟨none, he⟩
    obtain ⟨failed, he⟩ := heffect
    refine ⟨⟨fun serial hs ↦ ?_, by simp [hcreated], by simp [he]⟩,
      ⟨fun child hc ↦ .inl ?_, by simp [he]⟩, hnext.1, by simp [hcreated]⟩
    · rcases hnext.2 with hn | ⟨-, hw⟩
      · cases hn.symm.trans hs
      · exact hw.symm.trans hs
    · rcases hnext.2 with hn | ⟨hn, -⟩
      · exact hn
      · cases hn.symm.trans hc

/-! ### Deliveries and their children -/

/-- A scheduler loop or a task has the delivery. -/
def State.Held (s : State) (serial : Nat) : Prop :=
  (∃ delivery ∈ s.inHand, delivery.serial = serial) ∨ ∃ task ∈ s.tasks, task.works = some serial

/-- One loop or task at most has a delivery, and a child of it has crossed its boundary or is
brought there by that task; nobody has an acknowledged one. -/
structure Settled (s : State) : Prop where
  alone : Alone Task.works s.tasks
  bound : ∀ task ∈ s.tasks, task.Bound
  hand_nodup : (s.inHand.map Delivery.serial).Nodup
  hand_alone : ∀ delivery ∈ s.inHand, ∀ task ∈ s.tasks, task.works ≠ some delivery.serial
  hand_childless : ∀ delivery ∈ s.inHand, ∀ child ∈ s.produced, child.source ≠ delivery.serial
  held_lt : ∀ serial, s.Held serial → serial < s.delivered
  produced_lt : ∀ child ∈ s.produced, child.source < s.delivered
  acknowledged_lt : ∀ serial ∈ s.acknowledged, serial < s.delivered
  waiting : ∀ task ∈ s.tasks, ∀ child ∈ s.produced, task.works = some child.source →
    child ∈ s.crossed ∨ task.child = some child
  crossed : s.ChildrenCrossed
  done : ∀ serial ∈ s.acknowledged, ¬ s.Held serial

/-- What an effect adds to the history. -/
structure History (s t : State) (effect : Effect) : Prop where
  produced : ∀ child ∈ t.produced, child ∈ s.produced ∨ effect = .produce (some child)
  crossed : ∀ child ∈ s.crossed, child ∈ t.crossed
  crosses : ∀ child, effect = .cross (some child) → child ∈ t.crossed
  acknowledged : ∀ serial ∈ t.acknowledged, serial ∈ s.acknowledged ∨ effect = .acknowledge serial
  delivered : t.delivered = s.delivered
  inHand : t.inHand = s.inHand

/-- Every effect adds to the history what it says. -/
theorem history_apply :
    History s (s.apply distributed position move) move.effect := by
  have h : History s (s.perform distributed move.effect) move.effect := by
    cases move.effect with
    | produce child =>
      refine ⟨fun found hf ↦ ?_, fun _ ↦ id, (fun _ he ↦ by cases he), fun _ ↦ .inl, rfl, rfl⟩
      rcases List.mem_append.mp hf with hf | hf
      · rw [Option.mem_toList.mp hf]
        exact .inr rfl
      · exact .inl hf
    | cross child =>
      refine ⟨fun _ ↦ .inl, fun _ hf ↦ List.mem_append_right _ hf, ?_, fun _ ↦ .inl, rfl, rfl⟩
      rintro found ⟨⟩
      exact List.mem_append_left _ (Option.mem_toList.mpr rfl)
    | acknowledge serial =>
      refine ⟨fun _ ↦ .inl, fun _ ↦ id, (fun _ he ↦ by cases he), fun found hf ↦ ?_, rfl, rfl⟩
      rcases List.mem_cons.mp hf with rfl | hf
      · exact .inr rfl
      · exact .inl hf
    | closeUrl url =>
      obtain ⟨_, _, he⟩ := closeUrl_eq s url
      rw [State.perform, he]
      exact ⟨fun _ ↦ .inl, fun _ ↦ id, (fun _ he ↦ by cases he), fun _ ↦ .inl, rfl, rfl⟩
    | _ => exact ⟨fun _ ↦ .inl, fun _ ↦ id, (fun _ he ↦ by cases he), fun _ ↦ .inl, rfl, rfl⟩
  exact ⟨h.produced, h.crossed, h.crosses, h.acknowledged, h.delivered, h.inHand⟩

namespace Settled

/-- Tasks that work on no delivery come and go. -/
theorem idle (h : Settled s) (tasks : List Task) (htasks : ∀ (j : Nat) q, tasks[j]? = some q →
      (q.works = none ∧ q.Bound) ∨ s.tasks[j]? = some q) : Settled { s with tasks } := by
  have hworks : ∀ task ∈ tasks, ∀ serial, task.works = some serial → task ∈ s.tasks := by
    intro task ht serial hw
    obtain ⟨j, hj⟩ := List.getElem?_of_mem ht
    rcases htasks j task hj with ⟨hn, -⟩ | hj
    · cases hn.symm.trans hw
    · exact List.mem_of_getElem? hj
  have hheld : ∀ serial, State.Held { s with tasks } serial → s.Held serial :=
    fun serial hs ↦ hs.imp_right fun ⟨task, ht, hw⟩ ↦ ⟨task, hworks task ht serial hw, hw⟩
  refine { h with alone := ?_, bound := ?_, hand_alone := ?_, held_lt := ?_, waiting := ?_,
                  done := ?_ }
  · exact h.alone.ended fun j q hj ↦ (htasks j q hj).imp_left And.left
  · intro task ht
    obtain ⟨j, hj⟩ := List.getElem?_of_mem ht
    rcases htasks j task hj with ⟨-, hb⟩ | hj
    · exact hb
    · exact h.bound task (List.mem_of_getElem? hj)
  · intro delivery hd task ht hw
    exact h.hand_alone delivery hd task (hworks task ht _ hw) hw
  · exact fun serial hs ↦ h.held_lt serial (hheld serial hs)
  · exact fun task ht child hc hw ↦ h.waiting task (hworks task ht _ hw) child hc hw
  · exact fun serial hs hh ↦ h.done serial hs (hheld serial hh)

/-- Every awaited move keeps children with their deliveries. -/
theorem apply (h : Settled s) (hpoint : s.tasks[position]? = some point)
    (hw : WorkingMove point move) (hm : ChildMove point move) (hnext : move.next.Bound)
    (hcreated : ∀ task, move.created = some task → task.Bound) :
    Settled (s.apply distributed position move) := by
  have hp := List.mem_of_getElem? hpoint
  have hh : History s (s.apply distributed position move) move.effect := history_apply
  have hworks : ∀ task ∈ (s.apply distributed position move).tasks, ∀ serial,
      task.works = some serial → ∃ old ∈ s.tasks, old.works = some serial := by
    intro task ht serial hs
    obtain ⟨j, hj⟩ := List.getElem?_of_mem ht
    rcases task_of_apply hj with rfl | ⟨-, rfl⟩ | ⟨-, hj⟩ | ⟨-, hc⟩
    · cases hs
    · exact ⟨point, hp, hw.next serial hs⟩
    · exact ⟨task, List.mem_of_getElem? hj, hs⟩
    · exact ⟨point, hp, (hw.created task hc serial hs).1⟩
  have hheld : ∀ serial, (s.apply distributed position move).Held serial → s.Held serial := by
    rintro serial (hs | ⟨task, ht, hs⟩)
    · exact .inl (hh.inHand ▸ hs)
    · exact .inr (hworks task ht serial hs)
  -- a new child belongs to the delivery of the task that moved
  have hnew : ∀ child, move.effect = .produce (some child) → point.works = some child.source :=
    fun child he ↦ hw.next _ (hnext.1 child (hm.produce child he).2)
  constructor
  case alone =>
    have hcases : ∀ (j : Nat) q, (s.apply distributed position move).tasks[j]? = some q →
        q.works = none ∨ (j = position ∧ q = move.next) ∨
          (j ≠ position ∧ s.tasks[j]? = some q) ∨
          (j = s.tasks.length ∧ move.created = some q) := by
      intro j q hj
      rcases task_of_apply hj with rfl | hcases
      · exact .inl rfl
      · exact .inr hcases
    exact h.alone.moved hpoint hcases hw.next fun task key hs ht ↦
      ⟨(hw.created task hs key ht).1, (hw.created task hs key ht).2.1⟩
  case bound =>
    intro task ht
    obtain ⟨j, hj⟩ := List.getElem?_of_mem ht
    rcases task_of_apply hj with rfl | ⟨-, rfl⟩ | ⟨-, hj⟩ | ⟨-, hc⟩
    · exact ⟨nofun, trivial⟩
    · exact hnext
    · exact h.bound task (List.mem_of_getElem? hj)
    · exact hcreated task hc
  case hand_nodup => exact hh.inHand ▸ h.hand_nodup
  case hand_alone =>
    intro delivery hd task ht hs
    obtain ⟨old, ho, hs⟩ := hworks task ht _ hs
    exact h.hand_alone delivery (hh.inHand ▸ hd) old ho hs
  case hand_childless =>
    intro delivery hd child hc
    rw [hh.inHand] at hd
    rcases hh.produced child hc with hc | he
    · exact h.hand_childless delivery hd child hc
    · intro hs
      exact h.hand_alone delivery hd point hp (hs ▸ hnew child he)
  case held_lt =>
    intro serial hs
    rw [hh.delivered]
    exact h.held_lt serial (hheld serial hs)
  case produced_lt =>
    intro child hc
    rw [hh.delivered]
    rcases hh.produced child hc with hc | he
    · exact h.produced_lt child hc
    · exact h.held_lt _ (.inr ⟨point, hp, hnew child he⟩)
  case acknowledged_lt =>
    intro serial hs
    rw [hh.delivered]
    rcases hh.acknowledged serial hs with hs | he
    · exact h.acknowledged_lt serial hs
    · exact h.held_lt _ (.inr ⟨point, hp, (hw.acknowledge serial he).1⟩)
  case waiting =>
    intro task ht child hc hs
    obtain ⟨j, hj⟩ := List.getElem?_of_mem ht
    rcases task_of_apply hj with rfl | ⟨-, rfl⟩ | ⟨hne, hj⟩ | ⟨-, hstart⟩
    · cases hs
    · rcases hh.produced child hc with hc | he
      · rcases h.waiting point hp child hc (hw.next _ hs) with hcross | hchild
        · exact .inl (hh.crossed child hcross)
        · rcases hm.child child hchild with hn | hn | hn
          · cases hn.symm.trans hs
          · exact .inr hn
          · exact .inl (hh.crosses child hn)
      · exact .inr (hm.produce child he).2
    · rcases hh.produced child hc with hc | he
      · exact (h.waiting task (List.mem_of_getElem? hj) child hc hs).imp_left (hh.crossed child)
      · exact absurd (h.alone _ _ _ _ _ hj hpoint hs (hnew child he)) hne
    · obtain ⟨hwork, -, hnone⟩ := hw.created task hstart _ hs
      rcases hh.produced child hc with hc | he
      · rcases h.waiting point hp child hc hwork with hcross | hchild
        · exact .inl (hh.crossed child hcross)
        · cases hnone.symm.trans hchild
      · cases (hm.produce child he).1.symm.trans hstart
  case crossed =>
    rintro serial hs child hc rfl
    rcases hh.acknowledged _ hs with hs | he
    · rcases hh.produced child hc with hc | hproduce
      · exact hh.crossed child (h.crossed _ hs child hc rfl)
      · exact absurd (.inr ⟨point, hp, hnew child hproduce⟩) (h.done _ hs)
    · obtain ⟨hwork, hnone, -⟩ := hw.acknowledge _ he
      rcases hh.produced child hc with hc | hproduce
      · rcases h.waiting point hp child hc hwork with hcross | hchild
        · exact hh.crossed child hcross
        · cases hnone.symm.trans hchild
      · cases he.symm.trans hproduce
  case done =>
    intro serial hs hold
    rcases hh.acknowledged serial hs with hs | he
    · exact h.done serial hs (hheld serial hold)
    · obtain ⟨hwork, -, hnone, hstart⟩ := hw.acknowledge serial he
      rcases hold with ⟨delivery, hd, rfl⟩ | ⟨task, ht, hs⟩
      · exact h.hand_alone delivery (hh.inHand ▸ hd) point hp hwork
      · obtain ⟨j, hj⟩ := List.getElem?_of_mem ht
        rcases task_of_apply hj with rfl | ⟨-, rfl⟩ | ⟨hne, hj⟩ | ⟨-, hc⟩
        · cases hs
        · cases hnone.symm.trans hs
        · exact hne (h.alone _ _ _ _ _ hj hpoint hs hwork)
        · cases hstart.symm.trans hc

/-- A delivery gets the next number. -/
theorem get {metaDict : Nat} (h : Settled s)
    (hs : s.step distributed (.get position metaDict) = some t) : Settled t := by
  obtain ⟨request, ownership, queued, -, -, rfl⟩ := get_spec hs
  have hheld : ∀ serial, State.Held { s with
      queue := s.queue.eraseIdx position
      ownership
      inHand := ⟨request, s.delivered⟩ :: s.inHand
      delivered := s.delivered + 1 } serial → serial = s.delivered ∨ s.Held serial := by
    rintro serial (⟨delivery, hd, rfl⟩ | ⟨task, ht, hw⟩)
    · rcases List.mem_cons.mp hd with rfl | hd
      · exact .inl rfl
      · exact .inr (.inl ⟨delivery, hd, rfl⟩)
    · exact .inr (.inr ⟨task, ht, hw⟩)
  refine { h with hand_nodup := ?_, hand_alone := ?_, hand_childless := ?_, held_lt := ?_,
                  produced_lt := ?_, acknowledged_lt := ?_, done := ?_ }
  · refine List.nodup_cons.mpr ⟨fun hmem ↦ ?_, h.hand_nodup⟩
    obtain ⟨delivery, hd, he⟩ := List.mem_map.mp hmem
    exact absurd (h.held_lt _ (.inl ⟨delivery, hd, he⟩)) (Nat.lt_irrefl _)
  · intro delivery hd task ht hw
    rcases List.mem_cons.mp hd with rfl | hd
    · exact absurd (h.held_lt _ (.inr ⟨task, ht, hw⟩)) (Nat.lt_irrefl _)
    · exact h.hand_alone delivery hd task ht hw
  · intro delivery hd child hc
    rcases List.mem_cons.mp hd with rfl | hd
    · exact (h.produced_lt child hc).ne
    · exact h.hand_childless delivery hd child hc
  · intro serial hs
    rcases hheld serial hs with rfl | hs
    · exact Nat.lt_succ_self _
    · exact (h.held_lt serial hs).trans (Nat.lt_succ_self _)
  · exact fun child hc ↦ (h.produced_lt child hc).trans (Nat.lt_succ_self _)
  · exact fun serial hs ↦ (h.acknowledged_lt serial hs).trans (Nat.lt_succ_self _)
  · intro serial hs hold
    rcases hheld serial hold with rfl | hold
    · exact absurd (h.acknowledged_lt _ hs) (Nat.lt_irrefl _)
    · exact h.done serial hs hold

/-- A delivery passes from its loop to its task. -/
theorem dispatch (h : Settled s) (hs : s.step distributed (.dispatch position) = some t) :
    Settled t := by
  obtain ⟨delivery, hd, rfl⟩ := dispatch_spec hs
  have hperm := erase_perm hd
  have hmem := List.mem_of_getElem? hd
  have hleft : ∀ other ∈ s.inHand.eraseIdx position, other ∈ s.inHand :=
    fun other ho ↦ hperm.mem_iff.mp (List.mem_cons_of_mem _ ho)
  have hnodup : ((delivery :: s.inHand.eraseIdx position).map Delivery.serial).Nodup :=
    (hperm.map _).nodup_iff.mpr h.hand_nodup
  have hstart : ∀ task, s.create (some (.requestInterceptChain delivery)) = some task →
      task = .requestInterceptChain delivery :=
    fun task hs ↦ (Option.some.inj (of_create hs)).symm
  have htask : ∀ task ∈ s.tasks ++ (s.create (some (.requestInterceptChain delivery))).toList,
      task ∈ s.tasks ∨ task = .requestInterceptChain delivery :=
    fun task ht ↦ (List.mem_append.mp ht).imp_right fun hs ↦ hstart task (Option.mem_toList.mp hs)
  have hheld : ∀ serial, State.Held { s with
      inHand := s.inHand.eraseIdx position
      tasks := s.tasks ++ (s.create (some (.requestInterceptChain delivery))).toList } serial →
      s.Held serial := by
    rintro serial (⟨other, ho, rfl⟩ | ⟨task, ht, hw⟩)
    · exact .inl ⟨other, hleft other ho, rfl⟩
    · rcases htask task ht with ht | rfl
      · exact .inr ⟨task, ht, hw⟩
      · exact .inl ⟨delivery, hmem, Option.some.inj hw⟩
  refine { h with alone := ?_, bound := ?_, hand_nodup := ?_, hand_alone := ?_,
                  hand_childless := ?_, held_lt := ?_, waiting := ?_, done := ?_ }
  · refine h.alone.join fun task key hs hw p hp hkey ↦ ?_
    rw [hstart task hs] at hw
    exact h.hand_alone delivery hmem p hp (hkey.trans hw.symm)
  · intro task ht
    rcases htask task ht with ht | rfl
    · exact h.bound task ht
    · exact ⟨nofun, trivial⟩
  · exact (List.nodup_cons.mp hnodup).2
  · intro other ho task ht hw
    rcases htask task ht with ht | rfl
    · exact h.hand_alone other (hleft other ho) task ht hw
    · exact (List.nodup_cons.mp hnodup).1
        (List.mem_map.mpr ⟨other, ho, (Option.some.inj hw).symm⟩)
  · exact fun other ho ↦ h.hand_childless other (hleft other ho)
  · exact fun serial hs ↦ h.held_lt serial (hheld serial hs)
  · intro task ht child hc hw
    rcases htask task ht with ht | rfl
    · exact h.waiting task ht child hc hw
    · exact absurd (Option.some.inj hw).symm (h.hand_childless delivery hmem child hc)
  · exact fun serial hs hold ↦ h.done serial hs (hheld serial hold)

/-- Every awaited step keeps children with their deliveries. -/
theorem step (h : Settled s) {event : Event} (hg : onRun Awaited s event)
    (hs : s.step distributed event = some t) : Settled t := by
  cases event with
  | run position outcome =>
    obtain ⟨point, move, hpoint, hmove, rfl⟩ := run_spec hs
    obtain ⟨hw, hm, hnext, hcreated⟩ :=
      awaitedMove (hg point hpoint) (h.bound point (List.mem_of_getElem? hpoint)) hmove
    exact h.apply hpoint hw hm hnext fun task hc ↦ (hcreated task hc).1
  | produce =>
    rw [produce_spec hs]
    refine h.idle _ fun j q hj ↦ ?_
    rcases of_join hj with hj | ⟨-, hq⟩
    · exact .inr hj
    · cases of_create hq
      exact .inl ⟨rfl, (fun _ hc ↦ by cases hc), trivial⟩
  | get position metaDict => exact h.get hs
  | dispatch position => exact h.dispatch hs
  | waiter =>
    obtain ⟨_, rfl, _⟩ := waiter_spec hs
    exact { h with }
  | copyMeta source target =>
    obtain ⟨_, rfl⟩ := copyMeta_spec hs
    exact { h with }
  | closeSession url =>
    simp only [State.step, if_neg (waiter_of_step hs), Option.some.injEq] at hs
    subst hs
    obtain ⟨tasks, connections, he⟩ := closeUrl_eq s url
    have htasks : ∀ (j : Nat) q, tasks[j]? = some q → q = .done ∨ s.tasks[j]? = some q := by
      intro j q hj
      have hclosed : (s.closeUrl url).tasks[j]? = some q := by rw [he]; exact hj
      exact task_of_closeUrl hclosed
    rw [he]
    have hidle := h.idle tasks fun j q hj ↦ (htasks j q hj).imp_left fun hd ↦ by
      subst hd
      exact ⟨rfl, (fun _ hc ↦ by cases hc), trivial⟩
    exact { hidle with }
  | producerEnds | stop =>
    simp only [State.step, if_neg (waiter_of_step hs)] at hs
    cases hs
    exact { h with }

end Settled

/-- A callback that yields one child, which `scheduler.put` accepts. -/
def oneChild : List Event :=
  startCallback ++ [.run 5 (.request ⟨.http, 2⟩), .run 5 .proceeds, .run 5 .proceeds,
    .run 5 .accepted, .run 5 .proceeds, .run 5 .nothing, .run 5 .proceeds]

/-- A callback that raises, with an interceptor that answers with a request. -/
def childOfException : List Event :=
  startCallback ++ [.run 5 .exception, .run 5 .proceeds, .run 5 (.request ⟨.http, 2⟩),
    .run 5 .proceeds, .run 5 .nothing, .run 5 .proceeds]

end ScrapyCffi.Engine
