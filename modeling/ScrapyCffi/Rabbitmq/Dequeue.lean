import ScrapyCffi.Base.Machine

/-!
# The settlement of a RabbitMQ delivery

`RabbitMQClient.dequeue_request` (`scrapy_cffi/infra/rabbitmq/client.py:166–215`), suspended at one
of its awaits. The shielded `get_task` runs on its own, and a cancellation is delivered at any
await. An acknowledgement or a rejection takes effect at the broker before its call returns;
between the two the call can be cancelled or fail.
-/

namespace ScrapyCffi.Rabbitmq

open ScrapyCffi.Base

/-- What an awaited broker call raises other than `CancelledError`. -/
inductive Failure
  | timeout
  | queueEmpty
  | channelClosed
  | other
  deriving DecidableEq

/-- What the broker is told about a delivery. -/
inductive Settlement
  | ack
  | reject (requeue : Bool)
  deriving DecidableEq

variable (β : Type)

/-- How `dequeue_request` or its `get_task` ends. -/
inductive Outcome
  | returned (value : Option β)
  | failed (error : Failure)
  | cancelled
  deriving DecidableEq

/-- `get_task`, which takes at most one delivery from the queue. -/
inductive GetTask
  | absent
  | running
  | done (result : Outcome β)
  deriving DecidableEq

/-- Where `dequeue_request` is suspended. -/
inductive Position
  /-- In `self.connect()`. -/
  | connecting
  /-- In `asyncio.shield(get_task)`. -/
  | getting
  /-- In `message.ack()`, leaving `message.process()`. -/
  | acking (body : β)
  /-- In `asyncio.shield(get_task)` of the handler. -/
  | settling
  /-- In `message.reject(requeue=True)`. -/
  | rejecting (body : β)
  | ended (outcome : Outcome β)
  deriving DecidableEq

/-- A call, and what has taken effect on its delivery. -/
structure Dequeue where
  getTask : GetTask β
  position : Position β
  settlements : List Settlement
  deriving DecidableEq

/-- A step of the call, of its task or of the broker. -/
inductive Event
  | connected
  | connectFailed (error : Failure)
  /-- `get_task` ends. -/
  | got (result : Outcome β)
  /-- The call goes on with the result of `get_task`. -/
  | resumed
  /-- The acknowledgement takes effect. -/
  | acknowledge
  | ackReturned
  | ackFailed (error : Failure)
  /-- The rejection takes effect. -/
  | requeue
  | rejectReturned
  | rejectFailed (error : Failure)
  /-- `CancelledError` is raised in the call. -/
  | cancel
  deriving DecidableEq

variable {β}

/-- The end of the call when an error leaves its `try` block. -/
def Failure.outcome : Failure → Outcome β
  | .timeout | .queueEmpty => .returned none
  | .channelClosed => .failed .channelClosed
  | .other => .failed .other

/-- The end of the call when an error leaves the `try` block of the handler. -/
def Failure.settled : Failure → Outcome β
  | .timeout | .queueEmpty | .channelClosed => .cancelled
  | .other => .failed .other

namespace Dequeue

/-- `except asyncio.CancelledError`, up to its first await of something that is not done. -/
def handleCancelled (s : Dequeue β) : Dequeue β :=
  { s with
    position := match s.getTask with
      | .absent | .running => .settling
      | .done (.returned (some body)) => .rejecting body
      | .done (.returned none) => .ended .cancelled
      | .done (.failed error) => .ended error.settled
      | .done .cancelled => .ended .cancelled }

/-- The `try` block with the result of `get_task`. -/
def handleResult (s : Dequeue β) : Outcome β → Dequeue β
  | .returned (some body) => { s with position := .acking body }
  | .returned none => { s with position := .ended (.returned none) }
  | .failed error => { s with position := .ended error.outcome }
  | .cancelled => s.handleCancelled

/-- Whether the acknowledgement has taken effect. -/
def acked (s : Dequeue β) : Bool := s.settlements.contains .ack

/-- Whether the rejection has taken effect. -/
def rejected (s : Dequeue β) : Bool := s.settlements.contains (.reject true)

/-- One event. -/
def step (s : Dequeue β) : Event β → Option (Dequeue β)
  | .connected =>
    match s.position with
    | .connecting => some { s with getTask := .running, position := .getting }
    | _ => none
  | .connectFailed error =>
    match s.position with
    | .connecting => some { s with position := .ended (.failed error) }
    | _ => none
  | .got result =>
    match s.getTask with
    | .running => some { s with getTask := .done result }
    | _ => none
  | .resumed =>
    match s.position, s.getTask with
    | .getting, .done result => some (s.handleResult result)
    | .settling, .done _ => some s.handleCancelled
    | _, _ => none
  | .acknowledge =>
    match s.position with
    | .acking _ =>
      if s.acked then none else some { s with settlements := .ack :: s.settlements }
    | _ => none
  | .ackReturned =>
    match s.position with
    | .acking body =>
      if s.acked then some { s with position := .ended (.returned (some body)) } else none
    | _ => none
  | .ackFailed error =>
    match s.position with
    | .acking _ => some { s with position := .ended error.outcome }
    | _ => none
  | .requeue =>
    match s.position with
    | .rejecting _ =>
      if s.rejected then none
      else some { s with settlements := .reject true :: s.settlements }
    | _ => none
  | .rejectReturned =>
    match s.position with
    | .rejecting _ =>
      if s.rejected then some { s with position := .ended .cancelled } else none
    | _ => none
  | .rejectFailed error =>
    match s.position with
    | .rejecting _ => some { s with position := .ended error.settled }
    | _ => none
  | .cancel =>
    match s.position with
    | .connecting => some { s with position := .ended .cancelled }
    | .getting => some s.handleCancelled
    | .acking _ => some s.handleCancelled
    | .settling => some { s with position := .ended .cancelled }
    | .rejecting _ => some { s with position := .ended .cancelled }
    | .ended _ => none

/-- A call before its first await. -/
def start : Dequeue β := ⟨.absent, .connecting, []⟩

end Dequeue

/-- Every order of the steps of a call, its task and the broker. -/
def machine (β : Type) : Machine (Dequeue β) (Event β) where
  init s := s = .start
  step := Dequeue.step

namespace Dequeue

/-- The delivery is settled at most once, acknowledged only when its body is returned, and taken
back or left to the broker when the call ends otherwise. -/
structure SettledOnce (s : Dequeue β) : Prop where
  once : s.settlements.length ≤ 1
  acked : ∀ outcome, s.position = .ended outcome → .ack ∈ s.settlements →
    ∃ body, s.getTask = .done (.returned (some body)) ∧ outcome = .returned (some body)
  otherwise : ∀ outcome, s.position = .ended outcome → (∀ body, outcome ≠ .returned (some body)) →
    s.settlements = [] ∨ s.settlements = [.reject true]

/-- An acknowledgement that has taken effect returns: it is not cancelled and does not fail. -/
def AckReturns (s : Dequeue β) : Event β → Prop
  | .cancel | .ackFailed _ => s.acked = false
  | _ => True

instance (s : Dequeue β) : ∀ e, Decidable (s.AckReturns e)
  | .cancel => inferInstanceAs (Decidable (s.acked = false))
  | .ackFailed _ => inferInstanceAs (Decidable (s.acked = false))
  | .connected => isTrue trivial
  | .connectFailed _ => isTrue trivial
  | .got _ => isTrue trivial
  | .resumed => isTrue trivial
  | .acknowledge => isTrue trivial
  | .ackReturned => isTrue trivial
  | .requeue => isTrue trivial
  | .rejectReturned => isTrue trivial
  | .rejectFailed _ => isTrue trivial

/-- What has taken effect on the delivery at each position. -/
inductive Accounted : Dequeue β → Prop
  | connecting : Accounted ⟨.absent, .connecting, []⟩
  | getting (task : GetTask β) : Accounted ⟨task, .getting, []⟩
  | settling (task : GetTask β) : Accounted ⟨task, .settling, []⟩
  | acking (body : β) : Accounted ⟨.done (.returned (some body)), .acking body, []⟩
  | acked (body : β) : Accounted ⟨.done (.returned (some body)), .acking body, [.ack]⟩
  | returned (body : β) :
    Accounted ⟨.done (.returned (some body)), .ended (.returned (some body)), [.ack]⟩
  | rejecting (body : β) : Accounted ⟨.done (.returned (some body)), .rejecting body, []⟩
  | rejected (body : β) :
    Accounted ⟨.done (.returned (some body)), .rejecting body, [.reject true]⟩
  | ended (task : GetTask β) (outcome : Outcome β) (settlements : List Settlement) :
    (∀ body, outcome ≠ .returned (some body)) →
      settlements = [] ∨ settlements = [.reject true] → Accounted ⟨task, .ended outcome, settlements⟩

/-- An acknowledgement that has taken effect on a delivery whose body is not returned. -/
structure Lost (s : Dequeue β) : Prop where
  acked : .ack ∈ s.settlements
  position : (∃ body, s.position = .rejecting body) ∨
    ∃ outcome, s.position = .ended outcome ∧ ∀ body, outcome ≠ .returned (some body)

variable {s t : Dequeue β} {e : Event β}

theorem outcome_ne (error : Failure) (body : β) : error.outcome ≠ .returned (some body) := by
  cases error <;> simp [Failure.outcome]

theorem settled_ne (error : Failure) (body : β) : error.settled ≠ .returned (some body) := by
  cases error <;> simp [Failure.settled]

/-- A call ends without the body of a delivery that is not settled. -/
theorem Accounted.unsettled (task : GetTask β) {outcome : Outcome β}
    (h : ∀ body, outcome ≠ .returned (some body)) : Accounted ⟨task, .ended outcome, []⟩ :=
  .ended task outcome [] h (.inl rfl)

/-- A call ends without the body of a delivery that is requeued. -/
theorem Accounted.requeued (task : GetTask β) {outcome : Outcome β}
    (h : ∀ body, outcome ≠ .returned (some body)) :
    Accounted ⟨task, .ended outcome, [.reject true]⟩ :=
  .ended task outcome _ h (.inr rfl)

theorem cancelled_ne (body : β) : Outcome.cancelled ≠ .returned (some body) := by simp

/-- The handler keeps the account of a delivery that is not settled. -/
theorem accounted_handleCancelled (task : GetTask β) (position : Position β) :
    (handleCancelled ⟨task, position, []⟩).Accounted := by
  rcases task with _ | _ | ((_ | body) | error | _)
  · exact .settling _
  · exact .settling _
  · exact .unsettled _ cancelled_ne
  · exact .rejecting body
  · exact .unsettled _ (settled_ne error)
  · exact .unsettled _ cancelled_ne

theorem accounted_handleResult (result : Outcome β) (position : Position β) :
    (handleResult ⟨.done result, position, []⟩ result).Accounted := by
  rcases result with (_ | body) | error | _
  · exact .unsettled _ (by simp)
  · exact .acking body
  · exact .unsettled _ (outcome_ne error)
  · exact accounted_handleCancelled _ position

/-- A step keeps the account, unless an acknowledgement that has taken effect does not return. -/
theorem Accounted.step (h : s.Accounted) (hguard : s.AckReturns e) (hstep : s.step e = some t) :
    t.Accounted := by
  cases h with
  | connecting =>
    cases e <;> cases hstep
    case connected.refl => exact .getting _
    case connectFailed.refl => exact .unsettled _ (by simp)
    case cancel.refl => exact .unsettled _ cancelled_ne
  | getting task =>
    cases task <;> cases e <;> cases hstep
    case running.got.refl => exact .getting _
    case done.resumed.refl result => exact accounted_handleResult result _
    all_goals exact accounted_handleCancelled _ _
  | settling task =>
    cases task <;> cases e <;> cases hstep
    case running.got.refl => exact .settling _
    case done.resumed.refl => exact accounted_handleCancelled _ _
    all_goals exact .unsettled _ cancelled_ne
  | acking body =>
    cases e <;> cases hstep
    case acknowledge.refl => exact .acked body
    case ackFailed.refl error => exact .unsettled _ (outcome_ne error)
    case cancel.refl => exact .rejecting body
  | acked body =>
    cases e <;> cases hstep
    case ackReturned.refl => exact .returned body
    all_goals cases hguard
  | returned body => cases e <;> cases hstep
  | rejecting body =>
    cases e <;> cases hstep
    case requeue.refl => exact .rejected body
    case rejectFailed.refl error => exact .unsettled _ (settled_ne error)
    case cancel.refl => exact .unsettled _ cancelled_ne
  | rejected body =>
    cases e <;> cases hstep
    case rejectReturned.refl => exact .requeued _ cancelled_ne
    case rejectFailed.refl error => exact .requeued _ (settled_ne error)
    case cancel.refl => exact .requeued _ cancelled_ne
  | ended task outcome settlements houtcome hsettlements =>
    cases task <;> cases e <;> cases hstep
    exact .ended _ outcome settlements houtcome hsettlements

/-- The account says that the delivery is settled once. -/
theorem Accounted.settledOnce (h : s.Accounted) : s.SettledOnce := by
  cases h with
  | returned body =>
    constructor
    · exact Nat.le_refl 1
    · intro outcome hended _
      cases hended
      exact ⟨body, rfl, rfl⟩
    · intro outcome hended hne
      cases hended
      exact absurd rfl (hne body)
  | ended task outcome settlements houtcome hsettlements =>
    rcases hsettlements with rfl | rfl <;> constructor <;> simp
  | _ => constructor <;> simp

/-- An acknowledgement that does not return is lost. -/
theorem Accounted.lost (h : s.Accounted) (hguard : ¬ s.AckReturns e) (hstep : s.step e = some t) :
    t.Lost := by
  cases h with
  | acked body =>
    cases e <;> cases hstep
    case ackReturned.refl => exact absurd trivial hguard
    case ackFailed.refl error => exact ⟨by simp, .inr ⟨_, rfl, outcome_ne error⟩⟩
    case cancel.refl => exact ⟨by simp [handleCancelled], .inl ⟨body, rfl⟩⟩
  | returned body => cases e <;> cases hstep
  | ended task outcome settlements houtcome hsettlements =>
    rcases hsettlements with rfl | rfl <;> cases e <;> first
      | cases hstep
      | exact absurd trivial hguard
  | _ =>
    cases e <;> first
      | (cases hstep; done)
      | exact absurd trivial hguard
      | exact absurd rfl hguard

/-- It stays lost. -/
theorem Lost.step (h : s.Lost) (hstep : s.step e = some t) : t.Lost := by
  obtain ⟨task, position, settlements⟩ := s
  obtain ⟨hacked, ⟨body, rfl⟩ | ⟨outcome, rfl, houtcome⟩⟩ := h
  · cases e <;> simp only [Dequeue.step] at hstep
    case got result => split at hstep <;> cases hstep; exact ⟨hacked, .inl ⟨body, rfl⟩⟩
    case requeue =>
      split at hstep <;> cases hstep
      exact ⟨List.mem_cons_of_mem _ hacked, .inl ⟨body, rfl⟩⟩
    case rejectReturned =>
      split at hstep <;> cases hstep
      exact ⟨hacked, .inr ⟨_, rfl, cancelled_ne⟩⟩
    case rejectFailed error =>
      cases hstep
      exact ⟨hacked, .inr ⟨_, rfl, settled_ne error⟩⟩
    case cancel =>
      cases hstep
      exact ⟨hacked, .inr ⟨_, rfl, cancelled_ne⟩⟩
    all_goals cases hstep
  · cases task <;> cases e <;> cases hstep
    exact ⟨hacked, .inr ⟨outcome, rfl, houtcome⟩⟩

/-- A call that has lost an acknowledgement ends unsettled, or settled twice. -/
theorem Lost.not_settledOnce {outcome : Outcome β} (h : s.Lost)
    (hended : s.position = .ended outcome) : ¬ s.SettledOnce := by
  intro hsettled
  obtain ⟨body, -, rfl⟩ := hsettled.acked outcome hended h.acked
  rcases h.position with ⟨_, hpos⟩ | ⟨other, hpos, hne⟩
  · cases hended.symm.trans hpos
  · cases hended.symm.trans hpos
    exact hne body rfl

end Dequeue

section Runs

variable {s : Dequeue β}

/-- A lost acknowledgement stays lost to the end of the call. -/
theorem lost_of_run {t : Dequeue β} (es : List (Event β)) (h : s.Lost)
    (hrun : (machine β).run s es = some t) : t.Lost := by
  induction es generalizing s with
  | nil =>
    cases hrun
    exact h
  | cons e es ih =>
    rw [Machine.run_cons, Option.bind_eq_some_iff] at hrun
    obtain ⟨next, hstep, hrest⟩ := hrun
    exact ih (h.step hstep) hrest

/-- In every run in which acknowledgements that have taken effect return, the delivery is settled
once; and after an acknowledgement that does not return, no end of the call settles it once. -/
theorem settled_once (h : (machine β).Reach Dequeue.AckReturns s) :
    s.SettledOnce ∧ ∀ e t, ¬ s.AckReturns e → s.step e = some t → ∀ es u outcome,
      (machine β).run t es = some u → u.position = .ended outcome → ¬ u.SettledOnce := by
  have hinv : s.Accounted := by
    refine h.invariant (I := Dequeue.Accounted) (fun u hinit ↦ ?_)
      fun u e t _ ih hguard hstep ↦ ih.step hguard hstep
    cases hinit
    exact .connecting
  refine ⟨hinv.settledOnce, fun e t hguard hstep es u outcome hrun hended ↦ ?_⟩
  exact (lost_of_run es (hinv.lost hguard hstep) hrun).not_settledOnce hended

end Runs

/-- A delivery that is acknowledged. -/
def acknowledgedRun : List (Event String) :=
  [.connected, .got (.returned (some "request")), .resumed, .acknowledge, .ackReturned]

/-- The delivery of a call that is not cancelled is settled once. -/
theorem settled_once_acknowledgedRun : ∃ s : Dequeue String,
    (machine String).run .start acknowledgedRun = some s ∧ s.SettledOnce :=
  ⟨⟨.done (.returned (some "request")), .ended (.returned (some "request")), [.ack]⟩, rfl,
    (settled_once (.runIf acknowledgedRun (.init rfl) rfl)).1⟩

/-- A call is cancelled when its acknowledgement has taken effect, and rejects the delivery. -/
def cancelledRun : List (Event String) :=
  [.connected, .got (.returned (some "request")), .resumed, .acknowledge, .cancel, .requeue,
    .rejectReturned]

/-- The delivery of a cancelled call is settled twice and its body is lost. -/
theorem cancelled_ack_loses : ¬ ∀ s : Dequeue String, (machine String).Reachable s →
    s.SettledOnce := by
  intro h
  have hrun : (machine String).run .start cancelledRun = some
      ⟨.done (.returned (some "request")), .ended .cancelled, [.reject true, .ack]⟩ := rfl
  have hsettled := h _ (Machine.Reachable.run cancelledRun (.init rfl) hrun)
  exact absurd hsettled.once (by decide)

end ScrapyCffi.Rabbitmq
