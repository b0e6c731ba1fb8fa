import Mathlib.Logic.Function.Basic
import ScrapyCffi.Base.Machine

/-!
# Popping a request from the broker

`RedisScheduler.get` (`scrapy_cffi/core/scheduler/redis.py:146–152,209–217`),
`RabbitMqScheduler.get` (`scheduler/rabbitmq.py:95–104`) and the RabbitMQ pop below it
(`scrapy_cffi/infra/rabbitmq/client.py:166–210`), run by the loops of
`scrapy_cffi/core/engine.py:223–235`. A loop's state names the await it is suspended in, and
a cancellation is delivered at any of them. A Redis pop removes the request at the server
before its reply is read; a RabbitMQ delivery stays with the broker until its
acknowledgement frame is written or it is rejected.
-/

namespace ScrapyCffi.Scheduler.Get

open ScrapyCffi.Base

/-- A request on the broker; `serial` tells apart requests with equal payloads. -/
structure Queued where
  serial : Nat
  sessionId : String
  deriving DecidableEq, Repr

/-- The transport of the work queue. -/
inductive Broker
  | redis
  | rabbitMq
  deriving DecidableEq, Repr

/-- The broker and `SCHEDULER_PERSIST_SESSIONS is True`. -/
structure Config where
  broker : Broker
  persistSessions : Bool
  deriving DecidableEq, Repr

/-- Where a scheduler loop is suspended. -/
inductive Getting
  /-- Outside `get`. -/
  | idle
  /-- In the pop, nothing delivered yet. -/
  | popping
  /-- Redis: the server has popped the request, its reply is not read yet. -/
  | delivered (request : Queued)
  /-- RabbitMQ: `get_task` holds the message, the loop is not resumed yet. -/
  | message (request : Queued)
  /-- RabbitMQ: leaving `message.process()`, the acknowledgement is not written yet. -/
  | acking (request : Queued)
  /-- RabbitMQ: the acknowledgement is written, the loop is not resumed yet. -/
  | acked (request : Queued)
  /-- In the `hget` of `restore_session`. -/
  | restoring (request : Queued)
  /-- RabbitMQ: cancelled, waiting for the shielded `get_task`. -/
  | settling
  /-- RabbitMQ: cancelled, in `message.reject(requeue=True)`. -/
  | rejecting (request : Queued)
  | ended
  deriving DecidableEq, Repr

/-- The broker's queue, the scheduler's leases and the loops. `restored` is
`_restored_session_fields`; `stranded` are unacknowledged deliveries that no coroutine will
settle, `abandoned` the `get_task`s nobody waits for; `pushed` and `completed` are history. -/
structure State where
  queue : List Queued
  loops : Nat → Getting
  inflight : List Queued
  restored : List String
  abandoned : Nat
  stranded : List Queued
  pushed : List Queued
  completed : List Queued

/-- The scheduler before anything is pushed. -/
def State.start : State where
  queue := []
  loops _ := .idle
  inflight := []
  restored := []
  abandoned := 0
  stranded := []
  pushed := []
  completed := []

/-- One step of the broker, of a loop or of the rest of the engine. -/
inductive Event
  /-- `put` appended a request to the broker's queue. -/
  | push (sessionId : String)
  /-- A loop calls `get`. -/
  | poll (loop : Nat)
  /-- A pop found the queue empty. -/
  | empty (loop : Nat)
  /-- The broker hands its first request to a pop. -/
  | deliver (loop : Nat)
  /-- The broker hands its first request to an abandoned `get_task`. -/
  | deliverAbandoned
  /-- The acknowledgement frame is written. -/
  | acknowledge (loop : Nat)
  /-- A loop runs up to its next await. -/
  | resume (loop : Nat)
  /-- `CancelledError` is raised in a loop. -/
  | cancel (loop : Nat)
  /-- `complete_request` of a leased request. -/
  | complete (request : Queued)
  /-- `requeue_inflight` pushed a leased request back. -/
  | requeue (request : Queued)
  deriving DecidableEq, Repr

/-- Suspend a loop elsewhere. -/
def State.setLoop (s : State) (loop : Nat) (getting : Getting) : State :=
  { s with loops := Function.update s.loops loop getting }

/-- `_lease_request`, the last statement of `get`; `redis.py:87–89,217`. -/
def State.leaseRequest (s : State) (loop : Nat) (request : Queued) : State :=
  { s.setLoop loop .idle with inflight := s.inflight ++ [request] }

/-- `_restore_request_session` up to its await or its return; `redis.py:146–152`,
`scrapy_cffi/core/sessions.py:957–963`. -/
def State.restoreRequestSession (config : Config) (s : State) (loop : Nat)
    (request : Queued) : State :=
  if config.persistSessions = true ∧ request.sessionId ∉ s.restored then
    s.setLoop loop (.restoring request)
  else s.leaseRequest loop request

/-- The broker's first request reaches a pop. -/
def State.deliver (config : Config) (s : State) (loop : Nat) : Option State :=
  match s.queue, s.loops loop with
  | request :: rest, .popping =>
    some { s.setLoop loop (match config.broker with
      | .redis => .delivered request
      | .rabbitMq => .message request) with queue := rest }
  | request :: rest, .settling => some { s.setLoop loop (.rejecting request) with queue := rest }
  | _, _ => none

/-- A loop runs up to its next await; a reject puts its delivery back at the front. -/
def State.resume (config : Config) (s : State) (loop : Nat) : Option State :=
  match s.loops loop with
  | .delivered request => some (s.restoreRequestSession config loop request)
  | .message request => some (s.setLoop loop (.acking request))
  | .acked request => some (s.restoreRequestSession config loop request)
  | .restoring request =>
    some { s.leaseRequest loop request with restored := request.sessionId :: s.restored }
  | .rejecting request => some { s.setLoop loop .ended with queue := request :: s.queue }
  | _ => none

/-- `CancelledError` in a loop; `client.py:188–208` for RabbitMQ. Rejecting a delivery whose
acknowledgement is already written is an error of the channel and returns nothing. -/
def State.cancel (config : Config) (s : State) (loop : Nat) : State :=
  match s.loops loop with
  | .idle => s.setLoop loop .ended
  | .popping => s.setLoop loop (match config.broker with
    | .redis => .ended
    | .rabbitMq => .settling)
  | .delivered _ => s.setLoop loop .ended
  | .message request => s.setLoop loop (.rejecting request)
  | .acking request => s.setLoop loop (.rejecting request)
  | .acked _ => s.setLoop loop .ended
  | .restoring _ => s.setLoop loop .ended
  | .settling => { s.setLoop loop .ended with abandoned := s.abandoned + 1 }
  | .rejecting request => { s.setLoop loop .ended with stranded := request :: s.stranded }
  | .ended => s

/-- One event. -/
def State.step (config : Config) (s : State) : Event → Option State
  | .push sessionId =>
    let request : Queued := ⟨s.pushed.length, sessionId⟩
    some { s with queue := s.queue ++ [request], pushed := s.pushed ++ [request] }
  | .poll loop =>
    match s.loops loop with
    | .idle => some (s.setLoop loop .popping)
    | _ => none
  | .empty loop =>
    match s.queue, s.loops loop with
    | [], .popping => some (s.setLoop loop .idle)
    | [], .settling => some (s.setLoop loop .ended)
    | _, _ => none
  | .deliver loop => s.deliver config loop
  | .deliverAbandoned =>
    match s.queue, s.abandoned with
    | request :: rest, abandoned + 1 =>
      some { s with queue := rest, abandoned, stranded := request :: s.stranded }
    | _, _ => none
  | .acknowledge loop =>
    match s.loops loop with
    | .acking request => some (s.setLoop loop (.acked request))
    | _ => none
  | .resume loop => s.resume config loop
  | .cancel loop => some (s.cancel config loop)
  | .complete request =>
    if request ∈ s.inflight then
      some { s with inflight := s.inflight.erase request, completed := request :: s.completed }
    else none
  | .requeue request =>
    if request ∈ s.inflight then
      some { s with inflight := s.inflight.erase request, queue := s.queue ++ [request] }
    else none

/-- Every interleaving of the broker, the loops and their cancellations. -/
def machine (config : Config) : Machine State Event where
  init s := s = State.start
  step := State.step config

end ScrapyCffi.Scheduler.Get
