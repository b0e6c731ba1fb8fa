import ScrapyCffi.Base.Machine

/-!
# The start loop of a Redis spider

`RedisSpider.start`, `spiders/redis.py:29–72`, over `get_start_req`
(`repo/redis_ingress.py:136–157`): each round races a pop against the stop event. An event runs
`start` up to its next `await` or `yield`, or is an act of one of its tasks, of the stop event or
of the consumer of its requests.
-/

namespace ScrapyCffi.Spiders

open ScrapyCffi.Base

abbrev Bytes := List UInt8

/-- What `get_start_req` returns: nothing, an entry of a list, or an entry of a stream. -/
inductive StartData
  | none
  | list (data : Bytes)
  | stream (messageId : String) (data : Bytes)
  deriving DecidableEq, Repr

/-- `not data` is false. -/
def StartData.truthy : StartData → Bool
  | .none => false
  | .list data => !data.isEmpty
  | .stream .. => true

/-- `_get_stream_message` finds a message. -/
def StartData.isStream : StartData → Bool
  | .stream .. => true
  | .none | .list _ => false

/-- The list message among the data. -/
def StartData.listMessage : StartData → List Bytes
  | .list data => [data]
  | .none | .stream .. => []

/-- How `get_req_task` ends: with its data, or with an exception, that of its cancellation
included. -/
inductive Outcome
  | returned (data : StartData)
  | raised
  deriving DecidableEq, Repr

/-- The list message that `get_start_req` has returned. -/
def Outcome.listMessage : Outcome → List Bytes
  | .returned data => data.listMessage
  | .raised => []

/-- Where `start` awaits or is suspended: before its first round; in `asyncio.wait`, with the result
of `get_req_task` and whether `stop_task` is done; in the `gather` of the cancelled `stop_task`, of
the cancelled `get_req_task`, or of `get_req_task` before the `break`; in `make_request_from_data`;
in `ack_start_req`; at its `yield`; in the `gather` of both cancelled tasks before the `raise`. It
is abandoned when it has ended before its cancelled `get_req_task`. -/
inductive Phase
  | created
  | racing (pop : Option Outcome) (stopped : Bool)
  | settlingStop (outcome : Outcome)
  | settlingPop
  | leaving
  | making (data : StartData)
  | acking
  | suspended
  | unwinding (popDone : Bool)
  | abandoned
  | ended
  deriving DecidableEq, Repr

/-- A run of `start`. `returned` holds the list messages that `get_start_req` has returned, and
`yields` the message attached to each request that was yielded. -/
structure State where
  startRequestLimit : Option Int
  autoAck : Bool
  stopEvent : Bool
  acceptedCount : Nat
  phase : Phase
  returned : List Bytes
  yields : List (Option StartData)
  deriving DecidableEq, Repr

/-- `start` is called. -/
def State.start (startRequestLimit : Option Int) (autoAck : Bool) : State where
  startRequestLimit
  autoAck
  stopEvent := false
  acceptedCount := 0
  phase := .created
  returned := []
  yields := []

/-- The consumer asks for a request or closes the generator; the stop event is set; a task of the
round is done; `asyncio.wait` returns; `make_request_from_data` returns a request or nothing, or
raises; `ack_start_req` returns or raises; the last `gather` returns; or the task that runs `start`
is cancelled. -/
inductive Event
  | resume
  | close
  | setStop
  | popEnds (outcome : Outcome)
  | stopTaskEnds
  | wake
  | made (request : Bool)
  | makeRaises
  | acked
  | ackRaises
  | gathered
  | cancel
  deriving DecidableEq, Repr

/-- `start_request_limit_reached`. -/
def State.startRequestLimitReached (s : State) (acceptedCount : Nat) : Bool :=
  s.startRequestLimit.any fun limit ↦ limit ≤ (acceptedCount : Int)

/-- The head of the loop, up to `asyncio.wait`. -/
def State.nextRound (s : State) : State :=
  { s with phase := if s.stopEvent then .ended else .racing none false }

/-- `get_req_task` is done, and `start` is where `phase` says. -/
def State.popped (s : State) (outcome : Outcome) (phase : Phase) : State :=
  { s with phase, returned := s.returned ++ outcome.listMessage }

/-- From the result of `get_req_task` on, up to `make_request_from_data`. -/
def State.received (s : State) : Outcome → State
  | .raised => { s with phase := .ended }
  | .returned data => if data.truthy then { s with phase := .making data } else s.nextRound

/-- From the request on, up to its `yield`. -/
def State.yieldRequest (s : State) (data : StartData) : State :=
  let message := if !data.isStream || s.autoAck then some data else none
  { s with phase := .suspended, yields := s.yields ++ [message] }

/-- Without a request, a stream message is acknowledged. -/
def State.skipData (s : State) (data : StartData) : State :=
  if data.isStream && s.autoAck then { s with phase := .acking } else s.nextRound

/-- Behind the `yield`. -/
def State.accept (s : State) : State :=
  let acceptedCount := s.acceptedCount + 1
  if s.startRequestLimitReached acceptedCount then { s with acceptedCount, phase := .ended }
  else { s with acceptedCount }.nextRound

/-- One step. -/
def State.step (s : State) : Event → Option State
  | .resume =>
    match s.phase with
    | .created => some s.nextRound
    | .suspended => some s.accept
    | _ => none
  | .close =>
    match s.phase with
    | .created | .suspended => some { s with phase := .ended }
    | _ => none
  | .setStop => some { s with stopEvent := true }
  | .popEnds outcome =>
    match s.phase with
    | .racing none stopped => some (s.popped outcome (.racing (some outcome) stopped))
    | .settlingPop => some (s.popped outcome .leaving)
    | .unwinding false => some (s.popped outcome (.unwinding true))
    | .abandoned => some (s.popped outcome .ended)
    | _ => none
  | .stopTaskEnds =>
    match s.phase with
    | .racing pop false => if s.stopEvent then some { s with phase := .racing pop true } else none
    | .settlingStop outcome => some (s.received outcome)
    | _ => none
  | .wake =>
    match s.phase with
    | .racing (some outcome) false => some { s with phase := .settlingStop outcome }
    | .racing (some _) true => some { s with phase := .leaving }
    | .racing none true => some { s with phase := .settlingPop }
    | _ => none
  | .made request =>
    match s.phase with
    | .making data => some (if request then s.yieldRequest data else s.skipData data)
    | _ => none
  | .makeRaises =>
    match s.phase with
    | .making _ => some { s with phase := .ended }
    | _ => none
  | .acked =>
    match s.phase with
    | .acking => some s.nextRound
    | _ => none
  | .ackRaises =>
    match s.phase with
    | .acking => some { s with phase := .ended }
    | _ => none
  | .gathered =>
    match s.phase with
    | .leaving | .unwinding true => some { s with phase := .ended }
    | _ => none
  | .cancel =>
    match s.phase with
    | .racing pop _ => some { s with phase := .unwinding pop.isSome }
    | .settlingPop | .unwinding false => some { s with phase := .abandoned }
    | .settlingStop _ | .leaving | .making _ | .acking | .unwinding true =>
      some { s with phase := .ended }
    | _ => none

/-- The runs of `start`. -/
def machine : Machine State Event where
  init s := ∃ limit autoAck, s = .start limit autoAck
  step := State.step

end ScrapyCffi.Spiders
