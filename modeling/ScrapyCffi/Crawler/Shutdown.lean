import ScrapyCffi.Base.Machine

/-!
# Shutting a crawler down

`start_engines`, `_prepare_shutdown`, `_close_runtime_state`, the passes of the preparation and
`shutdown` of `Crawler` (`crawler.py:284–449`), with `RedisScheduler.requeue_inflight`
(`core/scheduler/redis.py:102–121`), between their `await`s. Any number of callers run at once.
A request is named by its spider and the number of its lease.
-/

namespace ScrapyCffi.Shutdown

open ScrapyCffi.Base

/-- A start message of a stream, which is acknowledged, or of a list. -/
structure StartMessage where
  requestId : Nat
  isStream : Bool
  deriving DecidableEq

/-- What the preparation awaits. -/
inductive Call (σ : Type)
  | cancelAll (engine : Nat)
  | requeue (spider : σ)
  | persist (spider : σ)
  | cleanup (spider : σ)
  deriving DecidableEq

/-- The engines, the spiders and their schedulers: whether a scheduler has `requeue_inflight` and
`persist_all_sessions`, `SCHEDULER_PERSIST`, and whether `_persist_scheduler_sessions` runs. -/
structure Crawler (σ : Type) where
  engines : List Nat
  spiders : List σ
  requeues : σ → Bool
  persists : σ → Bool
  schedulerPersist : Bool
  persistSessions : Bool

variable {σ : Type}

/-- The spiders of `_requeue_scheduler_inflight`. -/
def Crawler.requeued (c : Crawler σ) : List σ := c.spiders.filter c.requeues

/-- The spiders of `_persist_scheduler_sessions`. -/
def Crawler.persisted (c : Crawler σ) : List σ :=
  if c.schedulerPersist && c.persistSessions then c.spiders.filter c.persists else []

/-- The spiders of `_cleanup_scheduler_state`. -/
def Crawler.cleaned (c : Crawler σ) : List σ := if c.schedulerPersist then [] else c.spiders

/-- Where a preparation is: what it has still to go through in the pass that runs, and for
`pushing` and `returning` the spider whose `requeue_inflight` runs, with the rounds left of its two
loops. `added` tells that the first message is back in its stream and not acknowledged. -/
inductive Stage (σ : Type)
  | cancelling (engines : List Nat)
  | requeueing (spiders : List σ)
  | pushing (spider : σ) (requests : List Nat) (spiders : List σ)
  | returning (spider : σ) (messages : List StartMessage) (added : Bool) (spiders : List σ)
  | persisting (spiders : List σ)
  | cleaning (spiders cleaned : List σ)
  deriving DecidableEq

/-- The `await`s of `_close_runtime_state`. -/
inductive RuntimeStep
  | processes
  | sessions
  | signals
  | extensions
  deriving DecidableEq

/-- Where a call of `start_engines` or of `shutdown` is. -/
inductive Phase (σ : Type)
  | running
  | signalling
  | preparing
  | closingRuntime
  | cleaning (spiders : List σ)
  | closing
  | over (raised : Bool)
  deriving DecidableEq

/-- A call of `shutdown`, or of `start_engines`. -/
structure Caller (σ : Type) where
  isShutdown : Bool
  phase : Phase σ
  deriving DecidableEq

/-- The `_inflight_requests` of the schedulers. The other fields are history: all requests ever
leased, pushed by `requeue_inflight` and completed, and those that were leased when the last
preparation began. -/
structure Ledger (σ : Type) where
  inflightRequests : List (σ × Nat)
  leases : List (σ × Nat)
  pushed : List (σ × Nat)
  completed : List (σ × Nat)
  present : List (σ × Nat)

/-- The crawler with the holders of its two locks, and with the requests and `_start_requests` of
its schedulers. `attempts` counts the preparations begun, and `returned` is what has returned in
the last one. -/
structure State (σ : Type) where
  shutdownPrepared : Bool
  stopEvent : Bool
  runtimeClosed : Bool
  resourcesClosing : Bool
  shutdownLock : Option (Nat × Stage σ)
  runtimeLock : Option (Nat × RuntimeStep)
  cleanedSchedulerState : List σ
  callers : List (Caller σ)
  startRequests : List (σ × StartMessage)
  requests : Ledger σ
  attempts : Nat
  returned : List (Call σ)

/-- A crawler that nobody has started. -/
def State.init : State σ where
  shutdownPrepared := false
  stopEvent := false
  runtimeClosed := false
  resourcesClosing := false
  shutdownLock := none
  runtimeLock := none
  cleanedSchedulerState := []
  callers := []
  startRequests := []
  requests := ⟨[], [], [], [], []⟩
  attempts := 0
  returned := []

/-- A preparation begins. -/
def Ledger.begin (l : Ledger σ) : Ledger σ := { l with present := l.inflightRequests }

/-- A scheduler leases a request. -/
def Ledger.lease (l : Ledger σ) (spider : σ) : Ledger σ :=
  let request := (spider, l.leases.length)
  { l with
    inflightRequests := l.inflightRequests ++ [request]
    leases := l.leases ++ [request] }

/-- The phase of a call. -/
def State.phase (s : State σ) (caller : Nat) : Option (Phase σ) := s.callers[caller]?.map (·.phase)

/-- A call goes on. -/
def State.setPhase (s : State σ) (caller : Nat) (phase : Phase σ) : State σ :=
  { s with callers := s.callers.modify caller fun c ↦ { c with phase } }

/-- The preparation goes on. -/
def State.setStage (s : State σ) (caller : Nat) (stage : Stage σ) : State σ :=
  { s with shutdownLock := some (caller, stage) }

/-- A call that the preparation awaits is over. -/
def State.record (s : State σ) (call : Call σ) : State σ :=
  { s with returned := s.returned ++ [call] }

/-- `shutdown` or `start_engines` is called. -/
def State.call (s : State σ) (isShutdown : Bool) : State σ :=
  { s with callers := s.callers ++ [⟨isShutdown, if isShutdown then .preparing else .running⟩] }

/-- All engines of `start_engines` are over, or it is cancelled. -/
def State.runOver (s : State σ) (caller : Nat) : Option (State σ) :=
  match s.phase caller with
  | some .running => some (s.setPhase caller .signalling)
  | _ => none

/-- The terminal signal is put. -/
def State.signalled (s : State σ) (caller : Nat) : Option (State σ) :=
  match s.phase caller with
  | some .signalling => some (s.setPhase caller .preparing)
  | _ => none

/-- A caller gets `_shutdown_lock`. -/
def State.prepareShutdown (c : Crawler σ) (s : State σ) (caller : Nat) : Option (State σ) :=
  match s.shutdownLock, s.phase caller with
  | none, some .preparing =>
    if s.shutdownPrepared then some (s.setPhase caller .closingRuntime)
    else some (({ s with
      attempts := s.attempts + 1
      requests := s.requests.begin
      returned := [] } : State σ).setStage caller (.cancelling c.engines))
  | _, _ => none

/-- The end of `_prepare_shutdown`. -/
def State.prepared (c : Crawler σ) (s : State σ) (caller : Nat) (cleaned : List σ) : State σ :=
  ({ s with
    cleanedSchedulerState := if c.schedulerPersist then s.cleanedSchedulerState else cleaned
    stopEvent := true
    shutdownPrepared := true
    shutdownLock := none } : State σ).setPhase caller .closingRuntime

variable [DecidableEq σ]

/-- The requests that a scheduler has leased. -/
def Ledger.inflight (l : Ledger σ) (spider : σ) : List Nat :=
  (l.inflightRequests.filter (·.1 = spider)).map Prod.snd

/-- `requeue_inflight` has pushed a request. -/
def Ledger.push (l : Ledger σ) (request : σ × Nat) : Ledger σ :=
  { l with
    inflightRequests := l.inflightRequests.erase request
    pushed := l.pushed ++ [request] }

/-- `complete_request`. -/
def Ledger.complete (l : Ledger σ) (request : σ × Nat) : Ledger σ :=
  if request ∈ l.inflightRequests then
    { l with
      inflightRequests := l.inflightRequests.erase request
      completed := l.completed ++ [request] }
  else l

/-- The start messages of a scheduler. -/
def State.startMessages (s : State σ) (spider : σ) : List StartMessage :=
  (s.startRequests.filter (·.1 = spider)).map Prod.snd

/-- The preparation goes on without an `await`: a loop takes its next round, or ends. -/
def State.advance (c : Crawler σ) (s : State σ) : Option (State σ) :=
  match s.shutdownLock with
  | some (caller, .cancelling []) => some (s.setStage caller (.requeueing c.requeued))
  | some (caller, .requeueing []) => some (s.setStage caller (.persisting c.persisted))
  | some (caller, .requeueing (spider :: spiders)) =>
    some (s.setStage caller (.pushing spider (s.requests.inflight spider) spiders))
  | some (caller, .pushing spider [] spiders) =>
    some (s.setStage caller (.returning spider (s.startMessages spider) false spiders))
  | some (caller, .returning spider [] _ spiders) =>
    some ((s.record (.requeue spider)).setStage caller (.requeueing spiders))
  | some (caller, .persisting []) => some (s.setStage caller (.cleaning c.cleaned []))
  | some (caller, .cleaning [] cleaned) => some (s.prepared c caller cleaned)
  | some (caller, .cleaning (spider :: spiders) cleaned) =>
    if spider ∈ cleaned then
      some ((s.record (.cleanup spider)).setStage caller (.cleaning spiders cleaned))
    else none
  | _ => none

/-- What the preparation awaits returns: `cancel_all`, the push of a request (its reply, the length
of the list, is not 0), of a start message or its acknowledgement, `persist_all_sessions`, or the
clean-up of a spider, which has `succeeded` unless its exceptions are logged. -/
def State.returns (s : State σ) (succeeded : Bool) : Option (State σ) :=
  match s.shutdownLock with
  | some (caller, .cancelling (engine :: engines)) =>
    some ((s.record (.cancelAll engine)).setStage caller (.cancelling engines))
  | some (caller, .pushing spider (request :: requests) spiders) =>
    some (({ s with requests := s.requests.push (spider, request) } : State σ).setStage caller
      (.pushing spider requests spiders))
  | some (caller, .returning spider (message :: messages) added spiders) =>
    if message.isStream && !added then
      some (s.setStage caller (.returning spider (message :: messages) true spiders))
    else
      some (({ s with startRequests := s.startRequests.erase (spider, message) } :
        State σ).setStage caller (.returning spider messages false spiders))
  | some (caller, .persisting (spider :: spiders)) =>
    some ((s.record (.persist spider)).setStage caller (.persisting spiders))
  | some (caller, .cleaning (spider :: spiders) cleaned) =>
    if spider ∈ cleaned then none
    else
      some ((s.record (.cleanup spider)).setStage caller
        (.cleaning spiders (if succeeded then spider :: cleaned else cleaned)))
  | _ => none

/-- What the preparation awaits raises, or its caller is cancelled. A push whose reply is lost has
raised. -/
def State.raises (s : State σ) : Option (State σ) :=
  match s.shutdownLock with
  | some (caller, _) => some ({ s with shutdownLock := none }.setPhase caller (.over true))
  | none => none

/-- What follows `_close_runtime_state`. -/
def State.closedRuntime (c : Crawler σ) (s : State σ) (caller : Nat) : State σ :=
  let shutdown := s.callers[caller]?.any (·.isShutdown)
  s.setPhase caller (if shutdown then .cleaning c.cleaned else .over false)

/-- A caller gets `_runtime_close_lock`. -/
def State.closeRuntime (c : Crawler σ) (s : State σ) (caller : Nat) : Option (State σ) :=
  match s.runtimeLock, s.phase caller with
  | none, some .closingRuntime =>
    if s.runtimeClosed then some (s.closedRuntime c caller)
    else some { s with runtimeLock := some (caller, .processes) }
  | _, _ => none

/-- What the holder of `_runtime_close_lock` awaits returns. -/
def State.runtimeReturns (c : Crawler σ) (s : State σ) : Option (State σ) :=
  match s.runtimeLock with
  | some (caller, .processes) => some { s with runtimeLock := some (caller, .sessions) }
  | some (caller, .sessions) => some { s with runtimeLock := some (caller, .signals) }
  | some (caller, .signals) => some { s with runtimeLock := some (caller, .extensions) }
  | some (caller, .extensions) =>
    some ({ s with runtimeClosed := true, runtimeLock := none }.closedRuntime c caller)
  | none => none

/-- What the holder of `_runtime_close_lock` awaits raises, or it is cancelled. -/
def State.runtimeRaises (s : State σ) : Option (State σ) :=
  match s.runtimeLock with
  | some (caller, _) => some ({ s with runtimeLock := none }.setPhase caller (.over true))
  | none => none

/-- The clean-up at the end of `shutdown` goes on: a spider that is clean is left out, another
is clean when its clean-up has `succeeded`, and `resources.close` is called in the end. -/
def State.cleanup (s : State σ) (caller : Nat) (succeeded : Bool) : Option (State σ) :=
  match s.phase caller with
  | some (.cleaning []) => some ({ s with resourcesClosing := true }.setPhase caller .closing)
  | some (.cleaning (spider :: spiders)) =>
    some (({ s with
      cleanedSchedulerState :=
        if succeeded && spider ∉ s.cleanedSchedulerState then spider :: s.cleanedSchedulerState
        else s.cleanedSchedulerState } : State σ).setPhase caller (.cleaning spiders))
  | _ => none

/-- `resources.close` returns. -/
def State.closed (s : State σ) (caller : Nat) : Option (State σ) :=
  match s.phase caller with
  | some .closing => some (s.setPhase caller (.over false))
  | _ => none

/-- A call that holds no lock raises or is cancelled; `start_engines` raises after it has run. -/
def State.abandon (s : State σ) (caller : Nat) : Option (State σ) :=
  if s.shutdownLock.any (·.1 = caller) ∨ s.runtimeLock.any (·.1 = caller) then none
  else
    match s.phase caller with
    | some .running | none => none
    | some _ => some (s.setPhase caller (.over true))

/-- What happens. -/
inductive Event (σ : Type)
  | call (isShutdown : Bool)
  | runOver (caller : Nat)
  | signalled (caller : Nat)
  | prepareShutdown (caller : Nat)
  | advance
  | returns (succeeded : Bool)
  | raises
  | closeRuntime (caller : Nat)
  | runtimeReturns
  | runtimeRaises
  | cleanup (caller : Nat) (succeeded : Bool)
  | closed (caller : Nat)
  | abandon (caller : Nat)
  | lease (spider : σ)
  | attachStartRequest (spider : σ) (message : StartMessage)
  | complete (request : σ × Nat)
  deriving DecidableEq

/-- One event. -/
def State.step (c : Crawler σ) (s : State σ) : Event σ → Option (State σ)
  | .call isShutdown => some (s.call isShutdown)
  | .runOver caller => s.runOver caller
  | .signalled caller => s.signalled caller
  | .prepareShutdown caller => s.prepareShutdown c caller
  | .advance => s.advance c
  | .returns succeeded => s.returns succeeded
  | .raises => s.raises
  | .closeRuntime caller => s.closeRuntime c caller
  | .runtimeReturns => s.runtimeReturns c
  | .runtimeRaises => s.runtimeRaises
  | .cleanup caller succeeded => s.cleanup caller succeeded
  | .closed caller => s.closed caller
  | .abandon caller => s.abandon caller
  | .lease spider => some { s with requests := s.requests.lease spider }
  | .attachStartRequest spider message =>
    some { s with startRequests := s.startRequests ++ [(spider, message)] }
  | .complete request => some { s with requests := s.requests.complete request }

/-- Every interleaving. -/
def machine (c : Crawler σ) : Machine (State σ) (Event σ) where
  init s := s = State.init
  step := State.step c

end ScrapyCffi.Shutdown
