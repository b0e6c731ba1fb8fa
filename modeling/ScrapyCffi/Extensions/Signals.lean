import Mathlib.Data.List.Nodup
import Mathlib.Logic.Function.Basic
import ScrapyCffi.Base.Machine

/-!
# The signal manager

`SignalManager` (`scrapy_cffi/extensions/signal_manager.py:58–146`): the enqueues that `send`
schedules, the consumer task, the callback tasks and one call of `stop`, at each of their awaits.
The listeners of a signal are called one after the other in steps of their own, so that a listener
can itself connect and send.
-/

namespace ScrapyCffi.Extensions

open ScrapyCffi.Base

/-- A subscriber, by what `inspect.iscoroutinefunction` says of it. -/
inductive Listener
  | coroutineFunction
  | callable
  deriving DecidableEq

/-- How the call of a `callable` ends: `raised` is an `Exception`, `interrupted` a
`CancelledError`. -/
inductive Answer
  | returned
  | awaitable
  | raised
  | interrupted
  deriving DecidableEq

variable (σ δ : Type)

/-- A signal with its data, where `none` is Python's `None`; `registered` is the number of its
listeners when it was sent. -/
structure Item where
  serial : Nat
  signal : Option σ
  data : δ
  registered : Nat
  deriving DecidableEq

/-- `_safe_put`, as one of `_put_tasks` or awaited by its caller. -/
structure Put where
  item : Item σ δ
  owned : Bool
  /-- Whether it waits for room, for a tenth of a second at most. -/
  waiting : Bool
  deriving DecidableEq

/-- The call of the listener at a position. -/
structure Call where
  item : Item σ δ
  position : Nat
  deriving DecidableEq

/-- Where `run` is suspended, or in `_dispatch`. -/
inductive Consumer
  /-- In `self._queue.get()`. -/
  | getting
  | dispatching (item : Item σ δ) (next : Nat)
  /-- In the `gather` of its handler for `CancelledError`. -/
  | cancelling
  | returned
  | raised
  deriving DecidableEq

/-- Where `stop` is suspended. -/
inductive Stop
  | notCalled
  /-- In the `gather` of the put tasks with these signals. -/
  | gathering (items : List (Item σ δ))
  /-- In the `put` of `(None, None)`. -/
  | sentinel
  /-- In `await self._run_task`. -/
  | joining
  /-- In the `gather` of these callback tasks. -/
  | callbacks (awaited : List (Call σ δ))
  | returned
  | raised
  deriving DecidableEq

/-- The manager; in its queue `none` is `(None, None)`. `running` are the callbacks that have
started and not ended. `enqueued`, `dropped`, `handled` with the number of listeners called, and
`calls` are history, and so is `owed`: what `stop` has to dispatch. -/
structure Manager where
  listeners : Option σ → List Listener
  stopEvent : Bool
  sent : Nat
  puts : List (Put σ δ)
  queue : List (Option (Item σ δ))
  consumer : Consumer σ δ
  running : List (Call σ δ)
  pending : List (Call σ δ)
  stop : Stop σ δ
  enqueued : List (Item σ δ)
  dropped : List (Item σ δ)
  handled : List (Item σ δ × Nat)
  calls : List (Call σ δ)
  owed : List (Item σ δ)

/-- A step of a task. -/
inductive Event
  | connect (signal : Option σ) (listener : Listener)
  | setStopEvent
  | send (signal : Option σ) (data : δ)
  /-- `_safe_put` is awaited by its caller. -/
  | safePut (signal : Option σ) (data : δ)
  | enqueue (put : Put σ δ)
  /-- An enqueue finds the queue full. -/
  | wait (put : Put σ δ)
  /-- An enqueue times out. -/
  | drop (put : Put σ δ)
  | get
  /-- The next listener is a coroutine function: its task is created. -/
  | start
  /-- The next listener is called. -/
  | call (answer : Answer)
  /-- No listener is left. -/
  | dispatched
  /-- A callback ends or fails. -/
  | ended (call : Call σ δ)
  /-- The callback tasks of a cancelled consumer have ended. -/
  | cancelled
  /-- `stop` is called. -/
  | stop
  /-- `stop` runs to its next await. -/
  | proceed

variable {σ δ} [DecidableEq σ] [DecidableEq δ]

namespace Manager

/-- A started manager. -/
def init : Manager σ δ where
  listeners _ := []
  stopEvent := false
  sent := 0
  puts := []
  queue := []
  consumer := .getting
  running := []
  pending := []
  stop := .notCalled
  enqueued := []
  dropped := []
  handled := []
  calls := []
  owed := []

/-- `self._queue.full()`; a queue with `maxsize` 0 has no bound. -/
def full (s : Manager σ δ) (maxsize : Nat) : Bool :=
  decide (0 < maxsize) && decide (maxsize ≤ s.queue.length)

/-- A call of `_safe_put` for a signal with listeners. -/
def put (s : Manager σ δ) (signal : Option σ) (data : δ) (owned : Bool) : Manager σ δ :=
  { s with
    sent := s.sent + 1
    puts := s.puts ++ [⟨⟨s.sent, signal, data, (s.listeners signal).length⟩, owned, false⟩] }

/-- The items of the put tasks that have not ended. -/
def putting (s : Manager σ δ) : List (Item σ δ) := s.puts.map (·.item)

/-- The call of the next listener has been made. -/
def called (s : Manager σ δ) (item : Item σ δ) (next : Nat) : Manager σ δ :=
  { s with
    consumer := .dispatching item (next + 1)
    calls := s.calls ++ [⟨item, next⟩] }

/-- `_run_callback` in a task of its own. -/
def startCallback (s : Manager σ δ) (item : Item σ δ) (next : Nat) : Manager σ δ :=
  { s.called item next with
    running := s.running ++ [⟨item, next⟩]
    pending := s.pending ++ [⟨item, next⟩] }

/-- `callback(data)`, whose result is not looked at. -/
def callListener (s : Manager σ δ) (item : Item σ δ) (next : Nat) : Answer → Manager σ δ
  | .returned | .raised => s.called item next
  | .awaitable => { s.called item next with running := s.running ++ [⟨item, next⟩] }
  | .interrupted => { s.called item next with consumer := .cancelling }

/-- `run` with what it gets from the queue. -/
def take (s : Manager σ δ) : Option (Item σ δ) → Manager σ δ
  | none => { s with consumer := .returned }
  | some item =>
    if item.signal = none then { s with consumer := .returned }
    else { s with consumer := .dispatching item 0 }

/-- `stop` up to its next await. -/
def proceed (s : Manager σ δ) (maxsize : Nat) : Option (Manager σ δ) :=
  match s.stop with
  | .gathering items =>
    if items.any fun item ↦ s.putting.contains item then none
    else
      match s.consumer with
      | .returned | .raised => some { s with stop := .joining }
      | _ => some { s with stop := .sentinel }
  | .sentinel =>
    if s.full maxsize then none
    else some { s with queue := s.queue ++ [none], stop := .joining }
  | .joining =>
    match s.consumer with
    | .returned => some { s with stop := .callbacks s.pending }
    | .raised => some { s with stop := .raised }
    | _ => none
  | .callbacks awaited =>
    if awaited.any fun call ↦ s.pending.contains call then none
    else some { s with stop := .returned }
  | _ => none

/-- One event. -/
def step (maxsize : Nat) (s : Manager σ δ) : Event σ δ → Option (Manager σ δ)
  | .connect signal listener => some { s with
      listeners := Function.update s.listeners signal (s.listeners signal ++ [listener]) }
  | .setStopEvent => some { s with stopEvent := true }
  | .send signal data =>
    if s.stopEvent ∨ s.listeners signal = [] then some s else some (s.put signal data true)
  | .safePut signal data =>
    if s.listeners signal = [] then some s else some (s.put signal data false)
  | .enqueue put =>
    if s.puts.contains put ∧ s.full maxsize = false then
      some { s with
        puts := s.puts.erase put
        queue := s.queue ++ [some put.item]
        enqueued := s.enqueued ++ [put.item] }
    else none
  | .wait put =>
    if s.puts.contains put ∧ s.full maxsize = true ∧ put.waiting = false then
      some { s with puts := s.puts.map fun p ↦ if p = put then { p with waiting := true } else p }
    else none
  | .drop put =>
    if s.puts.contains put ∧ put.waiting = true then
      some { s with puts := s.puts.erase put, dropped := s.dropped ++ [put.item] }
    else none
  | .get =>
    match s.consumer, s.queue with
    | .getting, head :: rest => some ({ s with queue := rest }.take head)
    | _, _ => none
  | .start =>
    match s.consumer with
    | .dispatching item next =>
      if (s.listeners item.signal)[next]? = some .coroutineFunction then
        some (s.startCallback item next)
      else none
    | _ => none
  | .call answer =>
    match s.consumer with
    | .dispatching item next =>
      if (s.listeners item.signal)[next]? = some .callable then
        some (s.callListener item next answer)
      else none
    | _ => none
  | .dispatched =>
    match s.consumer with
    | .dispatching item next =>
      if (s.listeners item.signal)[next]? = none then
        some { s with consumer := .getting, handled := s.handled ++ [(item, next)] }
      else none
    | _ => none
  | .ended call =>
    if s.running.contains call then
      some { s with
        running := s.running.filter (· ≠ call)
        pending := s.pending.filter (· ≠ call) }
    else none
  | .cancelled =>
    match s.consumer, s.pending with
    | .cancelling, [] => some { s with consumer := .raised }
    | _, _ => none
  | .stop =>
    match s.stop with
    | .notCalled =>
      let items := (s.puts.filter (·.owned)).map (·.item)
      some { s with stop := .gathering items, owed := s.enqueued ++ items }
    | _ => none
  | .proceed => s.proceed maxsize

end Manager

/-- Every interleaving on a started manager. -/
def machine (σ δ : Type) [DecidableEq σ] [DecidableEq δ] (maxsize : Nat) :
    Machine (Manager σ δ) (Event σ δ) where
  init s := s = .init
  step := Manager.step maxsize

end ScrapyCffi.Extensions
