import ScrapyCffi.Base.Table
import ScrapyCffi.Sessions.WebSockets

/-!
# Listeners of WebSocket connections

The pools of concrete sessions with their listener tasks, `process_websocket_request` and
`do_websocket_connect` (`core/engine.py:414–478`), `fetch_websocket` and `_websocket_listener`
(`core/downloader/fetch.py:207–324`), `WebSocketEntry` and `WebSocketPool`
(`core/sessions.py:81–312`), between their `await`s. A request gets a number that is also that of
the entry, the listener and the connection it makes.
-/

namespace ScrapyCffi.Sessions.Listeners

open ScrapyCffi.Base ScrapyCffi.Sessions.WebSockets

/-- A session's wrapper and a key of its pool. -/
abbrev Place := Nat × String

/-- `WebSocketEntry` with its place, its listener task and `closed_event`. -/
structure Handle extends Entry where
  place : Place
  task : Option Nat
  closedEvent : Bool
  deriving DecidableEq

/-- Where a listener awaits: the connection, the sending of the request's messages, of which
`rest` is left, the next message of the server, or the end of the connection, behind the lock of
`close`, after that of another listener of the entry. -/
inductive Listening
  | connecting
  | sending (rest : List String)
  | receiving
  | closing (socket listener : Option Nat)
  | ended
  deriving DecidableEq

/-- The task of `_websocket_listener`. -/
structure Listener where
  place : Place
  entry : Nat
  phase : Listening
  cancelled : Bool
  deriving DecidableEq

/-- Where the task of a request awaits: the sending of its messages on an entry, of which `rest`
is left, `closed_event` of its entry, the listener that its `close` cancelled, or nothing. -/
inductive Processing
  | sending (entry : Nat) (rest : List String)
  | waiting (entry : Nat)
  | closing (entry : Nat) (socket listener : Option Nat)
  | completed
  | raised
  deriving DecidableEq

/-- The task of a request; `reported` tells that an error went to the interceptor chain. -/
structure Task where
  request : Request
  place : Place
  phase : Processing
  reported : Bool
  deriving DecidableEq

/-- A `close` of the reaper that awaits the listener it cancelled. -/
structure Reaping where
  socket : Option Nat
  listener : Option Nat
  deriving DecidableEq

/-- The pools, and what runs. `popped` are the wrappers that the reaper took away from their
session, `live` the connections, and `sent` the messages that were sent, by task and
connection. -/
structure State where
  pool : Place → Option Nat
  entries : Nat → Option Handle
  listeners : Nat → Option Listener
  tasks : Nat → Option Task
  reaping : Nat → Option Reaping
  popped : Nat → Bool
  live : Nat → Bool
  next : Nat
  sent : List (Nat × Nat × String)

/-- Nothing has been processed. -/
def State.initial : State where
  pool _ := none
  entries _ := none
  listeners _ := none
  tasks _ := none
  reaping _ := none
  popped _ := false
  live _ := false
  next := 0
  sent := []

/-- Change an entry. -/
def State.modifyEntry (s : State) (entry : Nat) (f : Handle → Handle) : State :=
  { s with entries := Function.update s.entries entry ((s.entries entry).map f) }

/-- Change a listener. -/
def State.modifyListener (s : State) (n : Nat) (f : Listener → Listener) : State :=
  { s with listeners := Function.update s.listeners n ((s.listeners n).map f) }

/-- Change a task. -/
def State.modifyTask (s : State) (n : Nat) (f : Task → Task) : State :=
  { s with tasks := Function.update s.tasks n ((s.tasks n).map f) }

/-- `closed_event.set()`. -/
def State.setClosed (s : State) (entry : Nat) : State :=
  s.modifyEntry entry fun handle ↦ { handle with closedEvent := true }

/-- The locked part of `close`. -/
def State.lockClosed (s : State) (entry : Nat) : State :=
  s.modifyEntry entry fun handle ↦ { handle with stopEvent := true, closed := true }

/-- `listener_task.cancel()`, which a finished task ignores. -/
def State.cancel (s : State) (listener : Option Nat) : State :=
  match listener with
  | none => s
  | some n => s.modifyListener n fun listener ↦ { listener with cancelled := true }

/-- `websocket.close()`. -/
def State.closeSocket (s : State) (socket : Option Nat) : State :=
  match socket with
  | none => s
  | some n => { s with live := Function.update s.live n false }

/-- Whether a listener task is done. -/
def State.done (s : State) (listener : Option Nat) : Bool :=
  match listener with
  | none => true
  | some n => (s.listeners n).all (·.phase = .ended)

/-- The `finally` of a listener, up to its next `await`: `entry.close()`. -/
def State.finally (s : State) (n : Nat) (entry : Nat) : State :=
  match s.entries entry with
  | none => s
  | some handle =>
    if handle.closed then
      (s.setClosed entry).modifyListener n fun l ↦ { l with phase := .ended }
    else
      let other := if handle.task = some n then none else handle.task
      ((s.lockClosed entry).cancel other).modifyListener n
        fun l ↦ { l with phase := .closing handle.websocket other }

variable (key : String → Digest)

/-- `do_websocket_connect` up to `wait_closed`. -/
def State.connect (s : State) (wrapper : Nat) (request : Request) : State :=
  let place : Place := (wrapper, key request.url)
  let n := s.next
  let entry := (s.pool place).getD n
  let handle := ((s.pool place).bind s.entries).getD
    { Entry.init request.url with place, task := none, closedEvent := false }
  { s with
    pool := Function.update s.pool place (some entry)
    entries := Function.update s.entries entry (some { handle with task := some n })
    listeners := Function.update s.listeners n (some ⟨place, entry, .connecting, false⟩)
    tasks := Function.update s.tasks n (some ⟨request, place, .waiting entry, false⟩)
    next := n + 1 }

/-- A task that is over at once. -/
def State.finish (s : State) (place : Place) (request : Request) (phase : Processing)
    (reported : Bool) : State :=
  { s with
    tasks := Function.update s.tasks s.next (some ⟨request, place, phase, reported⟩)
    next := s.next + 1 }

/-- `process_websocket_request`, up to its first `await`. -/
def State.process (s : State) (wrapper : Nat) (request : Request) : State :=
  let place : Place := (wrapper, request.poolKey key)
  let found := (s.pool place).bind fun entry ↦ (s.entries entry).map (entry, ·)
  if request.url = "" then s.finish place request .raised false
  else if request.websocketId ≠ "" ∧ found.bind (·.2.websocket) = none then
    s.finish place request .completed true
  else
    match found with
    | some (entry, handle) =>
      if request.sendMessage = [] then s.connect key wrapper request
      else if handle.websocket = none then
        (s.modifyEntry entry fun handle ↦ { handle with toEntry := handle.toEntry.release }).finish
          place request .completed false
      else s.finish place request (.sending entry request.sendMessage) false
    | none => s.connect key wrapper request

/-- The next message of the loop of `process_websocket_request` is sent. -/
def State.send (s : State) (n : Nat) : Option State :=
  match s.tasks n with
  | some ⟨_, _, .sending entry (message :: rest), _⟩ =>
    match (s.entries entry).bind (·.websocket) with
    | none => none
    | some socket =>
      if s.live socket then
        let s := { s with sent := s.sent ++ [(n, socket, message)] }
        if rest = [] then
          some ((s.modifyEntry entry fun handle ↦
            { handle with toEntry := handle.toEntry.release }).modifyTask n
              fun task ↦ { task with phase := .completed })
        else some (s.modifyTask n fun task ↦ { task with phase := .sending entry rest })
      else none
  | _ => none

/-- The sending of the next message raises. -/
def State.sendRaises (s : State) (n : Nat) : Option State :=
  match s.tasks n with
  | some ⟨_, _, .sending _ _, _⟩ => some (s.modifyTask n fun task ↦ { task with phase := .raised })
  | _ => none

/-- An error goes to the interceptor chain. -/
def State.report (s : State) (n : Nat) : State :=
  s.modifyTask n fun task ↦ { task with reported := true }

/-- `do_request` returns a connection; `stopping` is the crawler's stop event. -/
def State.connected (s : State) (n : Nat) (stopping : Bool) : Option State :=
  match s.listeners n, s.tasks n with
  | some ⟨place, entry, .connecting, false⟩, some task =>
    let s := { s with live := Function.update s.live n true }
    match s.pool place with
    | none => some ((s.report n).finally n entry)
    | some registered =>
      let s := s.modifyEntry registered fun handle ↦ { handle with websocket := some n }
      if stopping ∨ (s.entries entry).any (·.stopEvent) then some (s.finally n entry)
      else
        let phase := if task.request.sendMessage = [] then Listening.receiving
          else .sending task.request.sendMessage
        some (s.modifyListener n fun l ↦ { l with phase })
  | _, _ => none

/-- The listener sends the next message of its request. -/
def State.listenerSend (s : State) (n : Nat) : Option State :=
  match s.listeners n with
  | some ⟨_, _, .sending (message :: rest), false⟩ =>
    if s.live n then
      let phase := if rest = [] then Listening.receiving else .sending rest
      some ({ s with sent := s.sent ++ [(n, n, message)] }.modifyListener n
        fun l ↦ { l with phase })
    else none
  | _ => none

/-- The connection, a sending or the receiving of a listener raises. -/
def State.failed (s : State) (n : Nat) : Option State :=
  match s.listeners n with
  | some ⟨_, entry, .connecting, false⟩ | some ⟨_, entry, .sending _, false⟩
  | some ⟨_, entry, .receiving, false⟩ => some ((s.report n).finally n entry)
  | _ => none

/-- The loop of a listener ends: a stop, or a message that closes. -/
def State.stopped (s : State) (n : Nat) : Option State :=
  match s.listeners n with
  | some ⟨_, entry, .receiving, false⟩ => some (s.finally n entry)
  | _ => none

/-- `close` of a listener is through. -/
def State.closed (s : State) (n : Nat) : Option State :=
  match s.listeners n with
  | some ⟨_, entry, .closing socket listener, false⟩ =>
    if s.done listener then
      some (((s.closeSocket socket).setClosed entry).modifyListener n
        fun l ↦ { l with phase := .ended })
    else none
  | _ => none

/-- A cancelled listener unwinds; its entry is closed already. -/
def State.unwound (s : State) (n : Nat) : Option State :=
  match s.listeners n with
  | some ⟨_, _, .ended, _⟩ => none
  | some ⟨_, entry, _, true⟩ =>
    some ((s.setClosed entry).modifyListener n fun l ↦ { l with phase := .ended })
  | _ => none

/-- Remove an entry from its pool. -/
def State.remove (s : State) (place : Place) : State :=
  { s with pool := Function.update s.pool place none }

/-- `wait_closed` returns, and `close_websocket` goes up to its next `await`. -/
def State.resume (s : State) (n : Nat) : Option State :=
  match s.tasks n with
  | some ⟨_, place, .waiting entry, _⟩ =>
    if (s.entries entry).any (·.closedEvent) then
      match (s.pool place).bind fun entry ↦ (s.entries entry).map (entry, ·) with
      | none => some (s.modifyTask n fun task ↦ { task with phase := .completed })
      | some (registered, handle) =>
        if handle.closed then
          some (((s.setClosed registered).remove place).modifyTask n
            fun task ↦ { task with phase := .completed })
        else
          some (((s.lockClosed registered).cancel handle.task).modifyTask n
            fun task ↦ { task with phase := .closing registered handle.websocket handle.task })
    else none
  | _ => none

/-- A `close_websocket` that closed the entry itself is through. -/
def State.resumed (s : State) (n : Nat) : Option State :=
  match s.tasks n with
  | some ⟨_, place, .closing entry socket listener, _⟩ =>
    if s.done listener then
      some ((((s.closeSocket socket).setClosed entry).remove place).modifyTask n
        fun task ↦ { task with phase := .completed })
    else none
  | _ => none

/-- `close_all` of the reaper comes to an entry. -/
def State.reap (s : State) (place : Place) : Option State :=
  if s.popped place.1 then
    match (s.pool place).bind fun entry ↦ (s.entries entry).map (entry, ·) with
    | none => none
    | some (entry, handle) =>
      if handle.closed then some (s.setClosed entry)
      else
        let t := (s.lockClosed entry).cancel handle.task
        let reaping : Reaping := ⟨handle.websocket, handle.task⟩
        some { t with reaping := Function.update t.reaping entry (some reaping) }
  else none

/-- `close` of the reaper is through. -/
def State.reaped (s : State) (entry : Nat) : Option State :=
  match s.reaping entry with
  | none => none
  | some ⟨socket, listener⟩ =>
    if s.done listener then
      let t := (s.closeSocket socket).setClosed entry
      some { t with reaping := Function.update t.reaping entry none }
    else none

/-- `_pool.clear()`, for one key. -/
def State.cleared (s : State) (place : Place) : Option State :=
  if s.popped place.1 ∧ (s.pool place).all fun entry ↦
      (s.reaping entry).isNone && (s.entries entry).all (·.closed) then
    some (s.remove place)
  else none

/-- What happens. -/
inductive Event
  | process (wrapper : Nat) (request : Request)
  | send (n : Nat)
  | sendRaises (n : Nat)
  | connected (n : Nat) (stopping : Bool)
  | listenerSend (n : Nat)
  | failed (n : Nat)
  | stopped (n : Nat)
  | closed (n : Nat)
  | unwound (n : Nat)
  | resume (n : Nat)
  | resumed (n : Nat)
  /-- The spider interceptor retains an entry; `end_websocket` ends one; a callback or a ping
  stops one. -/
  | acquire (entry : Nat)
  | endWebsocket (entry : Nat)
  | requestStop (entry : Nat)
  /-- A connection breaks. -/
  | dropped (n : Nat)
  /-- The reaper takes a wrapper away, and closes its entries. -/
  | pop (wrapper : Nat)
  | reap (place : Place)
  | reaped (entry : Nat)
  | cleared (place : Place)
  deriving DecidableEq

/-- Change the references of an entry. -/
def State.refer (s : State) (entry : Nat) (f : Entry → Entry) : State :=
  s.modifyEntry entry fun handle ↦ { handle with toEntry := f handle.toEntry }

/-- One event. -/
def State.step (s : State) : Event → Option State
  | .process wrapper request =>
    if s.popped wrapper then none else some (s.process key wrapper request)
  | .send n => s.send n
  | .sendRaises n => s.sendRaises n
  | .connected n stopping => s.connected n stopping
  | .listenerSend n => s.listenerSend n
  | .failed n => s.failed n
  | .stopped n => s.stopped n
  | .closed n => s.closed n
  | .unwound n => s.unwound n
  | .resume n => s.resume n
  | .resumed n => s.resumed n
  | .acquire entry => some (s.refer entry Entry.acquire)
  | .endWebsocket entry => some (s.refer entry fun entry ↦ entry.markEnd.release)
  | .requestStop entry => some (s.refer entry Entry.requestStop)
  | .dropped n => some { s with live := Function.update s.live n false }
  | .pop wrapper => some { s with popped := Function.update s.popped wrapper true }
  | .reap place => s.reap place
  | .reaped entry => s.reaped entry
  | .cleared place => s.cleared place

/-- Every interleaving. -/
def machine : Machine State Event where
  init s := s = State.initial
  step := State.step key

end ScrapyCffi.Sessions.Listeners
