import ScrapyCffi.Sessions.Manager

/-!
# WebSocket requests and close signals

The steps that resolve the session id of a WebSocket request or a `CloseSignal`: the spider
interceptor (`scrapy_cffi/interceptors/spiders.py:112–149`), the engine
(`scrapy_cffi/core/engine.py:304–320,414–453`) and the connections in the pool of the resolved
wrapper (`scrapy_cffi/core/sessions.py:81–312`, `downloader/fetch.py:200–330`). The messages of
one request are sent in one step, and so are closed the connections of a session that the reaper
closes.
-/

namespace ScrapyCffi.Sessions.WebSockets

open ScrapyCffi.Base ScrapyCffi.Sessions

/-- A `hexdigest`, which is not empty. -/
abbrev Digest := { digest : String // digest ≠ "" }

/-- `WebSocketEntry`; `websocket` is the number of the connection. -/
structure Entry where
  url : String
  websocket : Option Nat
  refCount : Int
  markedEnd : Bool
  stopEvent : Bool
  closed : Bool
  deriving DecidableEq, Repr

/-- `WebSocketEntry.__init__`. -/
def Entry.init (url : String) : Entry := ⟨url, none, 0, false, false, false⟩

/-- `request_stop`. -/
def Entry.requestStop (entry : Entry) : Entry := { entry with markedEnd := true, stopEvent := true }

/-- `acquire`. -/
def Entry.acquire (entry : Entry) : Entry := { entry with refCount := entry.refCount + 1 }

/-- `release`. -/
def Entry.release (entry : Entry) : Entry :=
  let released := { entry with refCount := entry.refCount - 1 }
  if entry.markedEnd ∧ entry.refCount - 1 ≤ 0 then released.requestStop else released

/-- `mark_end`. -/
def Entry.markEnd (entry : Entry) : Entry :=
  let marked := { entry with markedEnd := true }
  if entry.refCount ≤ 0 then marked.requestStop else marked

/-- The start of `close`. -/
def Entry.close (entry : Entry) : Entry := { entry with stopEvent := true, closed := true }

/-- `WebSocketRequest`; an empty text stands for `None`. `identity` tells requests apart. -/
structure Request where
  identity : Nat
  sessionId : String
  websocketId : String
  url : String
  sendMessage : List String
  deriving DecidableEq, Repr

/-- `CloseSignal`. -/
structure CloseSignal where
  identity : Nat
  sessionId : String
  websocketEndForKey : String
  websocketEndForUrl : String
  sessionEnd : Bool
  deriving DecidableEq, Repr

/-- A step of a request or a signal has resolved its session id. -/
structure Resolution where
  identity : Nat
  sessionId : String
  concrete : String
  deriving DecidableEq, Repr

/-- A connection that is being opened, or that is open, for a request with this session id. -/
structure Connection where
  sessionId : String
  concrete : String
  wrapper : Nat
  url : String
  serial : Nat
  deriving DecidableEq, Repr

/-- The manager and the pools of its wrappers. The other fields are history: the connections
that are being opened and that are open, how many were asked for, the messages sent on each of
them, and the resolutions. -/
structure State where
  manager : Sessions.State
  pools : Nat → String → Option Entry
  connecting : List Connection
  connections : List Connection
  asked : Nat
  sent : List (Nat × String)
  resolutions : List Resolution

/-- A new manager. -/
def State.start (defaultSessionId : String) : State where
  manager := .start defaultSessionId
  pools _ _ := none
  connecting := []
  connections := []
  asked := 0
  sent := []
  resolutions := []

/-- What a step does with a request or a signal: it goes on, is ignored, ends with a
`SessionEndError`, sends its messages on a connection, connects, or raises. -/
inductive Outcome (ρ : Type)
  | passed (item : ρ)
  | ignored
  | sessionEnd
  | sent (websocket : Option Nat)
  | connecting
  | raised
  deriving DecidableEq, Repr

/-- `get_or_create_session` for a request or a signal. -/
def State.session (s : State) (identity : Nat) (sessionId : String) (choice : Nat) :
    Option (String × Nat) × State :=
  match s.manager.resolve sessionId choice with
  | none => (none, s)
  | some concrete =>
    ((s.manager.getOrCreateSession sessionId choice).1.map (concrete, ·),
      { s with
        manager := (s.manager.getOrCreateSession sessionId choice).2
        resolutions := ⟨identity, sessionId, concrete⟩ :: s.resolutions })

/-- Change the entry of a pool. -/
def State.modifyEntry (s : State) (wrapper : Nat) (key : String) (f : Entry → Entry) : State :=
  { s with pools := fun w k ↦
      if w = wrapper ∧ k = key then (s.pools w k).map f else s.pools w k }

/-- The entries after a change of one. -/
theorem pools_modifyEntry (s : State) (wrapper : Nat) (key : String) (f : Entry → Entry)
    (w : Nat) (k : String) : (s.modifyEntry wrapper key f).pools w k =
      if w = wrapper ∧ k = key then (s.pools w k).map f else s.pools w k := rfl

/-- `SessionManager.acquire`. -/
def State.acquire (s : State) (sessionId : String) : State :=
  { s with manager := s.manager.acquire sessionId }

/-- `SessionManager.release`. -/
def State.release (s : State) (sessionId : String) : State :=
  { s with manager := s.manager.release sessionId }

variable (key : String → Digest)

/-- The spider interceptor's step for a request. -/
def State.intercept (s : State) (request : Request) (choice : Nat) : Outcome Request × State :=
  match (s.acquire request.sessionId).session request.identity request.sessionId choice with
  | (none, s) => (.raised, s)
  | (some (_, wrapper), s) =>
    if request.url = "" ∧ request.websocketId ≠ "" then
      match s.pools wrapper request.websocketId with
      | some entry =>
        (.passed { request with url := entry.url },
          s.modifyEntry wrapper (key entry.url) Entry.acquire)
      | none => (.sessionEnd, s)
    else (.passed request, s)

/-- The spider interceptor's step for a signal. -/
def State.interceptSignal (s : State) (signal : CloseSignal) (choice : Nat) :
    Outcome CloseSignal × State :=
  match (s.acquire signal.sessionId).session signal.identity signal.sessionId choice with
  | (none, s) => (.raised, s)
  | (some (_, wrapper), s) =>
    let found :=
      if signal.websocketEndForKey = "" then none else s.pools wrapper signal.websocketEndForKey
    match found with
    | some entry =>
      (.passed { signal with websocketEndForUrl := entry.url },
        s.modifyEntry wrapper (key entry.url) Entry.acquire)
    | none =>
      if signal.websocketEndForUrl = "" ∧ signal.sessionEnd = false then (.ignored, s)
      else (.passed signal, s)

/-- `do_websocket_connect` up to the registration of its listener: `init_websocket` keeps an
entry that is already there. -/
def State.connect (s : State) (request : Request) (concrete : String) (wrapper : Nat) : State :=
  { s with
    pools := fun w k ↦
      if w = wrapper ∧ k = key request.url then
        some ((s.pools w k).getD (.init request.url))
      else s.pools w k
    connecting := ⟨request.sessionId, concrete, wrapper, request.url, s.asked⟩ :: s.connecting
    asked := s.asked + 1 }

/-- Send the messages of a request on the connection of an entry. -/
def State.send (s : State) (request : Request) (wrapper : Nat) (id : String) (entry : Entry) :
    State :=
  { (s.modifyEntry wrapper id Entry.release).release request.sessionId with
    sent := s.sent ++ match entry.websocket with
      | some serial => request.sendMessage.map (serial, ·)
      | none => [] }

/-- The key with which the engine looks for the connection of a request. -/
def Request.poolKey (request : Request) : String :=
  if request.websocketId = "" then key request.url else request.websocketId

/-- The key with which the engine looks for the connection that a signal ends. -/
def CloseSignal.poolKey (signal : CloseSignal) : String :=
  if signal.websocketEndForUrl = "" then signal.websocketEndForKey
  else key signal.websocketEndForUrl

/-- `process_websocket_request`. -/
def State.process (s : State) (request : Request) (choice : Nat) : Outcome Request × State :=
  match s.session request.identity request.sessionId choice with
  | (none, s) => (.raised, s)
  | (some (concrete, wrapper), s) =>
    let found := s.pools wrapper (request.poolKey key)
    if request.url = "" then (.raised, s)
    else if request.websocketId ≠ "" ∧ found.bind Entry.websocket = none then
      (.sessionEnd, s.release request.sessionId)
    else
      match found with
      | some entry =>
        if request.sendMessage = [] then
          (.connecting, s.connect key request concrete wrapper)
        else (.sent entry.websocket, s.send request wrapper (request.poolKey key) entry)
      | none => (.connecting, s.connect key request concrete wrapper)

/-- `end_websocket`; `false` when it returns early. -/
def State.endWebsocket (s : State) (signal : CloseSignal) (choice : Nat) : Bool × State :=
  match s.session signal.identity signal.sessionId choice with
  | (none, s) => (false, s)
  | (some (_, wrapper), s) =>
    if signal.poolKey key = "" then (false, s)
    else
      match s.pools wrapper (signal.poolKey key) with
      | none => (false, s)
      | some entry =>
        (true, ((s.modifyEntry wrapper (key entry.url) Entry.markEnd).modifyEntry wrapper
          (signal.poolKey key) Entry.release).release signal.sessionId)

/-- The listener of a connection has connected: `set_websocket`, and the listener goes on unless
the entry was stopped in between. -/
def State.connected (s : State) (connection : Connection) : Option State :=
  if connection ∈ s.connecting then
    match s.pools connection.wrapper (key connection.url) with
    | none => some { s with connecting := s.connecting.erase connection }
    | some entry => some
      { s.modifyEntry connection.wrapper (key connection.url)
          (fun entry ↦ { entry with websocket := some connection.serial }) with
        connecting := s.connecting.erase connection
        connections := if entry.stopEvent then s.connections else connection :: s.connections }
  else none

/-- Whether a connection is the business of an entry of a pool. -/
def Connection.At (connection : Connection) (wrapper : Nat) (id : String) : Prop :=
  connection.wrapper = wrapper ∧ key connection.url = id

instance (connection : Connection) (wrapper : Nat) (id : String) :
    Decidable (connection.At key wrapper id) :=
  inferInstanceAs (Decidable (_ ∧ _))

/-- `WebSocketEntry.close` begins, which stops the listener. -/
def State.closing (s : State) (wrapper : Nat) (id : String) : State :=
  { s.modifyEntry wrapper id Entry.close with
    connecting := s.connecting.filter (¬ ·.At key wrapper id)
    connections := s.connections.filter (¬ ·.At key wrapper id) }

/-- `close_websocket` removes an entry that is closed. -/
def State.removed (s : State) (wrapper : Nat) (id : String) : Option State :=
  if (s.pools wrapper id).any Entry.closed then
    some { s with pools := fun w k ↦ if w = wrapper ∧ k = id then none else s.pools w k }
  else none

/-- A call of the manager or a step of its reaper, which closes every connection of the wrapper
that it pops. -/
def State.manage (s : State) (event : Sessions.Event) : Option State :=
  (s.manager.step event).map fun manager ↦
    match event, s.manager.closes with
    | .safeClose, some (_, wrapper) =>
      { s with
        manager
        pools := fun w k ↦ if w = wrapper then (s.pools w k).map Entry.close else s.pools w k
        connecting := s.connecting.filter (·.wrapper ≠ wrapper)
        connections := s.connections.filter (·.wrapper ≠ wrapper) }
    | _, _ => { s with manager }

/-- The steps of requests, signals, listeners and the manager. -/
inductive Event
  | intercept (request : Request) (choice : Nat)
  | interceptSignal (signal : CloseSignal) (choice : Nat)
  | process (request : Request) (choice : Nat)
  | endWebsocket (signal : CloseSignal) (choice : Nat)
  | connected (connection : Connection)
  | closing (wrapper : Nat) (id : String)
  | removed (wrapper : Nat) (id : String)
  /-- A step of another request, such as `fetch_http`. -/
  | resolve (identity : Nat) (sessionId : String) (choice : Nat)
  | manage (event : Sessions.Event)
  deriving DecidableEq, Repr

/-- One event. -/
def State.step (s : State) : Event → Option State
  | .intercept request choice => some (s.intercept key request choice).2
  | .interceptSignal signal choice => some (s.interceptSignal key signal choice).2
  | .process request choice => some (s.process key request choice).2
  | .endWebsocket signal choice => some (s.endWebsocket key signal choice).2
  | .connected connection => s.connected key connection
  | .closing wrapper id => some (s.closing key wrapper id)
  | .removed wrapper id => s.removed wrapper id
  | .resolve identity sessionId choice => some (s.session identity sessionId choice).2
  | .manage event => s.manage event

/-- Every interleaving. -/
def machine : Machine State Event where
  init s := ∃ defaultSessionId, s = State.start defaultSessionId
  step := State.step key

end ScrapyCffi.Sessions.WebSockets
