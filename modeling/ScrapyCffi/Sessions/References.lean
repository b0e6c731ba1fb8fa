import ScrapyCffi.Sessions.Manager

/-!
# The acquires and releases of requests and close signals

Where a request or a `CloseSignal` is on its way through the framework, and what each step does
with its session: the spider interceptors (`scrapy_cffi/interceptors/spiders.py:112–231`), the
schedulers' `put` (`scrapy_cffi/core/scheduler/*.py`), the interceptor chains
(`scrapy_cffi/interceptors/chains.py:131–264`), `fetch_http`
(`scrapy_cffi/core/downloader/fetch.py:104–151`) and the engine
(`scrapy_cffi/core/engine.py:273–365,414–478`). One process runs everything, and no task is
cancelled. What the filters, brokers, sockets and user interceptors answer is an `Outcome`.
-/

namespace ScrapyCffi.Sessions.References

open ScrapyCffi.Base ScrapyCffi.Sessions

/-- `HttpRequest` and `MediaRequest`, `WebSocketRequest`, `CloseSignal`. -/
inductive Kind
  | http
  | websocket
  | closeSignal
  deriving DecidableEq, Repr

/-- A request or a signal. -/
structure Item where
  identity : Nat
  sessionId : String
  kind : Kind
  deriving DecidableEq, Repr

/-- The place of an item in the framework. -/
inductive Phase
  /-- Yielded by the spider. -/
  | output
  /-- Past `UpdateRequestSpiderInterceptor`, before the other spider interceptors. -/
  | admitted
  /-- With an error for the exception chain of the spider interceptors. -/
  | failed (released : Bool)
  | enqueuing
  | queued
  /-- In the chain of the request interceptors. -/
  | requesting
  /-- With a response or an error for the response interceptors, outside `fetch_http`. -/
  | answering (released : Bool)
  | downloading
  /-- In the `finally` of `fetch_http`. -/
  | releasing
  /-- A WebSocket connection that is listened to. -/
  | connected
  /-- A signal that the engine handles. -/
  | signalled
  deriving DecidableEq, Repr

/-- A task, a queue entry or a frame that holds an item. -/
structure Flow where
  item : Item
  phase : Phase
  deriving DecidableEq, Repr

/-- What happens to an item in a phase. -/
inductive Outcome
  /-- It goes on as usual. -/
  | passed
  /-- `get_or_create_session` of a group without members raises. -/
  | unresolved
  /-- The `websocket_id` is unknown. -/
  | unknownWebsocket
  /-- The domain or `robots.txt` filter drops it. -/
  | filtered
  /-- Another interceptor returns an exception. -/
  | rejected
  /-- A duplicate, or a push that the broker refuses. -/
  | dropped
  /-- An interceptor returns the request itself. -/
  | rescheduled
  /-- An interceptor returns another request. -/
  | replaced (sessionId : String) (kind : Kind)
  /-- An interceptor returns a response. -/
  | answered
  /-- Nothing more happens to it: it is reported, given to the spider, or lost to an exception or
  the stop event. -/
  | ended
  /-- The connection to send on is closed. -/
  | stale
  | sent
  | connects
  | closed
  /-- Connecting raises; `registered` says that the pool has an entry for the URL. -/
  | connectRaises (registered : Bool)
  | websocketEnded
  | sessionEnded
  deriving DecidableEq, Repr

/-- The calls of the manager. -/
inductive Call
  | acquire
  | release
  | markEnd
  deriving DecidableEq, Repr

/-- The calls of one step and where the item, or the request in its place, is after it. `created`
numbers a new request. -/
def Flow.step (created : Nat) (flow : Flow) : Outcome → Option (List Call × List Flow) :=
  let here := Flow.mk flow.item
  let new sessionId kind := Flow.mk ⟨created, sessionId, kind⟩ .enqueuing
  match flow.phase with
  -- `UpdateRequestSpiderInterceptor`; `spiders.py:112–149`
  | .output => fun
    | .passed =>
      some ([.acquire], [here (if flow.item.kind = .closeSignal then .signalled else .admitted)])
    | .unresolved => some ([.acquire], [])
    | .unknownWebsocket =>
      if flow.item.kind = .websocket then some ([.acquire], [here (.failed false)]) else none
    | _ => none
  -- `RobotSpiderInterceptor` and the other interceptors; `spiders.py:194–231`
  | .admitted => fun
    | .passed => some ([], [here .enqueuing])
    | .filtered => some ([.release], [here (.failed true)])
    | .rejected => some ([], [here (.failed false)])
    | .replaced sessionId kind => some ([], [new sessionId kind])
    | .ended => some ([], [])
    | _ => none
  -- `process_spider_exception_chain`; `chains.py:324–358`
  | .failed _ => fun
    | .rescheduled => some ([], [here .enqueuing])
    | .replaced sessionId kind => some ([], [new sessionId kind])
    | .ended => some ([], [])
    | _ => none
  -- `enqueue_request` and `put`; `engine.py:322–337`
  | .enqueuing => fun
    | .passed => some ([], [here .queued])
    | .dropped => some ([.release], [])
    | .ended => some ([], [])
    | _ => none
  | .queued => fun
    | .passed => some ([], [here .requesting])
    | .ended => some ([], [])
    | _ => none
  -- `request_intercept_chain`; `chains.py:133–164`
  | .requesting => fun
    | .passed => some ([], [here .downloading])
    | .rescheduled => some ([], [here .enqueuing])
    | .replaced sessionId kind => some ([], [new sessionId kind])
    | .answered => some ([], [here (.answering false)])
    | .ended => some ([], [])
    | _ => none
  -- `response_intercept_chain` and `exception_intercept_chain`; `chains.py:166–238`
  | .answering _ => fun
    | .rescheduled => some ([], [here .enqueuing])
    | .replaced sessionId kind => some ([], [new sessionId kind])
    | .ended => some ([], [])
    | _ => none
  | .downloading =>
    if flow.item.kind = .http then fun
      -- `fetch_http` awaits the response chain; `fetch.py:104–148`
      | .rescheduled => some ([], [here .releasing, here .enqueuing])
      | .replaced sessionId kind => some ([], [here .releasing, new sessionId kind])
      | .ended => some ([], [here .releasing])
      | _ => none
    else fun
      -- `process_websocket_request`; `engine.py:414–453`
      | .stale => some ([.release], [here (.answering true)])
      | .sent => some ([.release], [])
      | .connects => some ([], [here .connected])
      | .ended => some ([], [])
      | _ => none
  | .releasing => fun
    | .passed => some ([.release], [])
    | _ => none
  -- `do_websocket_connect`; `engine.py:455–478`
  | .connected => fun
    | .answered => some ([], [here .connected])
    | .rescheduled => some ([], [here .connected, here .enqueuing])
    | .replaced sessionId kind => some ([], [here .connected, new sessionId kind])
    | .closed => some ([.release], [])
    | .connectRaises registered =>
      some ((if registered then [.release] else []) ++ [.release], [here (.answering true)])
    | _ => none
  -- `manager_spiderinterceptors_result` and `end_websocket`; `engine.py:295–320`
  | .signalled => fun
    | .websocketEnded => some ([.release], [])
    | .sessionEnded => some ([.markEnd, .release], [])
    | .ended => some ([], [])
    | _ => none

/-- The manager and everything that holds an item. The last three fields are history: the items
created, and the items of all acquires and releases. -/
structure State where
  manager : Sessions.State
  flows : List Flow
  created : Nat
  acquired : List Item
  released : List Item

/-- Before the spider starts. -/
def State.start (defaultSessionId : String) : State := ⟨.start defaultSessionId, [], 0, [], []⟩

/-- A call for an item. -/
def State.call (s : State) (item : Item) : Call → State
  | .acquire =>
    { s with manager := s.manager.acquire item.sessionId, acquired := item :: s.acquired }
  | .release =>
    { s with manager := s.manager.release item.sessionId, released := item :: s.released }
  | .markEnd => { s with manager := s.manager.markEnd item.sessionId }

/-- The spider yields a request or a signal, or one of the items takes a step. -/
inductive Event
  | yields (sessionId : String) (kind : Kind)
  | step (flow : Flow) (outcome : Outcome)
  deriving DecidableEq, Repr

/-- One event. -/
def State.step (s : State) : Event → Option State
  | .yields sessionId kind => some { s with
      flows := ⟨⟨s.created, sessionId, kind⟩, .output⟩ :: s.flows
      created := s.created + 1 }
  | .step flow outcome =>
    if flow ∈ s.flows then
      (flow.step s.created outcome).map fun (calls, flows) ↦
        { calls.foldl (fun s ↦ s.call flow.item) s with
          flows := flows ++ s.flows.erase flow
          created := s.created + 1 }
    else none

/-- Every interleaving. -/
def machine : Machine State Event where
  init s := ∃ defaultSessionId, s = State.start defaultSessionId
  step := State.step

end ScrapyCffi.Sessions.References
