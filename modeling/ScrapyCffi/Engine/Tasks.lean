import Mathlib.Data.Finset.Basic

/-!
# The points at which engine tasks suspend

Every coroutine of `Engine` (`scrapy_cffi/core/engine.py`), of the interceptor chains
(`scrapy_cffi/interceptors/chains.py`) and of `Downloader`
(`scrapy_cffi/core/downloader/fetch.py`) that handles a request, as the point at which it
stands with what it will read. A coroutine awaited by another one keeps in its point what
the awaiting one needs to go on.
-/

namespace ScrapyCffi.Engine

/-- The request classes of `process_downloader`. A WebSocket request has the pool key of its
session and URL, its `websocket_id` when it is a send on a connection, and whether it carries
messages. -/
inductive RequestKind
  | http
  | webSocket (url : Nat) (websocketId : Option Nat) (sendMessage : Bool)
  | plain
  deriving DecidableEq, Repr

/-- A request with the identity of its `meta` dictionary, which other objects may share. -/
structure Request where
  kind : RequestKind
  metaDict : Nat
  deriving DecidableEq, Repr

/-- A request that `scheduler.get` returned, with the number of that delivery. -/
structure Delivery where
  request : Request
  serial : Nat
  deriving DecidableEq, Repr

/-- A child request or item, and the delivery on whose behalf it was produced. -/
structure Child where
  source : Nat
  serial : Nat
  deriving DecidableEq, Repr

/-- The classes of the `response` argument that the engine tells apart. -/
inductive Answer
  | response (webSocket : Bool)
  | exception
  deriving DecidableEq, Repr

/-- The `source_request` of `get_spider_output` with its `response`. -/
structure Source where
  delivery : Delivery
  answer : Answer
  deriving DecidableEq, Repr

/-- Which coroutine awaits `process_downloadInterceptor_chain`: its own task or that of a
stale `websocket_id`, `fetch_http` in its `try` or in an `except` clause, or the WebSocket
listener for a message, for an error of its loop or for an error of the connection. -/
inductive Caller
  | task
  | fetchHttp
  | fetchHttpExcept
  | listener (entry : Nat)
  | listenerExcept (entry : Nat)
  | listenerOuterExcept (entry : Nat)
  deriving DecidableEq, Repr

/-- The `ChainResult`s of the spider chains. -/
inductive SpiderResult
  | reschedule (request : Request) (child : Option Child)
  | pipeline (child : Option Child)
  | exception (isAcross : Bool)
  | session
  deriving DecidableEq, Repr

/-- Where a task stands. `source` is the `get_spider_output` that awaits the coroutine and
`none` in a task of its own. -/
inductive Task
  | done
  | getSpiderOutput (source : Option Source)
  | managerSpiderinterceptorsResult (result : SpiderResult) (waitForBoundary : Bool)
      (source : Option Source)
  | processSpiderExceptionChain (source : Option Source)
  | processItems (child : Option Child) (source : Option Source)
  | enqueueRequest (request : Request) (child : Option Child) (source : Option Source)
  | schedulerPut (request : Request) (child : Option Child) (source : Option Source)
  | putAccepted (child : Option Child) (source : Option Source)
  | putRejected (request : Request) (source : Option Source)
  | requestInterceptChain (delivery : Delivery)
  | responseInterceptChain (delivery : Delivery) (answer : Answer) (caller : Caller)
  | exceptionInterceptChain (delivery : Delivery) (caller : Caller)
  | processSpiderInputChain (delivery : Delivery) (answer : Answer) (caller : Caller)
  | processResponse (delivery : Delivery) (answer : Answer) (caller : Caller)
  | completeRequest (delivery : Delivery) (caller : Caller)
  | releaseRequest (delivery : Delivery) (caller : Caller)
  | processDownloader (delivery : Delivery)
  | fetchHttp (delivery : Delivery)
  | processWebsocketRequest (delivery : Delivery)
  | doWebsocketConnect (delivery : Delivery) (url entry : Nat)
  | closeWebsocket (delivery : Delivery) (url : Nat) (terminal : Bool)
  | websocketConnecting (delivery : Delivery) (url entry : Nat)
  | websocketListener (delivery : Delivery) (entry : Nat)
  | websocketClosing (entry : Nat)
  deriving DecidableEq, Repr

/-- What a suspended call, an interceptor or the spider gives back. `raises` is an exception
that an `except Exception` catches, `cancelled` one that it lets through. -/
inductive Outcome
  | proceeds
  | nothing
  | request (request : Request)
  | response (webSocket : Bool)
  | exception
  | item
  | closeSignal
  | accepted
  | dropped
  | raises
  | cancelled
  deriving DecidableEq, Repr

/-- The entry of the listener that awaits the chain. -/
def Caller.entry : Caller → Option Nat
  | .listener entry | .listenerExcept entry | .listenerOuterExcept entry => some entry
  | .task | .fetchHttp | .fetchHttpExcept => none

/-- The entry of a listener's points. `fetch_websocket` starts listeners with
`asyncio.create_task`, so that the task manager does not know them. -/
def Task.listens : Task → Option Nat
  | .responseInterceptChain _ _ caller | .exceptionInterceptChain _ caller
  | .processSpiderInputChain _ _ caller | .processResponse _ _ caller
  | .completeRequest _ caller | .releaseRequest _ caller => caller.entry
  | .websocketConnecting _ _ entry | .websocketListener _ entry
  | .websocketClosing entry => some entry
  | _ => none

/-- A live task that `wait_for_object_quiescent` waits for. -/
def Task.managed (point : Task) : Bool := point ≠ .done && point.listens.isNone

end ScrapyCffi.Engine
