import ScrapyCffi.Engine.State

/-!
# What engine tasks do

Each definition is one coroutine of the source and gives, for the outcome of what it waits
for, the effect on the engine, the point at which the task stands next and the task it
creates. A callback, an interceptor and a download may have any outcome. `Machine` steps are
these stretches, the scheduler loops, the start producer, the completion waiter, the stop
event and what user code does to `meta` dictionaries.
-/

namespace ScrapyCffi.Engine

open ScrapyCffi.Base

/-- What a stretch of a coroutine does outside its task. `cross` records that `put` has
returned or a pipeline pass has ended, `acknowledge` calls `scheduler.complete_request`,
`fail` is the exception of a managed task, with the release of `enqueue_request`. -/
inductive Effect
  | none
  | produce (child : Option Child)
  | cross (child : Option Child)
  | track (request : Request)
  | push (request : Request)
  | release (request : Request)
  | acknowledge (serial : Nat)
  | register (url entry : Nat)
  | connect (entry : Nat)
  | close (entry : Nat)
  | closeUrl (url : Nat)
  | fail (request : Option Request)
  deriving DecidableEq, Repr

/-- The effect of a stretch, the next point of its task and the task it creates. -/
structure Move where
  effect : Effect
  next : Task
  created : Option Task
  deriving DecidableEq, Repr

/-- Go on without an effect. -/
def Move.to (next : Task) : Move := ⟨.none, next, none⟩

/-- `await self.taskManager.create(...)`, then go on. -/
def Move.create (created next : Task) : Move := ⟨.none, next, some created⟩

/-- Change the engine, then go on. -/
def Move.act (effect : Effect) (next : Task) : Move := ⟨effect, next, none⟩

/-- Back to the `get_spider_output` that awaits, or the end of the task. -/
def resumeOutput : Option Source → Task
  | some source => .getSpiderOutput (some source)
  | none => .done

/-- Back to what awaits `process_downloadInterceptor_chain`. -/
def Caller.resume (delivery : Delivery) : Caller → Task
  | .task | .fetchHttp | .fetchHttpExcept => .done
  | .listener entry => .websocketListener delivery entry
  | .listenerExcept entry | .listenerOuterExcept entry => .websocketClosing entry

/-- The `except` clause that an exception of the chain reaches: `fetch_http` and the listener
report a first one as a download error, and the listener swallows the last one;
`scrapy_cffi/core/downloader/fetch.py:141–148,268–297`. -/
def Caller.handler (delivery : Delivery) : Caller → Option Task
  | .task | .fetchHttpExcept => none
  | .fetchHttp => some (.responseInterceptChain delivery .exception .fetchHttpExcept)
  | .listener entry => some (.responseInterceptChain delivery .exception (.listenerExcept entry))
  | .listenerExcept entry =>
    some (.responseInterceptChain delivery .exception (.listenerOuterExcept entry))
  | .listenerOuterExcept entry => some (.websocketClosing entry)

/-- The record of a child that `source` has produced. -/
def State.child (s : State) (source : Option Source) : Option Child :=
  source.map fun source ↦ ⟨source.delivery.serial, s.produced.length⟩

/-- An element of the output: a sourced output handles it before the next one, a start output
in a task of its own. -/
def manage (effect : Effect) (result : SpiderResult) (source : Option Source) : Move :=
  if source.isSome then .act effect (.managerSpiderinterceptorsResult result true source)
  else .create (.managerSpiderinterceptorsResult result false none) (.getSpiderOutput none)

/-- `get_spider_output`; `scrapy_cffi/core/engine.py:244–271`. -/
def getSpiderOutput (s : State) (source : Option Source) : Outcome → Option Move
  | .request request =>
    some (manage (.produce (s.child source)) (.reschedule request (s.child source)) source)
  | .item => some (manage (.produce (s.child source)) (.pipeline (s.child source)) source)
  | .exception => some (manage .none (.exception false) source)
  | .closeSignal => some (manage .none .session source)
  | .nothing => match source with
    | some ⟨_, .response true⟩ => some (.to .done)
    | some ⟨delivery, _⟩ => some (.to (.completeRequest delivery .task))
    | none => some (.to .done)
  | _ => none

/-- `manager_spiderinterceptors_result`; `engine.py:273–300`. -/
def managerSpiderinterceptorsResult (result : SpiderResult) (waitForBoundary : Bool)
    (source : Option Source) : Outcome → Option Move
  | .proceeds => match result with
    | .reschedule request child =>
      if waitForBoundary then some (.to (.enqueueRequest request child source))
      else some (.create (.enqueueRequest request child none) (resumeOutput source))
    | .pipeline child => some (.to (.processItems child source))
    | .exception false => some (.to (.processSpiderExceptionChain source))
    | .exception true => some (.to (resumeOutput source))
    | .session => some (.to (resumeOutput source))
  | _ => none

/-- `process_spider_exception_chain` with the manager as its callback, which it calls without
`wait_for_boundary`; `scrapy_cffi/interceptors/chains.py:324–351`. -/
def processSpiderExceptionChain (s : State) (source : Option Source) : Outcome → Option Move
  | .request request => some (.act (.produce (s.child source))
      (.managerSpiderinterceptorsResult (.reschedule request (s.child source)) false source))
  | .item => some (.act (.produce (s.child source))
      (.managerSpiderinterceptorsResult (.pipeline (s.child source)) false source))
  | .nothing => some (.to (.managerSpiderinterceptorsResult (.exception true) false source))
  | _ => none

/-- `process_items`; `engine.py:405–407`. -/
def processItems (child : Option Child) (source : Option Source) : Outcome → Option Move
  | .proceeds => some (.act (.cross child) (resumeOutput source))
  | _ => none

/-- `enqueue_request` up to `scheduler.put`; `engine.py:322–332`. -/
def enqueueRequest (s : State) (request : Request) (child : Option Child)
    (source : Option Source) : Outcome → Option Move
  | .proceeds =>
    if s.stopEvent then some (.to (resumeOutput source))
    else some (.act (.track request) (.schedulerPut request child source))
  | _ => none

/-- `scheduler.put`, which drops duplicates and requests it could not push. -/
def schedulerPut (request : Request) (child : Option Child) (source : Option Source) :
    Outcome → Option Move
  | .accepted => some (.act (.push request) (.putAccepted child source))
  | .dropped => some (.act (.cross child) (.putRejected request source))
  | _ => none

/-- The result of a request interceptor, with `manager_downloadinterceptors_result`;
`chains.py:132–163`, `engine.py:346–352`. -/
def requestInterceptChain (delivery : Delivery) : Outcome → Option Move
  | .request request => some (.create (.enqueueRequest request none none) .done)
  | .response webSocket =>
    some (.create (.responseInterceptChain delivery (.response webSocket) .task) .done)
  | .exception => some (.to (.exceptionInterceptChain delivery .task))
  | .nothing => some (.create (.processDownloader delivery) .done)
  | _ => none

/-- The response interceptors; `chains.py:165–203`. -/
def responseInterceptChain (delivery : Delivery) (answer : Answer) (caller : Caller) :
    Outcome → Option Move
  | .request request =>
    some (.create (.enqueueRequest request none none) (caller.resume delivery))
  | .exception => some (.to (.exceptionInterceptChain delivery caller))
  | .response webSocket =>
    some (.to (.processSpiderInputChain delivery (.response webSocket) caller))
  | .nothing => some (.to (.processSpiderInputChain delivery answer caller))
  | _ => none

/-- The exception interceptors; `chains.py:205–237`. -/
def exceptionInterceptChain (delivery : Delivery) (caller : Caller) : Outcome → Option Move
  | .request request =>
    some (.create (.enqueueRequest request none none) (caller.resume delivery))
  | .response webSocket => some (.create
      (.responseInterceptChain delivery (.response webSocket) .task) (caller.resume delivery))
  | .nothing => some (.to (.processResponse delivery .exception caller))
  | _ => none

/-- The spider's input interceptors; `chains.py:239–264`. -/
def processSpiderInputChain (delivery : Delivery) (answer : Answer) (caller : Caller) :
    Outcome → Option Move
  | .exception => some (.to (.processResponse delivery .exception caller))
  | .nothing => some (.to (.processResponse delivery answer caller))
  | _ => none

/-- `process_response`: `nothing` is an errback without output; `engine.py:375–387`. -/
def processResponse (delivery : Delivery) (answer : Answer) (caller : Caller) :
    Outcome → Option Move
  | .nothing =>
    if answer = .exception then some (.to (.completeRequest delivery caller)) else none
  | .proceeds =>
    some (.create (.getSpiderOutput (some ⟨delivery, answer⟩)) (caller.resume delivery))
  | _ => none

/-- `_complete_request`; only the distributed schedulers have `complete_request`;
`engine.py:181–186`. -/
def completeRequest (distributed : Bool) (delivery : Delivery) (caller : Caller) :
    Outcome → Option Move
  | .proceeds =>
    if distributed then
      some (.act (.acknowledge delivery.serial) (.releaseRequest delivery caller))
    else some (.act (.release delivery.request) (caller.resume delivery))
  | _ => none

/-- `_complete_request` after `scheduler.complete_request`. -/
def releaseRequest (delivery : Delivery) (caller : Caller) : Outcome → Option Move
  | .proceeds => some (.act (.release delivery.request) (caller.resume delivery))
  | _ => none

/-- `process_downloader`; `engine.py:368–372`. -/
def processDownloader (delivery : Delivery) : Outcome → Option Move
  | .proceeds => match delivery.request.kind with
    | .http => some (.to (.fetchHttp delivery))
    | .webSocket .. => some (.create (.processWebsocketRequest delivery) .done)
    | .plain => some (.to .done)
  | _ => none

/-- `fetch_http`: `nothing` is a falsy raw response, which is only logged;
`fetch.py:104–151`. -/
def fetchHttp (delivery : Delivery) : Outcome → Option Move
  | .response false => some (.to (.responseInterceptChain delivery (.response false) .fetchHttp))
  | .exception => some (.to (.responseInterceptChain delivery .exception .fetchHttpExcept))
  | .nothing => some (.to .done)
  | _ => none

/-- A `websocket_id` whose connection is missing or not connected; `engine.py:418–422`. -/
def State.stale (s : State) (websocketId : Option Nat) : Bool :=
  websocketId.any fun key ↦
    !(s.connections.pool key).any fun entry ↦ (s.connections.entries entry).connected

/-- The request sends on an entry that the pool has; `engine.py:435–437`. -/
def State.sends (s : State) (url : Nat) (websocketId : Option Nat) (sendMessage : Bool) : Bool :=
  (s.connections.pool (websocketId.getD url)).isSome && sendMessage

/-- `process_websocket_request` and the start of `do_websocket_connect`, where `exception` is
one of `fetch_websocket`; `engine.py:410–470`, `fetch.py:308–337`. -/
def processWebsocketRequest (s : State) (delivery : Delivery) (outcome : Outcome) :
    Option Move :=
  match delivery.request.kind with
  | .webSocket url websocketId sendMessage =>
    if s.stale websocketId then match outcome with
      | .proceeds => some (.to (.responseInterceptChain delivery .exception .task))
      | _ => none
    else if s.sends url websocketId sendMessage then match outcome with
      | .proceeds => some (.to (.completeRequest delivery .task))
      | _ => none
    else match outcome with
      | .proceeds =>
        let entry := (s.connections.pool url).getD s.connections.opened
        some ⟨.register url entry, .doWebsocketConnect delivery url entry,
          some (.websocketConnecting delivery url entry)⟩
      | .exception => some (.create (.responseInterceptChain delivery .exception .task)
          (.closeWebsocket delivery url true))
      | _ => none
  | _ => none

/-- `await entry.wait_closed()`; `engine.py:463–464`. -/
def doWebsocketConnect (s : State) (delivery : Delivery) (url entry : Nat) :
    Outcome → Option Move
  | .proceeds =>
    if (s.connections.entries entry).closed then some (.to (.closeWebsocket delivery url true)) else none
  | _ => none

/-- The `finally` of `do_websocket_connect`; `engine.py:473–478`. -/
def closeWebsocket (delivery : Delivery) (url : Nat) (terminal : Bool) : Outcome → Option Move
  | .proceeds =>
    some (.act (.closeUrl url) (if terminal then .completeRequest delivery .task else .done))
  | _ => none

/-- The listener up to its loop: `nothing` is a stop asked for meanwhile; `fetch.py:186–200`. -/
def websocketConnecting (s : State) (delivery : Delivery) (url entry : Nat) :
    Outcome → Option Move
  | .proceeds => match s.connections.pool url with
    | some found => some (.act (.connect found) (.websocketListener delivery entry))
    | none =>
      some (.to (.responseInterceptChain delivery .exception (.listenerOuterExcept entry)))
  | .nothing => some (.to (.websocketClosing entry))
  | .exception =>
    some (.to (.responseInterceptChain delivery .exception (.listenerOuterExcept entry)))
  | _ => none

/-- The receive loop: a message, the end of the connection or an error; `fetch.py:202–281`. -/
def websocketListener (delivery : Delivery) (entry : Nat) : Outcome → Option Move
  | .response true =>
    some (.to (.responseInterceptChain delivery (.response true) (.listener entry)))
  | .nothing => some (.to (.websocketClosing entry))
  | .exception => some (.to (.responseInterceptChain delivery .exception (.listenerExcept entry)))
  | _ => none

/-- The handler of an exception raised at the point. -/
def Task.handler : Task → Option Task
  | .responseInterceptChain delivery _ caller | .exceptionInterceptChain delivery caller
  | .processSpiderInputChain delivery _ caller | .processResponse delivery _ caller
  | .releaseRequest delivery caller => caller.handler delivery
  | _ => none

/-- An exception ends a managed task: `enqueue_request` releases first and
`do_websocket_connect` still closes its connection. -/
def Task.fail (point : Task) : Option Move :=
  if point.managed then match point with
    | .schedulerPut request _ _ => some (.act (.fail (some request)) .done)
    | .doWebsocketConnect delivery url _ =>
      some (.act (.fail none) (.closeWebsocket delivery url false))
    | _ => some (.act (.fail none) .done)
  else none

/-- The next stretch of a task that neither raises nor is cancelled. -/
def Task.proceed (distributed : Bool) (s : State) : Task → Outcome → Option Move
  | .done => fun _ ↦ none
  | .getSpiderOutput source => Engine.getSpiderOutput s source
  | .managerSpiderinterceptorsResult result waitForBoundary source =>
    Engine.managerSpiderinterceptorsResult result waitForBoundary source
  | .processSpiderExceptionChain source => Engine.processSpiderExceptionChain s source
  | .processItems child source => Engine.processItems child source
  | .enqueueRequest request child source => Engine.enqueueRequest s request child source
  | .schedulerPut request child source => Engine.schedulerPut request child source
  | .putAccepted child source => fun
    | .proceeds => some (.act (.cross child) (resumeOutput source))
    | _ => none
  | .putRejected request source => fun
    | .proceeds => some (.act (.release request) (resumeOutput source))
    | _ => none
  | .requestInterceptChain delivery => Engine.requestInterceptChain delivery
  | .responseInterceptChain delivery answer caller =>
    Engine.responseInterceptChain delivery answer caller
  | .exceptionInterceptChain delivery caller => Engine.exceptionInterceptChain delivery caller
  | .processSpiderInputChain delivery answer caller =>
    Engine.processSpiderInputChain delivery answer caller
  | .processResponse delivery answer caller => Engine.processResponse delivery answer caller
  | .completeRequest delivery caller => Engine.completeRequest distributed delivery caller
  | .releaseRequest delivery caller => Engine.releaseRequest delivery caller
  | .processDownloader delivery => Engine.processDownloader delivery
  | .fetchHttp delivery => Engine.fetchHttp delivery
  | .processWebsocketRequest delivery => Engine.processWebsocketRequest s delivery
  | .doWebsocketConnect delivery url entry => Engine.doWebsocketConnect s delivery url entry
  | .closeWebsocket delivery url terminal => Engine.closeWebsocket delivery url terminal
  | .websocketConnecting delivery url entry => Engine.websocketConnecting s delivery url entry
  | .websocketListener delivery entry => Engine.websocketListener delivery entry
  | .websocketClosing entry => fun
    | .proceeds => some (.act (.close entry) .done)
    | _ => none

/-- The next stretch of a task. -/
def Task.move (distributed : Bool) (s : State) (point : Task) : Outcome → Option Move
  | .raises => match point.handler with
    | some handler => some (.to handler)
    | none => point.fail
  | .cancelled => point.fail
  | outcome => point.proceed distributed s outcome

/-- An effect on the engine. -/
def State.perform (distributed : Bool) (s : State) : Effect → State
  | .none => s
  | .produce child => { s with produced := child.toList ++ s.produced }
  | .cross child => { s with crossed := child.toList ++ s.crossed }
  | .track request => { s with ownership := s.ownership.track request }
  | .push request => { s with
      queue := s.queue ++ [if distributed then
        .bytes request.kind (s.ownership.workId request) else .object request] }
  | .release request => { s with ownership := s.ownership.release request }
  | .acknowledge serial => { s with acknowledged := serial :: s.acknowledged }
  | .register url entry =>
    { s with connections := s.connections.register url entry s.tasks.length }
  | .connect entry => { s with connections := s.connections.connect entry }
  | .close entry => { s with
      tasks := s.connections.cancel entry s.tasks
      connections := s.connections.close entry }
  | .closeUrl url => s.closeUrl url
  | .fail request => { s with
      raised := true
      ownership := request.elim s.ownership s.ownership.release }

/-- A move of the task at `position`. -/
def State.apply (distributed : Bool) (s : State) (position : Nat) (move : Move) : State :=
  let t := s.perform distributed move.effect
  { t with tasks := advance t.tasks position move.next (s.create move.created).toList }

/-- What happens in the engine and around it. -/
inductive Event
  /-- The task at `position` runs its next stretch. -/
  | run (position : Nat) (outcome : Outcome)
  /-- `run_spider_start` takes an output from `spider.start`. -/
  | produce
  | producerEnds
  | get (position metaDict : Nat)
  /-- A scheduler loop creates the task of the request it holds. -/
  | dispatch (position : Nat)
  /-- `_wait_for_explicit_completion` goes on. -/
  | waiter
  /-- User code copies the items of one `meta` dictionary into one without a work id. -/
  | copyMeta (source target : Nat)
  /-- A session closes its connection to the URL. -/
  | closeSession (url : Nat)
  | stop
  deriving DecidableEq, Repr

/-- A scheduler loop after `get`; `engine.py:217–242`. -/
def State.dispatch (s : State) (position : Nat) : Option State :=
  (s.inHand[position]?).map fun delivery ↦
    { s with
      inHand := s.inHand.eraseIdx position
      tasks := s.tasks ++ (s.create (some (.requestInterceptChain delivery))).toList }

/-- `_wait_for_explicit_completion`; `engine.py:188–215`. -/
def State.wait (s : State) : Option State :=
  match s.waiter with
  | .producer => if s.producerDone then some { s with waiter := .idle } else none
  | .idle => if s.ownership.workIdle then some { s with waiter := .quiescent } else none
  | .quiescent =>
    if s.tasks.all fun point ↦ !point.managed then
      some { s with waiter := if s.ownership.workIdle then .returned else .idle }
    else none
  | .returned => none

/-- One event of a run, which ends when `_wait_for_explicit_completion` returns. -/
def State.step (distributed : Bool) (s : State) (event : Event) : Option State :=
  if s.waiter = .returned then none
  else match event with
    | .run position outcome =>
      ((s.tasks[position]?).bind fun point ↦ point.move distributed s outcome).map
        (s.apply distributed position)
    | .produce =>
      if s.producerDone then none
      else some { s with tasks := s.tasks ++ (s.create (some (.getSpiderOutput none))).toList }
    | .producerEnds => some { s with producerDone := true }
    | .get position metaDict => s.get distributed position metaDict
    | .dispatch position => s.dispatch position
    | .waiter => s.wait
    | .copyMeta source target =>
      if s.ownership.workIds target = none then some { s with
        ownership.workIds :=
          Function.update s.ownership.workIds target (s.ownership.workIds source) }
      else none
    | .closeSession url => some (s.closeUrl url)
    | .stop => some { s with stopEvent := true }

/-- A condition on the stretches of the tasks, as one on events. -/
def onRun (condition : State → Task → Outcome → Prop) (s : State) : Event → Prop
  | .run position outcome => ∀ point ∈ s.tasks[position]?, condition s point outcome
  | _ => True

instance (condition : State → Task → Outcome → Prop)
    [∀ s point outcome, Decidable (condition s point outcome)] (s : State) :
    ∀ event, Decidable (onRun condition s event)
  | .run position outcome =>
    inferInstanceAs (Decidable (∀ point ∈ s.tasks[position]?, condition s point outcome))
  | .produce | .producerEnds | .get .. | .dispatch _ | .waiter | .copyMeta .. | .closeSession _
  | .stop => .isTrue trivial

/-- Every run of one engine. -/
def machine (distributed : Bool) : Machine State Event where
  init s := s = State.start
  step := State.step distributed

/-- A start request from `spider.start` to the fetch of its response. -/
def startRequest : List Event :=
  [.produce, .run 0 (.request ⟨.http, 0⟩), .producerEnds, .run 0 .nothing, .run 1 .proceeds,
    .run 2 .proceeds, .run 2 .accepted, .run 2 .proceeds, .get 0 1, .dispatch 0, .run 3 .nothing,
    .run 4 .proceeds]

/-- Its response, up to the output of its callback. -/
def startCallback : List Event :=
  startRequest ++
    [.run 4 (.response false), .run 4 .nothing, .run 4 .nothing, .run 4 .proceeds]

end ScrapyCffi.Engine
