import ScrapyCffi.Engine.Step

/-!
# The stretches of engine tasks, inverted

Every outcome with which a task goes on, and the move that it makes of it.
-/

namespace ScrapyCffi.Engine

/-- A task at a point goes on with an outcome and makes a move. -/
inductive Stretch (distributed : Bool) (s : State) : Task → Outcome → Move → Prop
  | outputRequest (source : Source) (request : Request) :
    Stretch distributed s (.getSpiderOutput (some source)) (.request request)
      (.act (.produce (s.child (some source))) (.managerSpiderinterceptorsResult
        (.reschedule request (s.child (some source))) true (some source)))
  | startRequest (request : Request) :
    Stretch distributed s (.getSpiderOutput none) (.request request)
      (.create (.managerSpiderinterceptorsResult (.reschedule request (s.child none)) false none)
        (.getSpiderOutput none))
  | outputItem (source : Source) :
    Stretch distributed s (.getSpiderOutput (some source)) .item
      (.act (.produce (s.child (some source))) (.managerSpiderinterceptorsResult
        (.pipeline (s.child (some source))) true (some source)))
  | startItem :
    Stretch distributed s (.getSpiderOutput none) .item
      (.create (.managerSpiderinterceptorsResult (.pipeline (s.child none)) false none)
        (.getSpiderOutput none))
  | outputException (source : Source) :
    Stretch distributed s (.getSpiderOutput (some source)) .exception
      (.act .none (.managerSpiderinterceptorsResult (.exception false) true (some source)))
  | startException :
    Stretch distributed s (.getSpiderOutput none) .exception
      (.create (.managerSpiderinterceptorsResult (.exception false) false none)
        (.getSpiderOutput none))
  | outputSignal (source : Source) :
    Stretch distributed s (.getSpiderOutput (some source)) .closeSignal
      (.act .none (.managerSpiderinterceptorsResult .session true (some source)))
  | startSignal :
    Stretch distributed s (.getSpiderOutput none) .closeSignal
      (.create (.managerSpiderinterceptorsResult .session false none) (.getSpiderOutput none))
  | messageEnds (delivery : Delivery) :
    Stretch distributed s (.getSpiderOutput (some ⟨delivery, .response true⟩)) .nothing (.to .done)
  | outputEnds (delivery : Delivery) (answer : Answer) (h : answer ≠ .response true) :
    Stretch distributed s (.getSpiderOutput (some ⟨delivery, answer⟩)) .nothing
      (.to (.completeRequest delivery .task))
  | startEnds : Stretch distributed s (.getSpiderOutput none) .nothing (.to .done)
  | boundary (request : Request) (child : Option Child) (source : Option Source) :
    Stretch distributed s (.managerSpiderinterceptorsResult (.reschedule request child) true source)
      .proceeds (.to (.enqueueRequest request child source))
  | detached (request : Request) (child : Option Child) (source : Option Source) :
    Stretch distributed s
      (.managerSpiderinterceptorsResult (.reschedule request child) false source)
      .proceeds (.create (.enqueueRequest request child none) (resumeOutput source))
  | pipeline (child : Option Child) (waitForBoundary : Bool) (source : Option Source) :
    Stretch distributed s (.managerSpiderinterceptorsResult (.pipeline child) waitForBoundary source)
      .proceeds (.to (.processItems child source))
  | spiderException (waitForBoundary : Bool) (source : Option Source) :
    Stretch distributed s
      (.managerSpiderinterceptorsResult (.exception false) waitForBoundary source)
      .proceeds (.to (.processSpiderExceptionChain source))
  | acrossException (waitForBoundary : Bool) (source : Option Source) :
    Stretch distributed s
      (.managerSpiderinterceptorsResult (.exception true) waitForBoundary source)
      .proceeds (.to (resumeOutput source))
  | session (waitForBoundary : Bool) (source : Option Source) :
    Stretch distributed s (.managerSpiderinterceptorsResult .session waitForBoundary source)
      .proceeds (.to (resumeOutput source))
  | chainRequest (source : Option Source) (request : Request) :
    Stretch distributed s (.processSpiderExceptionChain source) (.request request)
      (.act (.produce (s.child source)) (.managerSpiderinterceptorsResult
        (.reschedule request (s.child source)) false source))
  | chainItem (source : Option Source) :
    Stretch distributed s (.processSpiderExceptionChain source) .item
      (.act (.produce (s.child source)) (.managerSpiderinterceptorsResult
        (.pipeline (s.child source)) false source))
  | chainNothing (source : Option Source) :
    Stretch distributed s (.processSpiderExceptionChain source) .nothing
      (.to (.managerSpiderinterceptorsResult (.exception true) false source))
  | processItems (child : Option Child) (source : Option Source) :
    Stretch distributed s (.processItems child source) .proceeds
      (.act (.cross child) (resumeOutput source))
  | enqueueStopped (request : Request) (child : Option Child) (source : Option Source)
      (hstop : s.stopEvent = true) :
    Stretch distributed s (.enqueueRequest request child source) .proceeds
      (.to (resumeOutput source))
  | enqueue (request : Request) (child : Option Child) (source : Option Source)
      (hstop : s.stopEvent = false) :
    Stretch distributed s (.enqueueRequest request child source) .proceeds
      (.act (.track request) (.schedulerPut request child source))
  | putAccepts (request : Request) (child : Option Child) (source : Option Source) :
    Stretch distributed s (.schedulerPut request child source) .accepted
      (.act (.push request) (.putAccepted child source))
  | putDrops (request : Request) (child : Option Child) (source : Option Source) :
    Stretch distributed s (.schedulerPut request child source) .dropped
      (.act (.cross child) (.putRejected request source))
  | putAccepted (child : Option Child) (source : Option Source) :
    Stretch distributed s (.putAccepted child source) .proceeds
      (.act (.cross child) (resumeOutput source))
  | putRejected (request : Request) (source : Option Source) :
    Stretch distributed s (.putRejected request source) .proceeds
      (.act (.release request) (resumeOutput source))
  | requestRequest (delivery : Delivery) (request : Request) :
    Stretch distributed s (.requestInterceptChain delivery) (.request request)
      (.create (.enqueueRequest request none none) .done)
  | requestResponse (delivery : Delivery) (webSocket : Bool) :
    Stretch distributed s (.requestInterceptChain delivery) (.response webSocket)
      (.create (.responseInterceptChain delivery (.response webSocket) .task) .done)
  | requestException (delivery : Delivery) :
    Stretch distributed s (.requestInterceptChain delivery) .exception
      (.to (.exceptionInterceptChain delivery .task))
  | requestNothing (delivery : Delivery) :
    Stretch distributed s (.requestInterceptChain delivery) .nothing
      (.create (.processDownloader delivery) .done)
  | responseRequest (delivery : Delivery) (answer : Answer) (caller : Caller) (request : Request) :
    Stretch distributed s (.responseInterceptChain delivery answer caller) (.request request)
      (.create (.enqueueRequest request none none) (caller.resume delivery))
  | responseException (delivery : Delivery) (answer : Answer) (caller : Caller) :
    Stretch distributed s (.responseInterceptChain delivery answer caller) .exception
      (.to (.exceptionInterceptChain delivery caller))
  | responseResponse (delivery : Delivery) (answer : Answer) (caller : Caller) (webSocket : Bool) :
    Stretch distributed s (.responseInterceptChain delivery answer caller) (.response webSocket)
      (.to (.processSpiderInputChain delivery (.response webSocket) caller))
  | responseNothing (delivery : Delivery) (answer : Answer) (caller : Caller) :
    Stretch distributed s (.responseInterceptChain delivery answer caller) .nothing
      (.to (.processSpiderInputChain delivery answer caller))
  | exceptionRequest (delivery : Delivery) (caller : Caller) (request : Request) :
    Stretch distributed s (.exceptionInterceptChain delivery caller) (.request request)
      (.create (.enqueueRequest request none none) (caller.resume delivery))
  | exceptionResponse (delivery : Delivery) (caller : Caller) (webSocket : Bool) :
    Stretch distributed s (.exceptionInterceptChain delivery caller) (.response webSocket)
      (.create (.responseInterceptChain delivery (.response webSocket) .task)
        (caller.resume delivery))
  | exceptionNothing (delivery : Delivery) (caller : Caller) :
    Stretch distributed s (.exceptionInterceptChain delivery caller) .nothing
      (.to (.processResponse delivery .exception caller))
  | inputException (delivery : Delivery) (answer : Answer) (caller : Caller) :
    Stretch distributed s (.processSpiderInputChain delivery answer caller) .exception
      (.to (.processResponse delivery .exception caller))
  | inputNothing (delivery : Delivery) (answer : Answer) (caller : Caller) :
    Stretch distributed s (.processSpiderInputChain delivery answer caller) .nothing
      (.to (.processResponse delivery answer caller))
  | errbackEnds (delivery : Delivery) (caller : Caller) :
    Stretch distributed s (.processResponse delivery .exception caller) .nothing
      (.to (.completeRequest delivery caller))
  | processResponse (delivery : Delivery) (answer : Answer) (caller : Caller) :
    Stretch distributed s (.processResponse delivery answer caller) .proceeds
      (.create (.getSpiderOutput (some ⟨delivery, answer⟩)) (caller.resume delivery))
  | acknowledge (delivery : Delivery) (caller : Caller) (hdistributed : distributed = true) :
    Stretch distributed s (.completeRequest delivery caller) .proceeds
      (.act (.acknowledge delivery.serial) (.releaseRequest delivery caller))
  | complete (delivery : Delivery) (caller : Caller) (hdistributed : distributed = false) :
    Stretch distributed s (.completeRequest delivery caller) .proceeds
      (.act (.release delivery.request) (caller.resume delivery))
  | releaseRequest (delivery : Delivery) (caller : Caller) :
    Stretch distributed s (.releaseRequest delivery caller) .proceeds
      (.act (.release delivery.request) (caller.resume delivery))
  | downloadHttp (delivery : Delivery) (hkind : delivery.request.kind = .http) :
    Stretch distributed s (.processDownloader delivery) .proceeds (.to (.fetchHttp delivery))
  | downloadWebSocket (delivery : Delivery) (url : Nat) (websocketId : Option Nat)
      (sendMessage : Bool)
      (hkind : delivery.request.kind = .webSocket url websocketId sendMessage) :
    Stretch distributed s (.processDownloader delivery) .proceeds
      (.create (.processWebsocketRequest delivery) .done)
  | downloadPlain (delivery : Delivery) (hkind : delivery.request.kind = .plain) :
    Stretch distributed s (.processDownloader delivery) .proceeds (.to .done)
  | fetchResponse (delivery : Delivery) :
    Stretch distributed s (.fetchHttp delivery) (.response false)
      (.to (.responseInterceptChain delivery (.response false) .fetchHttp))
  | fetchException (delivery : Delivery) :
    Stretch distributed s (.fetchHttp delivery) .exception
      (.to (.responseInterceptChain delivery .exception .fetchHttpExcept))
  | fetchNothing (delivery : Delivery) :
    Stretch distributed s (.fetchHttp delivery) .nothing (.to .done)
  | stale (delivery : Delivery) (url : Nat) (websocketId : Option Nat) (sendMessage : Bool)
      (hkind : delivery.request.kind = .webSocket url websocketId sendMessage)
      (hstale : s.stale websocketId = true) :
    Stretch distributed s (.processWebsocketRequest delivery) .proceeds
      (.to (.responseInterceptChain delivery .exception .task))
  | send (delivery : Delivery) (url : Nat) (websocketId : Option Nat) (sendMessage : Bool)
      (hkind : delivery.request.kind = .webSocket url websocketId sendMessage)
      (hstale : s.stale websocketId = false)
      (hsends : s.sends url websocketId sendMessage = true) :
    Stretch distributed s (.processWebsocketRequest delivery) .proceeds
      (.to (.completeRequest delivery .task))
  | register (delivery : Delivery) (url : Nat) (websocketId : Option Nat) (sendMessage : Bool)
      (hkind : delivery.request.kind = .webSocket url websocketId sendMessage)
      (hstale : s.stale websocketId = false)
      (hsends : s.sends url websocketId sendMessage = false) :
    Stretch distributed s (.processWebsocketRequest delivery) .proceeds
      ⟨.register url ((s.connections.pool url).getD s.connections.opened),
        .doWebsocketConnect delivery url ((s.connections.pool url).getD s.connections.opened),
        some (.websocketConnecting delivery url
          ((s.connections.pool url).getD s.connections.opened))⟩
  | registerException (delivery : Delivery) (url : Nat) (websocketId : Option Nat)
      (sendMessage : Bool)
      (hkind : delivery.request.kind = .webSocket url websocketId sendMessage)
      (hstale : s.stale websocketId = false)
      (hsends : s.sends url websocketId sendMessage = false) :
    Stretch distributed s (.processWebsocketRequest delivery) .exception
      (.create (.responseInterceptChain delivery .exception .task)
        (.closeWebsocket delivery url true))
  | doWebsocketConnect (delivery : Delivery) (url entry : Nat)
      (hclosed : (s.connections.entries entry).closed = true) :
    Stretch distributed s (.doWebsocketConnect delivery url entry) .proceeds
      (.to (.closeWebsocket delivery url true))
  | closeTerminal (delivery : Delivery) (url : Nat) :
    Stretch distributed s (.closeWebsocket delivery url true) .proceeds
      (.act (.closeUrl url) (.completeRequest delivery .task))
  | closeFailed (delivery : Delivery) (url : Nat) :
    Stretch distributed s (.closeWebsocket delivery url false) .proceeds
      (.act (.closeUrl url) .done)
  | connect (delivery : Delivery) (url entry found : Nat)
      (hfound : s.connections.pool url = some found) :
    Stretch distributed s (.websocketConnecting delivery url entry) .proceeds
      (.act (.connect found) (.websocketListener delivery entry))
  | connectMissing (delivery : Delivery) (url entry : Nat)
      (hnone : s.connections.pool url = none) :
    Stretch distributed s (.websocketConnecting delivery url entry) .proceeds
      (.to (.responseInterceptChain delivery .exception (.listenerOuterExcept entry)))
  | connectStopped (delivery : Delivery) (url entry : Nat) :
    Stretch distributed s (.websocketConnecting delivery url entry) .nothing
      (.to (.websocketClosing entry))
  | connectException (delivery : Delivery) (url entry : Nat) :
    Stretch distributed s (.websocketConnecting delivery url entry) .exception
      (.to (.responseInterceptChain delivery .exception (.listenerOuterExcept entry)))
  | message (delivery : Delivery) (entry : Nat) :
    Stretch distributed s (.websocketListener delivery entry) (.response true)
      (.to (.responseInterceptChain delivery (.response true) (.listener entry)))
  | listenerEnds (delivery : Delivery) (entry : Nat) :
    Stretch distributed s (.websocketListener delivery entry) .nothing
      (.to (.websocketClosing entry))
  | listenerException (delivery : Delivery) (entry : Nat) :
    Stretch distributed s (.websocketListener delivery entry) .exception
      (.to (.responseInterceptChain delivery .exception (.listenerExcept entry)))
  | websocketClosing (entry : Nat) :
    Stretch distributed s (.websocketClosing entry) .proceeds (.act (.close entry) .done)

variable {distributed : Bool} {s : State} {point : Task} {outcome : Outcome} {move : Move}

/-- A task that goes on makes one of these moves. -/
theorem stretch_of_proceed (h : point.proceed distributed s outcome = some move) :
    Stretch distributed s point outcome move := by
  cases point with
  | getSpiderOutput source =>
    rcases source with _ | ⟨delivery, (_ | _) | _⟩ <;> cases outcome <;> cases h <;> constructor
    all_goals simp
  | managerSpiderinterceptorsResult result waitForBoundary source =>
    rcases result with _ | _ | (_ | _) | _ <;> cases waitForBoundary <;> cases outcome <;>
      cases h <;> constructor
  | enqueueRequest request child source =>
    cases outcome <;> simp only [Task.proceed, enqueueRequest, reduceCtorEq] at h
    split at h
    · next hstop =>
      cases h
      exact .enqueueStopped request child source hstop
    · next hstop =>
      cases h
      exact .enqueue request child source (eq_false_of_ne_true hstop)
  | processResponse delivery answer caller =>
    rcases answer with _ | _ <;> cases outcome <;> cases h <;> constructor
  | completeRequest delivery caller =>
    cases distributed <;> cases outcome <;> cases h
    · exact .complete delivery caller rfl
    · exact .acknowledge delivery caller rfl
  | processDownloader delivery =>
    cases outcome <;> simp only [Task.proceed, processDownloader, reduceCtorEq] at h
    split at h
    · next hkind =>
      cases h
      exact .downloadHttp delivery hkind
    · next url websocketId sendMessage hkind =>
      cases h
      exact .downloadWebSocket delivery url websocketId sendMessage hkind
    · next hkind =>
      cases h
      exact .downloadPlain delivery hkind
  | fetchHttp delivery =>
    rcases outcome with _ | _ | _ | (_ | _) | _ | _ | _ | _ | _ | _ | _ <;> cases h <;> constructor
  | processWebsocketRequest delivery =>
    simp only [Task.proceed, processWebsocketRequest] at h
    split at h
    · next url websocketId sendMessage hkind =>
      split at h
      · next hstale =>
        cases outcome <;> cases h
        exact .stale delivery url websocketId sendMessage hkind hstale
      · next hstale =>
        replace hstale := eq_false_of_ne_true hstale
        split at h
        · next hsends =>
          cases outcome <;> cases h
          exact .send delivery url websocketId sendMessage hkind hstale hsends
        · next hsends =>
          replace hsends := eq_false_of_ne_true hsends
          cases outcome <;> cases h
          · exact .register delivery url websocketId sendMessage hkind hstale hsends
          · exact .registerException delivery url websocketId sendMessage hkind hstale hsends
    · cases h
  | doWebsocketConnect delivery url entry =>
    cases outcome <;> simp only [Task.proceed, doWebsocketConnect, reduceCtorEq] at h
    split at h
    · next hclosed =>
      cases h
      exact .doWebsocketConnect delivery url entry hclosed
    · cases h
  | closeWebsocket delivery url terminal =>
    cases terminal <;> cases outcome <;> cases h <;> constructor
  | websocketConnecting delivery url entry =>
    cases outcome with
    | proceeds =>
      simp only [Task.proceed, websocketConnecting] at h
      split at h
      · next found hfound =>
        cases h
        exact .connect delivery url entry found hfound
      · next hnone =>
        cases h
        exact .connectMissing delivery url entry hnone
    | _ => cases h <;> constructor
  | websocketListener delivery entry =>
    rcases outcome with _ | _ | _ | (_ | _) | _ | _ | _ | _ | _ | _ | _ <;> cases h <;> constructor
  | _ => cases outcome <;> cases h <;> constructor

end ScrapyCffi.Engine
