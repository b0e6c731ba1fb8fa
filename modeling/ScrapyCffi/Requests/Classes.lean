import ScrapyCffi.Requests.Json
import ScrapyCffi.Requests.Keywords

/-!
# Request classes

`Request`, `HttpRequest`, `MediaRequest` and `WebSocketRequest` with the constructors that
check, default and derive their attributes: `core/downloader/internet/request.py:12–399`.
Warnings are left out; case mapping, `urlencode` and `str` are parameters.
-/

namespace ScrapyCffi.Requests

open ScrapyCffi.Base

/-- The library functions the constructors call. -/
structure Runtime (φ : Type) where
  upper : String → String
  lower : String → String
  urlencode : Value φ → Except PyError String
  format : Value φ → String

/-- The attributes `Request.__init__` assigns, `request.py:42–69`. -/
structure Request (φ : Type) where
  sessionId : Value φ
  url : Value φ
  headers : Value φ
  cookies : Value φ
  proxies : Value φ
  timeout : Value φ
  maxRetryTimes : Value φ
  retryDelay : Value φ
  allowRedirects : Value φ
  maxRedirects : Value φ
  verify : Value φ
  impersonate : Value φ
  ja3 : Value φ
  akamai : Value φ
  metaDict : Value φ
  dontFilter : Value φ
  callback : Value φ
  errback : Value φ
  descText : Value φ
  noProxy : Value φ
  stream : Value φ
  httpVersion : Value φ
  kwargs : Keywords φ

/-- `HttpRequest`, `request.py:162–229`. -/
structure HttpRequest (φ : Type) extends Request φ where
  method : Value φ
  data : Value φ

/-- `MediaRequest`, `request.py:243–321`. -/
structure MediaRequest (φ : Type) extends HttpRequest φ where
  singlePartSize : Value φ
  mediaSize : Value φ
  maxMediaSize : Value φ

/-- `WebSocketRequest`, `request.py:324–399`; the constructor leaves a list of messages. -/
structure WebSocketRequest (φ : Type) extends Request φ where
  websocketId : Value φ
  sendMessage : List WebSocketMsg
  pingData : Value φ
  pingInterval : Value φ

/-- A value in an f-string. -/
def Runtime.text {φ : Type} (rt : Runtime φ) : Value φ → String
  | .str s => s
  | value => rt.format value

variable {φ : Type} [PyFloat φ]

/-! ## Headers -/

/-- What iterating over the headers yields. -/
def headerKeys : Value φ → Except PyError (List (Value φ))
  | .dict entries => .ok (entries.map Prod.fst)
  | .list items => .ok items
  | .tuple items => .ok items
  | .str s => .ok (s.toList.map fun c ↦ .str c.toString)
  | .bytes b => .ok (b.map fun n ↦ .int n.toNat)
  | .msg m =>
    .ok [.tuple [.str "data", .bytes m.data],
      .tuple [.str "flags", m.flags.elim .none fun n ↦ .int n]]
  | _ => .error .typeError

/-- The first key that is a name in lower case; the lower case of bytes equals no string. -/
def searchHeader (lower : String → String) (keyLower : String) :
    List (Value φ) → Except PyError (Option String)
  | [] => .ok none
  | .str key :: rest =>
    if lower key = keyLower then .ok (some key) else searchHeader lower keyLower rest
  | .bytes _ :: rest => searchHeader lower keyLower rest
  | _ :: _ => .error .attributeError

/-- `find_header_key`, `request.py:77–83`. -/
def findHeaderKey (rt : Runtime φ) (headers : Value φ) (key : String) :
    Except PyError (Option String) := do
  if headers.truthy then searchHeader rt.lower (rt.lower key) (← headerKeys headers)
  else return none

/-- `self.headers[key]`. -/
def headerValue : Value φ → String → Except PyError (Value φ)
  | .dict entries, key => (dictGet key entries).elim (.error .keyError) .ok
  | _, _ => .error .typeError

/-- `is_protobuf`, `request.py:71–75`. -/
def isProtobuf (rt : Runtime φ) (headers : Value φ) : Except PyError Bool := do
  match ← findHeaderKey rt headers "content-type" with
  | none => return false
  | some key =>
    if key = "" then
      return false
    match ← headerValue headers key with
    | .str s => return ["protobuf", "grpc"].any fun it ↦ it.toList <:+: (rt.lower s).toList
    | .bytes _ => throw .typeError
    | _ => throw .attributeError

/-! ## `Request` -/

/-- The parameters of `Request.__init__`, `request.py:15–40`. -/
def Request.parameters : Keywords φ :=
  [("session_id", .str ""), ("url", .str ""), ("params", .none), ("headers", .none),
    ("cookies", .none), ("proxies", .none), ("timeout", .int 30), ("max_retry_times", .none),
    ("retry_delay", .none), ("allow_redirects", .bool true), ("max_redirects", .int 30),
    ("verify", .none), ("impersonate", .none), ("ja3", .none), ("akamai", .none),
    ("meta", .none), ("dont_filter", .none), ("callback", .none), ("errback", .none),
    ("desc_text", .str ""), ("no_proxy", .bool false), ("stream", .bool false),
    ("http_version", .none)]

/-- `join_url_params`, `request.py:100–101`. -/
def joinUrlParams (rt : Runtime φ) (url params : Value φ) : Except PyError (Value φ) := do
  if params.truthy then
    return .str (rt.text url ++ "?" ++ (← rt.urlencode params))
  return url

/-- `a < b` of numbers. -/
def less (a b : Value φ) : Except PyError Bool := do
  return (← compareNumbers a b) = some .lt

/-- `a <= b` of numbers. -/
def lessEq (a b : Value φ) : Except PyError Bool := do
  let order ← compareNumbers a b
  return order = some .lt ∨ order = some .eq

/-- `if test: raise ValueError(message)`. -/
def reject (test : Except PyError Bool) (message : String) : Except PyError Unit := do
  if ← test then
    throw (.valueError message)

/-- `value is not None and test`. -/
def unlessNone (value : Value φ) (test : Except PyError Bool) : Except PyError Bool :=
  match value with
  | .none => .ok false
  | _ => test

/-- `callback if isinstance(callback, str) else (callback.__name__ if callback else None)`. -/
def callbackName (callback : Value φ) : Except PyError (Value φ) :=
  match callback with
  | .str s => .ok (.str s)
  | .function name => .ok (.str name)
  | _ => if callback.truthy then .error .attributeError else .ok .none

/-- `Request.__init__`, `request.py:15–69`. -/
def Request.init (rt : Runtime φ) (keywords : Keywords φ) : Except PyError (Request φ) := do
  let args := bindArguments Request.parameters keywords
  let url ← joinUrlParams rt (argument args "url") (argument args "params")
  let maxRetryTimes := argument args "max_retry_times"
  let retryDelay := argument args "retry_delay"
  reject (unlessNone maxRetryTimes (less maxRetryTimes (.int 1)))
    "max_retry_times must be at least 1"
  reject (unlessNone retryDelay (less retryDelay (.int 0))) "retry_delay cannot be negative"
  let callback ← callbackName (argument args "callback")
  let errback ← callbackName (argument args "errback")
  return {
    sessionId := argument args "session_id"
    url := url
    headers := argument args "headers"
    cookies := argument args "cookies"
    proxies := argument args "proxies"
    timeout := argument args "timeout"
    maxRetryTimes := maxRetryTimes
    retryDelay := retryDelay
    allowRedirects := argument args "allow_redirects"
    maxRedirects := argument args "max_redirects"
    verify := argument args "verify"
    impersonate := argument args "impersonate"
    ja3 := argument args "ja3"
    akamai := argument args "akamai"
    metaDict := if (argument args "meta").truthy then argument args "meta" else .dict []
    dontFilter := argument args "dont_filter"
    callback := callback
    errback := errback
    descText := argument args "desc_text"
    noProxy := argument args "no_proxy"
    stream := argument args "stream"
    httpVersion := argument args "http_version"
    kwargs := spillOver Request.parameters keywords }

/-! ## `HttpRequest` -/

/-- The parameters of `HttpRequest.__init__`, `request.py:167–195`. -/
def HttpRequest.parameters : Keywords φ :=
  [("session_id", .str ""), ("url", .str ""), ("params", .none), ("method", .str "GET"),
    ("headers", .none), ("data", .none), ("json", .none), ("cookies", .none),
    ("proxies", .none), ("timeout", .int 30), ("max_retry_times", .none),
    ("retry_delay", .none), ("allow_redirects", .bool true), ("max_redirects", .int 30),
    ("verify", .none), ("impersonate", .none), ("ja3", .none), ("akamai", .none),
    ("meta", .none), ("dont_filter", .none), ("callback", .none), ("errback", .none),
    ("desc_text", .str ""), ("no_proxy", .bool false), ("stream", .bool false),
    ("http_version", .none)]

/-- The parameters it keeps from `Request.__init__`. -/
def HttpRequest.own : List String := ["method", "data", "json"]

/-- `method.upper()`. -/
def upperMethod (rt : Runtime φ) : Value φ → Except PyError (Value φ)
  | .str s => .ok (.str (rt.upper s))
  | .bytes b => .ok (.bytes (b.map fun n ↦ if 97 ≤ n ∧ n ≤ 122 then n - 32 else n))
  | _ => .error .attributeError

/-- The branch for a `json` argument, `request.py:198–200`: `set_header` looks the key up in
`self.headers`, which `Request.__init__` has not assigned yet. -/
def encodeJson (json : Value φ) : Except PyError Unit := do
  if json.truthy then
    let _ ← dumps json
    throw .attributeError

/-- `HttpRequest.__init__`, `request.py:167–229`. -/
def HttpRequest.init (rt : Runtime φ) (keywords : Keywords φ) :
    Except PyError (HttpRequest φ) := do
  let args := bindArguments HttpRequest.parameters keywords
  let method ← upperMethod rt (argument args "method")
  encodeJson (argument args "json")
  let request ← Request.init rt (passOn HttpRequest.own HttpRequest.parameters keywords)
  -- the answer only decides on a warning, but asking can raise
  let _ ← isProtobuf rt request.headers
  return { request with method, data := argument args "data" }

/-! ## `MediaRequest` -/

/-- The parameters of `MediaRequest.__init__`, `request.py:250–279`. -/
def MediaRequest.parameters : Keywords φ :=
  [("session_id", .str ""), ("url", .str ""), ("params", .none), ("method", .str "GET"),
    ("headers", .none), ("data", .none), ("json", .none), ("cookies", .none),
    ("proxies", .none), ("single_part_size", .int 2999999), ("media_size", .int 0),
    ("max_media_size", .none), ("timeout", .int 30), ("max_retry_times", .none),
    ("retry_delay", .none), ("allow_redirects", .bool true), ("max_redirects", .int 30),
    ("verify", .none), ("impersonate", .none), ("ja3", .none), ("akamai", .none),
    ("meta", .none), ("dont_filter", .none), ("callback", .none), ("errback", .none),
    ("desc_text", .str ""), ("no_proxy", .bool false)]

/-- The parameters it keeps from `HttpRequest.__init__`. -/
def MediaRequest.own : List String := ["single_part_size", "media_size", "max_media_size"]

/-- `MediaRequest.__init__`, `request.py:250–321`. -/
def MediaRequest.init (rt : Runtime φ) (keywords : Keywords φ) :
    Except PyError (MediaRequest φ) := do
  let args := bindArguments MediaRequest.parameters keywords
  let singlePartSize := argument args "single_part_size"
  let mediaSize := argument args "media_size"
  let maxMediaSize := argument args "max_media_size"
  reject (lessEq singlePartSize (.int 0)) "single_part_size must be positive"
  reject (less mediaSize (.int 0)) "media_size must be non-negative"
  reject (unlessNone maxMediaSize (lessEq maxMediaSize (.int 0)))
    "max_media_size must be positive or None"
  reject (unlessNone maxMediaSize (less maxMediaSize mediaSize))
    "media_size exceeds max_media_size"
  let request ← HttpRequest.init rt (passOn MediaRequest.own MediaRequest.parameters keywords)
  return { request with singlePartSize, mediaSize, maxMediaSize }

/-! ## `WebSocketRequest` -/

/-- The parameters of `WebSocketRequest.__init__`, `request.py:329–359`. -/
def WebSocketRequest.parameters : Keywords φ :=
  [("session_id", .str ""), ("websocket_id", .str ""), ("url", .str ""), ("params", .none),
    ("headers", .none), ("send_message", .none), ("ping_data", .none),
    ("ping_interval", .float (PyFloat.ofInt 15)), ("cookies", .none), ("proxies", .none),
    ("timeout", .int 30), ("max_retry_times", .none), ("retry_delay", .none),
    ("allow_redirects", .bool true), ("max_redirects", .int 30), ("verify", .none),
    ("impersonate", .none), ("ja3", .none), ("akamai", .none), ("meta", .none),
    ("dont_filter", .none), ("callback", .none), ("errback", .none), ("desc_text", .str ""),
    ("no_proxy", .bool false)]

/-- The parameters it keeps from `Request.__init__`. -/
def WebSocketRequest.own : List String :=
  ["websocket_id", "send_message", "ping_data", "ping_interval"]

/-- The messages of a list; the source shows the type of the list, not of the item. -/
def messages : List (Value φ) → Except PyError (List WebSocketMsg)
  | [] => .ok []
  | .msg m :: rest => do return m :: (← messages rest)
  | _ :: _ => .error (.valueError
      "send_message must be WebSocketMsg in versions >=0.2.2, got <class 'list'>")

/-- The list made of `send_message`, `request.py:382–391`. -/
def sendMessages : Value φ → Except PyError (List WebSocketMsg)
  | .none => .ok [{ data := [112, 105, 110, 103], flags := some binaryFlag }]
  | .list items => messages items
  | value => messages [value]

/-- `type(value)` in a message. -/
def typeName : Value φ → String
  | .none => "<class 'NoneType'>"
  | .bool _ => "<class 'bool'>"
  | .int _ => "<class 'int'>"
  | .float _ => "<class 'float'>"
  | .str _ => "<class 'str'>"
  | .bytes _ => "<class 'bytes'>"
  | .msg _ => "<class 'scrapy_cffi.models.request.WebSocketMsg'>"
  | .list _ => "<class 'list'>"
  | .tuple _ => "<class 'tuple'>"
  | .dict _ => "<class 'dict'>"
  | .function _ => "<class 'function'>"

/-- The check of `ping_data`, `request.py:393–394`. -/
def checkPingData (value : Value φ) : Except PyError Unit :=
  match value with
  | .msg _ => .ok ()
  | _ =>
    if value.truthy then
      .error (.valueError ("ping_data must be WebSocketMsg, got " ++ typeName value))
    else .ok ()

/-- `WebSocketRequest.__init__`, `request.py:329–399`. -/
def WebSocketRequest.init (rt : Runtime φ) (keywords : Keywords φ) :
    Except PyError (WebSocketRequest φ) := do
  let args := bindArguments WebSocketRequest.parameters keywords
  let request ←
    Request.init rt (passOn WebSocketRequest.own WebSocketRequest.parameters keywords)
  let sendMessage ← sendMessages (argument args "send_message")
  checkPingData (argument args "ping_data")
  return { request with
    websocketId := argument args "websocket_id"
    sendMessage
    pingData := argument args "ping_data"
    pingInterval := argument args "ping_interval" }

end ScrapyCffi.Requests
