import ScrapyCffi.Requests.Classes
import ScrapyCffi.Requests.State

/-!
# Requests as bytes

`to_dict`, `to_bytes`, `from_bytes` and `_from_dict` of the request classes,
`core/downloader/internet/request.py:103–159`, with the registry that finds a class by its
name, `registry.py:10–14`. A dictionary has its entries in the order of assignment.
-/

namespace ScrapyCffi.Requests

variable {φ : Type}

/-- `**kwargs` as the value of an attribute. -/
def kwargsValue (kwargs : Keywords φ) : Value φ := .dict (kwargs.map fun p ↦ (.str p.1, p.2))

/-- The attributes of a `Request` before `kwargs`. -/
def Request.attributes (r : Request φ) : Keywords φ :=
  [("session_id", r.sessionId), ("url", r.url), ("headers", r.headers), ("cookies", r.cookies),
    ("proxies", r.proxies), ("timeout", r.timeout), ("max_retry_times", r.maxRetryTimes),
    ("retry_delay", r.retryDelay), ("allow_redirects", r.allowRedirects),
    ("max_redirects", r.maxRedirects), ("verify", r.verify), ("impersonate", r.impersonate),
    ("ja3", r.ja3), ("akamai", r.akamai), ("meta", r.metaDict), ("dont_filter", r.dontFilter),
    ("callback", r.callback), ("errback", r.errback), ("desc_text", r.descText),
    ("no_proxy", r.noProxy), ("stream", r.stream), ("http_version", r.httpVersion)]

/-- The attributes of an `HttpRequest` before `kwargs`. -/
def HttpRequest.attributes (r : HttpRequest φ) : Keywords φ :=
  [("method", r.method), ("data", r.data)] ++ r.toRequest.attributes

/-- The attributes a `MediaRequest` adds after `kwargs`. -/
def MediaRequest.later (r : MediaRequest φ) : Keywords φ :=
  [("single_part_size", r.singlePartSize), ("media_size", r.mediaSize),
    ("max_media_size", r.maxMediaSize)]

/-- The attributes a `WebSocketRequest` adds after `kwargs`. -/
def WebSocketRequest.later (r : WebSocketRequest φ) : Keywords φ :=
  [("websocket_id", r.websocketId), ("send_message", .list (r.sendMessage.map .msg)),
    ("ping_data", r.pingData), ("ping_interval", r.pingInterval)]

/-- A request of one of the registered classes. -/
inductive AnyRequest (φ : Type)
  | http (r : HttpRequest φ)
  | media (r : MediaRequest φ)
  | webSocket (r : WebSocketRequest φ)

namespace AnyRequest

/-- `__class__.__name__`. -/
def className : AnyRequest φ → String
  | .http _ => "HttpRequest"
  | .media _ => "MediaRequest"
  | .webSocket _ => "WebSocketRequest"

/-- `ENCODE_FIELDS` of an HTTP request, `request.py:163–165`; a media request inherits it. -/
def httpFields : List String := ["headers", "data", "cookies", "proxies", "meta", "kwargs"]

/-- `ENCODE_FIELDS` of a WebSocket request, `request.py:325–327`. -/
def webSocketFields : List String :=
  ["headers", "send_message", "ping_data", "cookies", "proxies", "meta", "kwargs"]

/-- `ENCODE_FIELDS`. -/
def encodeFields : AnyRequest φ → List String
  | .http _ => httpFields
  | .media _ => httpFields
  | .webSocket _ => webSocketFields

/-- The attributes before `kwargs`. -/
def attributes : AnyRequest φ → Keywords φ
  | .http r => r.attributes
  | .media r => r.toHttpRequest.attributes
  | .webSocket r => r.toRequest.attributes

/-- The attribute `kwargs`. -/
def kwargs : AnyRequest φ → Keywords φ
  | .http r => r.kwargs
  | .media r => r.kwargs
  | .webSocket r => r.kwargs

/-- The attributes after `kwargs`. -/
def later : AnyRequest φ → Keywords φ
  | .http _ => []
  | .media r => r.later
  | .webSocket r => r.later

/-- `__dict__`. -/
def dict (r : AnyRequest φ) : Keywords φ :=
  r.attributes ++ ("kwargs", kwargsValue r.kwargs) :: r.later

end AnyRequest

/-- `to_dict` over the attributes, `request.py:118–124`. -/
def toDict (fields : List String) (dict : Keywords φ) : List (Value φ × Value φ) :=
  dict.map fun p ↦ (.str p.1, if p.1 ∈ fields then p.2.encodeData else p.2)

variable [PyFloat φ]

/-- The dictionary `to_bytes` encodes, `request.py:127–128`. -/
def AnyRequest.state (r : AnyRequest φ) : Value φ :=
  .dict (toDict r.encodeFields r.dict ++ [(.str "class", .str r.className)])

/-- `Request.to_bytes`, `request.py:126–129`. -/
def AnyRequest.toBytes (codec : Codec φ) (r : AnyRequest φ) : Except PyError (List UInt8) :=
  encodeState codec r.state 6 maxStateBytes

/-- The keywords of `**mapping`; keys have to be strings. -/
def keywordsOf : List (Value φ × Value φ) → Except PyError (Keywords φ)
  | [] => .ok []
  | (.str key, value) :: rest => do return (key, value) :: (← keywordsOf rest)
  | _ :: _ => .error .typeError

/-- `_decode_data` of the entries with an encoded field, `request.py:156–158`. -/
def decodeFields (fields : List String) : Keywords φ → Except PyError (Keywords φ)
  | [] => .ok []
  | (key, value) :: rest => do
    let decoded ← if key ∈ fields then value.decodeData else .ok value
    return (key, decoded) :: (← decodeFields fields rest)

/-- `cls(**d, **kwargs)`: no argument may come twice. -/
def call {α : Type} (init : Keywords φ → Except PyError α) (d kwargs : Keywords φ) :
    Except PyError α :=
  if ∃ p ∈ kwargs, p.1 ∈ names d then .error .typeError else init (d ++ kwargs)

/-- `_from_dict`, `request.py:153–159`. -/
def fromDict {α : Type} (fields : List String) (init : Keywords φ → Except PyError α)
    (d : Keywords φ) : Except PyError α := do
  let kwargs ← ((d.lookup "kwargs").getD (.dict [])).decodeData
  let d ← decodeFields fields (without ["kwargs"] d)
  match kwargs with
  | .dict entries => call init d (← keywordsOf entries)
  | _ => throw .typeError

/-- The class `get_request_class` finds builds the request, `request.py:134–136`. -/
def fromClass (rt : Runtime φ) (className : Value φ) (d : Keywords φ) :
    Except PyError (AnyRequest φ) :=
  match className with
  | .str "HttpRequest" => .http <$> fromDict AnyRequest.httpFields (HttpRequest.init rt) d
  | .str "MediaRequest" => .media <$> fromDict AnyRequest.httpFields (MediaRequest.init rt) d
  | .str "WebSocketRequest" =>
    .webSocket <$> fromDict AnyRequest.webSocketFields (WebSocketRequest.init rt) d
  | .list _ => .error .typeError
  | .dict _ => .error .typeError
  | _ => .error
    (.valueError ("Request class '" ++ rt.text className ++ "' not found in registry."))

/-- `Request.from_bytes`, `request.py:131–136`. -/
def fromBytes (codec : Codec φ) (rt : Runtime φ) (payload : List UInt8) :
    Except PyError (AnyRequest φ) := do
  match ← decodeState codec payload maxStateBytes with
  | .dict entries =>
    let d ← keywordsOf entries
    fromClass rt ((d.lookup "class").getD .none) (without ["class"] d)
  | .list _ => throw .typeError
  | _ => throw .attributeError

end ScrapyCffi.Requests
