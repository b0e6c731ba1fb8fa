import ScrapyCffi.Base.Separator
import ScrapyCffi.Requests.Serialise

/-!
# Fingerprint bytes

`BaseFingerprint.create_bytes`, `dupefilter/base.py:16–37`, and the helpers it calls,
`dupefilter/fingerprint.py:25–55`. The functions of `urllib.parse` are parameters. A list of
header names stands for `INCLUDE_HEADERS`, whose type `create_bytes` checks first.
-/

namespace ScrapyCffi.Dupefilter

open ScrapyCffi.Requests

/-- The functions of `urllib.parse` on a result of `urlparse`. -/
structure Urllib (φ : Type) where
  Parsed : Type
  urlparse : Value φ → Except PyError Parsed
  query : Parsed → Value φ
  parseQsl : Value φ → Except PyError (List (String × String))
  urlencode : List (String × String) → String
  replaceQuery : Parsed → String → Parsed
  urlunparse : Parsed → Except PyError String

variable {φ : Type} [PyFloat φ] (lib : Urllib φ) (rt : Runtime φ)

/-- The order of pairs of strings. -/
def pairLe (p q : String × String) : Bool := p.1 < q.1 ∨ p.1 = q.1 ∧ p.2 ≤ q.2

/-- `canonical_request_url`, `fingerprint.py:25–31`. -/
def canonicalRequestUrl (url : Value φ) : Except PyError (Value φ) := do
  let parsed ← lib.urlparse url
  if (lib.query parsed).truthy = false then
    return url
  let pairs ← lib.parseQsl (lib.query parsed)
  let sorted := pairs.insertionSort fun p q ↦ pairLe p q = true
  return .str (← lib.urlunparse (lib.replaceQuery parsed (lib.urlencode sorted)))

/-- `text.encode("latin-1")`. -/
def latin1 (text : List Char) : Except PyError (List UInt8) :=
  if text.all fun c ↦ c.toNat < 256 then .ok (text.map fun c ↦ UInt8.ofNat c.toNat)
  else .error .unicodeError

/-- `d[key] = value`. -/
def dictSet (key : String) (value : Value φ) :
    List (Value φ × Value φ) → List (Value φ × Value φ)
  | [] => [(.str key, value)]
  | (.str name, old) :: rest =>
    if name = key then (.str name, value) :: rest else (.str name, old) :: dictSet key value rest
  | entry :: rest => entry :: dictSet key value rest

/-- The loop over the header names, `fingerprint.py:42–46`. -/
def headerSubset (headers : Value φ) :
    List String → List (Value φ × Value φ) → Except PyError (List (Value φ × Value φ))
  | [], subset => .ok subset
  | headerKey :: rest, subset => do
    match ← findHeaderKey rt headers headerKey with
    | none => headerSubset headers rest subset
    | some found =>
      if found = "" then
        headerSubset headers rest subset
      else
        let value ← headerValue headers found
        headerSubset headers rest (dictSet (rt.lower found) value subset)

/-- The part of the method, `fingerprint.py:51–52`. -/
def methodBytes : Value φ → Except PyError (List UInt8)
  | .none => .ok []
  | method => latin1 ((rt.text method).toList ++ ['|'])

/-- `build_fingerprint_bytes`, `fingerprint.py:34–55`. -/
def buildFingerprintBytes (request : Requests.Request φ) (includeHeaders : List String) (method : Value φ)
    (bodyParts : List (List UInt8)) : Except PyError (List UInt8) := do
  let subset ← headerSubset rt request.headers includeHeaders []
  let url ← canonicalRequestUrl lib request.url
  let headers ← dumpsSorted (.dict subset)
  let head ← latin1 ((rt.text url).toList ++ '|' :: headers)
  let methodPart ← methodBytes rt method
  return head ++ methodPart ++ bodyParts.flatten

/-- The body parts of an HTTP request, `base.py:23–28`. -/
def bodyParts : Value φ → Except PyError (List (List UInt8))
  | .bytes data => .ok [data]
  | .dict entries => do return [← latin1 (← dumpsSorted (.dict entries))]
  | _ => .ok []

/-- `create_bytes` of an `HttpRequest`, `base.py:21–37`. -/
def createBytesHttp (includeHeaders : List String) (request : HttpRequest φ) :
    Except PyError (List UInt8) := do
  let parts ← bodyParts request.data
  buildFingerprintBytes lib rt request.toRequest includeHeaders request.method parts

/-- `create_bytes` of a `WebSocketRequest`, `base.py:29–37`. -/
def createBytesWebSocket (includeHeaders : List String) (request : WebSocketRequest φ) :
    Except PyError (List UInt8) :=
  buildFingerprintBytes lib rt request.toRequest includeHeaders .none
    (request.sendMessage.map WebSocketMsg.data)

end ScrapyCffi.Dupefilter
