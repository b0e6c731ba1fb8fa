import Mathlib.Logic.Function.Basic
import ScrapyCffi.ClientHints.State

/-!
# The client-hint interceptor

`interceptors/client_hints.py:23–201`. A response is handled up to the first hint that the spider
has to resolve; the handler goes on when that call has returned, and other requests and responses
pass between.
-/

namespace ScrapyCffi.ClientHints

open ScrapyCffi.Base

/-- The headers of a request: none, a mapping, or a list of pairs. -/
inductive Headers
  | none
  | mapping (entries : Dict Text Text)
  | pairs (entries : List (Text × Text))
  deriving DecidableEq

/-- The names and values in a container. -/
def Headers.entries : Headers → List (Text × Text)
  | .none => []
  | .mapping d => d.entries
  | .pairs entries => entries

/-- Whether a container is a list. -/
def Headers.isPairs : Headers → Bool
  | .pairs _ => true
  | _ => false

/-- A request, as far as the interceptor reads it. -/
structure Request where
  isHttp : Bool
  sessionId : Text
  url : Text
  impersonate : Option Text
  headers : Headers

/-- A response: whether it is an `HttpResponse` or a `StreamResponse`, the URL it came from in
the end, and its headers. -/
structure Response where
  isHttp : Bool
  effectiveUrl : Text
  headers : List (Text × Text)

/-- What a call of the spider's resolver ends with. -/
inductive Resolved
  | value (value : Option Text)
  | raised
  deriving DecidableEq

/-- The response header with the names of the hints an origin asks for. -/
def acceptCH : Text := "Accept-CH".toList

/-- The response header that clears what an origin left. -/
def clearSiteData : Text := "Clear-Site-Data".toList

/-- What `Clear-Site-Data` says in quotes for client hints, in lower case. -/
def quotedClientHints : Text := "\"clienthints\"".toList

/-- The profile of a request the interceptor does not pass over. -/
def Request.profile (request : Request) : Option Text :=
  if request.isHttp then request.impersonate.filter (· ≠ []) else none

section
variable (env : Environment)

/-- `_header_values`, `client_hints.py:23–38`. -/
def headerValues (headers : List (Text × Text)) (name : Text) : Option (List Text) :=
  match (headers.filter fun entry ↦ env.lower entry.1 = env.lower name).map Prod.snd with
  | [] => none
  | values => some values

/-- `_has_request_header`, `client_hints.py:41–54`. -/
def hasRequestHeader (headers : Headers) (name : Text) : Bool :=
  headers.entries.any fun entry ↦ env.lower entry.1 = env.lower name

/-- `_append_request_header`, `client_hints.py:57–65`; the headers are not `None` there. -/
def appendRequestHeader (headers : Headers) (name value : Text) : Headers :=
  match headers with
  | .none => .none
  | .mapping d => .mapping (d.set name value)
  | .pairs entries => .pairs (entries ++ [(name, value)])

/-- The loop over the hints, `client_hints.py:110–117`. -/
def injectHeaders (headers : Headers) (hints : List (Text × Text)) : Headers :=
  hints.foldl (fun headers (name, value) ↦
    if hasRequestHeader env headers name then headers
    else appendRequestHeader headers name value) headers

/-- The key of `get_or_create_session`. -/
def sessionKey (defaultSessionId sessionId : Text) : Text :=
  if sessionId = [] then defaultSessionId else sessionId

end

/-- The client hints of the sessions, and the hints that the handlers of responses have still to
resolve, by session, origin and profile; the first of a handler's is being resolved. -/
structure State where
  sessions : Text → ClientHintsState
  resolving : Text × Text × Text → List (List (Text × Text))

/-- No response has been handled. -/
def State.initial : State := ⟨fun _ ↦ .empty, fun _ ↦ []⟩

section
variable (env : Environment) (defaultSessionId : Text)

/-- `request_intercept`, `client_hints.py:96–131`: the headers of the request. -/
def requestIntercept (s : State) (request : Request) : Except Unit Headers :=
  match request.profile with
  | none => .ok request.headers
  | some profile =>
    match clientHintOrigin env request.url with
    | .error e => .error e
    | .ok none => .ok request.headers
    | .ok (some origin) =>
      let hints := s.sessions (sessionKey defaultSessionId request.sessionId)
      let headers := match request.headers with
        | .none => .mapping .empty
        | headers => headers
      .ok (injectHeaders env headers (hints.headersForRequest env origin profile))

/-- The session, origin and profile that `response_intercept` updates, `client_hints.py:139–150`:
the origin is that of the request. -/
def handledFor (request : Request) (response : Response) : Option (Text × Text × Text) :=
  match request.profile with
  | none => none
  | some profile =>
    if response.isHttp then
      match clientHintOrigin env request.url with
      | .ok (some origin) => some (sessionKey defaultSessionId request.sessionId, origin, profile)
      | _ => none
    else none

/-- Whether a `Clear-Site-Data` header names client hints, `client_hints.py:152–154`. -/
def clearsHints (values : List Text) : Bool :=
  values.any fun value ↦ decide (quotedClientHints <:+: env.lower value)

/-- The hints of a session after `Clear-Site-Data`. -/
def ClientHintsState.afterClear (hints : ClientHintsState) (origin : Text) (values : List Text) :
    ClientHintsState :=
  if clearsHints env values then hints.clearOrigin origin else hints

/-- The hints behind those that need no resolver, `client_hints.py:163–174`. -/
def unresolved (hints : ClientHintsState) (origin profile : Text) :
    List (Text × Text) → List (Text × Text) :=
  List.dropWhile fun (normalized, _) ↦
    normalized ∈ nativeDefaultClientHints || (hints.getValue env origin profile normalized).isSome

/-- `response_intercept` up to the first resolver call, `client_hints.py:149–174`. -/
def State.respond (s : State) (session origin profile : Text) (headers : List (Text × Text)) :
    State :=
  let clear := (headerValues env headers clearSiteData).getD []
  let hints := (s.sessions session).afterClear env origin clear
  match headerValues env headers acceptCH with
  | none => { s with sessions := Function.update s.sessions session hints }
  | some values =>
    let requested := parseClientHintNames env (List.intercalate [','] values)
    let hints := hints.replaceRequested origin requested
    let key := (session, origin, profile)
    let handler := unresolved env hints origin profile requested.entries
    { sessions := Function.update s.sessions session hints
      resolving := Function.update s.resolving key (s.resolving key ++ [handler]) }

/-- `response_intercept` from the return of a resolver call up to the next one,
`client_hints.py:175–200`. The call was made by the `n`-th handler of its kind. -/
def State.resolve (s : State) (session origin profile : Text) (n : Nat) (resolved : Resolved) :
    State :=
  let key := (session, origin, profile)
  let handlers := s.resolving key
  match handlers[n]? with
  | some ((normalized, _) :: rest) =>
    match resolved with
    | .raised => { s with resolving := Function.update s.resolving key (handlers.set n []) }
    | .value value =>
      let hints := s.sessions session
      let hints := match value with
        | some value => hints.setRuntimeValue env origin profile normalized value
        | none => (hints.markWarned env origin profile normalized).2
      let handler := unresolved env hints origin profile rest
      { sessions := Function.update s.sessions session hints
        resolving := Function.update s.resolving key (handlers.set n handler) }
  | _ => s

/-- A request passes, a response comes in, a resolver call returns. -/
inductive Event
  | request (request : Request)
  | response (request : Request) (response : Response)
  | resolved (session origin profile : Text) (n : Nat) (resolved : Resolved)

/-- One event; a request changes nothing but its own headers. -/
def State.step (s : State) : Event → State
  | .request _ => s
  | .response request response =>
    match handledFor env defaultSessionId request response with
    | none => s
    | some (session, origin, profile) => s.respond env session origin profile response.headers
  | .resolved session origin profile n resolved =>
    s.resolve env session origin profile n resolved

end
end ScrapyCffi.ClientHints
