import Mathlib.Data.List.Infix
import ScrapyCffi.Base.Dict

/-!
# Client hints of a session

`core/client_hints.py:17–170` and `ProfileSpec.get_client_hint`, `profiles/registry.py:35–49`. A
text is the list of its characters; `str.lower`, the whitespace of `str.strip` and `urlsplit` are
parameters.
-/

namespace ScrapyCffi.ClientHints

open ScrapyCffi.Base

/-- A text. -/
abbrev Text := List Char

/-- What `urlsplit` gives, as far as it is read; a bad port raises when it is. -/
structure SplitUrl where
  scheme : Text
  hostname : Option Text
  port : Except Unit (Option Nat)

/-- `ProfileSpec`, without the native target. -/
structure ProfileSpec where
  clientHints : List (Text × Text)

/-- What the code takes from the standard library, and the profile registry. -/
structure Environment where
  lower : Text → Text
  isSpace : Char → Bool
  urlsplit : Text → Except Unit SplitUrl
  registry : Text → Option ProfileSpec

/-- `NATIVE_DEFAULT_CLIENT_HINTS`. -/
def nativeDefaultClientHints : List Text :=
  ["sec-ch-ua".toList, "sec-ch-ua-mobile".toList, "sec-ch-ua-platform".toList]

instance (normalized : Text) : Decidable (normalized ∈ nativeDefaultClientHints) :=
  inferInstanceAs (Decidable (normalized ∈ (nativeDefaultClientHints : List Text)))

section
variable (env : Environment)

/-- `ProfileSpec.get_client_hint`. -/
def ProfileSpec.getClientHint (spec : ProfileSpec) (name : Text) : Option Text :=
  (spec.clientHints.find? fun hint ↦ env.lower hint.1 = env.lower name).map Prod.snd

/-- `client_hint_origin`, `client_hints.py:17–26`; an error is a `ValueError`. -/
def clientHintOrigin (url : Text) : Except Unit (Option Text) :=
  match env.urlsplit url with
  | .error e => .error e
  | .ok parsed =>
    let hostname := parsed.hostname.getD []
    if env.lower parsed.scheme ≠ "https".toList ∨ hostname = [] then .ok none
    else
      match parsed.port with
      | .error e => .error e
      | .ok port =>
        let host := env.lower hostname
        match port with
        | none => .ok (some ("https://".toList ++ host))
        | some 443 => .ok (some ("https://".toList ++ host))
        | some port => .ok (some ("https://".toList ++ host ++ ':' :: (toString port).toList))

/-- `str.strip`. -/
def strip (text : Text) : Text :=
  ((text.dropWhile env.isSpace).reverse.dropWhile env.isSpace).reverse

/-- `parse_client_hint_names`, `client_hints.py:29–36`. -/
def parseClientHintNames (value : Text) : Dict Text Text :=
  Dict.ofList ((((value.splitOn ',').map (strip env)).filter (· ≠ [])).map fun name ↦
    (env.lower name, name))

end

/-- `_OriginClientHints`, `client_hints.py:39–44`. -/
structure OriginClientHints where
  requested : Dict Text Text
  runtimeValues : Dict Text (Dict Text Text)
  deriving DecidableEq

/-- An origin without preferences. -/
def OriginClientHints.empty : OriginClientHints := ⟨.empty, .empty⟩

/-- `ClientHintsState`, `client_hints.py:47–170`; the warned keys are a set. -/
structure ClientHintsState where
  origins : Dict Text OriginClientHints
  warned : List Text

namespace ClientHintsState

/-- `ClientHintsState()`. -/
def empty : ClientHintsState := ⟨.empty, []⟩

/-- `self._origins.setdefault(origin, _OriginClientHints())`. -/
def entry (s : ClientHintsState) (origin : Text) : OriginClientHints :=
  (s.origins.get origin).getD .empty

/-- `replace_requested`. -/
def replaceRequested (s : ClientHintsState) (origin : Text) (names : Dict Text Text) :
    ClientHintsState :=
  { s with origins := s.origins.set origin { s.entry origin with requested := names } }

/-- `clear_origin`. -/
def clearOrigin (s : ClientHintsState) (origin : Text) : ClientHintsState where
  origins := s.origins.erase origin
  warned := s.warned.filter fun key ↦ !(origin ++ [Char.ofNat 0]).isPrefixOf key

/-- `requested_names`. -/
def requestedNames (s : ClientHintsState) (origin : Text) : Dict Text Text :=
  (s.entry origin).requested

/-- `state.runtime_values.get(profile, {})`. -/
def values (s : ClientHintsState) (origin profile : Text) : Dict Text Text :=
  ((s.entry origin).runtimeValues.get profile).getD .empty

variable (env : Environment)

/-- `set_runtime_value`. -/
def setRuntimeValue (s : ClientHintsState) (origin profile name value : Text) :
    ClientHintsState :=
  let state := s.entry origin
  let values := (s.values origin profile).set (env.lower name) value
  let state := { state with runtimeValues := state.runtimeValues.set profile values }
  { s with origins := s.origins.set origin state }

/-- `get_value`. -/
def getValue (s : ClientHintsState) (origin profile name : Text) : Option Text :=
  match (s.values origin profile).get (env.lower name) with
  | some value => some value
  | none => (env.registry profile).bind fun spec ↦ spec.getClientHint env name

/-- `headers_for_request`. -/
def headersForRequest (s : ClientHintsState) (origin profile : Text) : List (Text × Text) :=
  (s.requestedNames origin).entries.filterMap fun (normalized, requestedName) ↦
    if normalized ∈ nativeDefaultClientHints then none
    else (s.getValue env origin profile normalized).map (requestedName, ·)

/-- `mark_warned`. -/
def markWarned (s : ClientHintsState) (origin profile name : Text) : Bool × ClientHintsState :=
  let key := origin ++ Char.ofNat 0 :: profile ++ Char.ofNat 0 :: env.lower name
  if key ∈ s.warned then (false, s) else (true, { s with warned := key :: s.warned })

/-- `export_state`. -/
def exportState (s : ClientHintsState) : Dict Text OriginClientHints := s.origins

end ClientHintsState

/-- `str.lower` of a string. -/
def Environment.lowerString (env : Environment) (text : String) : String :=
  String.ofList (env.lower text.toList)

/-- The names of a state that is imported are stored in lower case. -/
def lowerNames (env : Environment) (names : Dict Text Text) : Dict Text Text :=
  Dict.ofList (names.entries.map fun entry ↦ (env.lower entry.1, entry.2))

/-- An origin as `import_state` stores it. -/
def OriginClientHints.clean (env : Environment) (o : OriginClientHints) : OriginClientHints where
  requested := lowerNames env o.requested
  runtimeValues := o.runtimeValues.mapValues (lowerNames env)

/-- `import_state`; an absent state is tolerated. -/
def ClientHintsState.importState (env : Environment) (s : ClientHintsState) :
    Option (Dict Text OriginClientHints) → ClientHintsState
  | none => s
  | some origins => { origins := origins.mapValues (OriginClientHints.clean env), warned := [] }

/-! ## One origin's share -/

namespace ClientHintsState

variable {s : ClientHintsState} {origin other profile profile' : Text}

theorem entry_replaceRequested (names : Dict Text Text) :
    (s.replaceRequested origin names).entry other =
      if other = origin then { s.entry origin with requested := names } else s.entry other := by
  rw [entry, replaceRequested, Dict.get_set]
  split <;> rfl

theorem entry_clearOrigin :
    (s.clearOrigin origin).entry other =
      if other = origin then OriginClientHints.empty else s.entry other := by
  rw [entry, clearOrigin, Dict.get_erase]
  split <;> rfl

theorem entry_setRuntimeValue (env : Environment) (name value : Text) :
    (s.setRuntimeValue env origin profile name value).entry other =
      if other = origin then { s.entry origin with
        runtimeValues := (s.entry origin).runtimeValues.set profile
          ((s.values origin profile).set (env.lower name) value) }
      else s.entry other := by
  rw [entry, setRuntimeValue, Dict.get_set]
  split <;> rfl

@[simp] theorem entry_markWarned (env : Environment) (name : Text) :
    (s.markWarned env origin profile name).2.entry other = s.entry other := by
  rw [markWarned]
  split <;> rfl

end ClientHintsState
end ScrapyCffi.ClientHints
