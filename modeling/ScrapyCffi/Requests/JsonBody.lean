import ScrapyCffi.Dupefilter.Fingerprint
import ScrapyCffi.Requests.RoundTrip

/-!
# JSON bodies

`HttpRequest.__init__` with a `json` argument, `core/downloader/internet/request.py:77–98,196–201`.
`set_header` looks the header up in `self.headers`, an attribute that `Request.__init__` assigns
only afterwards and that no class defines.
-/

namespace ScrapyCffi.Requests

open ScrapyCffi.Base
open ScrapyCffi.Dupefilter (dictSet)

variable {φ : Type} [PyFloat φ]

/-- `self.headers`, once it is assigned. -/
def ownHeaders (assigned : Option (Value φ)) : Except PyError (Value φ) :=
  assigned.elim (.error .attributeError) .ok

/-- `self.find_header_key(key)`, `request.py:77–83`. -/
def findOwnKey (rt : Runtime φ) (assigned : Option (Value φ)) (key : String) :
    Except PyError (Option String) := do
  findHeaderKey rt (← ownHeaders assigned) key

/-- `headers[key] = value`. -/
def setItem (key : String) (value : Value φ) : Value φ → Except PyError (Value φ)
  | .dict entries => .ok (.dict (dictSet key value entries))
  | _ => .error .typeError

/-- What `set_header` does with a header that is there. -/
inductive HeaderMode
  | append
  | overwrite
  deriving DecidableEq

/-- `f"{existing_value}{sep}{value}"`, unless the value is there in some letter case. -/
def appendHeader (rt : Runtime φ) (headers : Value φ) (key value sep : String) :
    Except PyError (Value φ) := do
  match ← headerValue headers key with
  | .str existing =>
    if (rt.lower value).toList <:+: (rt.lower existing).toList then return headers
    else setItem key (.str (existing ++ sep ++ value)) headers
  | .bytes _ => throw .typeError
  | _ => throw .attributeError

/-- `set_header`, `request.py:85–98`; the mapping it is given is the one it changes. -/
def setHeader (rt : Runtime φ) (assigned : Option (Value φ)) (headers : Value φ)
    (key value : String) (mode : HeaderMode) (sep : String) : Except PyError (Value φ) := do
  let headers := match headers with
    | .none => .dict []
    | _ => headers
  match ← findOwnKey rt assigned key, mode with
  | none, _ => setItem key (.str value) headers
  | some found, .overwrite => setItem found (.str value) headers
  | some found, .append => appendHeader rt headers found value sep

/-- `json.dumps(value, separators=(",", ":"))`. -/
def dumpsCompact (value : Value φ) : Except PyError (List Char) :=
  (value.toJson.map (Json.write true)).elim (.error .typeError) .ok

/-- `data` and `headers` behind the branch for a `json` argument, `request.py:198–200`. -/
def jsonBranch (rt : Runtime φ) (assigned : Option (Value φ)) (json data headers : Value φ) :
    Except PyError (Value φ × Value φ) := do
  if json.truthy then
    let text ← dumpsCompact json
    return (.str (String.ofList text), ← setHeader rt assigned headers "Content-Type"
      "application/json" .append "; ")
  return (data, headers)

/-- `HttpRequest.__init__`, `request.py:167–229`, with the mapping of the caller afterwards:
`super().__init__`, which assigns `self.headers`, follows the branch for `json`. -/
def HttpRequest.construct (rt : Runtime φ) (keywords : Keywords φ) :
    Except PyError (HttpRequest φ × Value φ) := do
  let args := bindArguments HttpRequest.parameters keywords
  let method ← upperMethod rt (argument args "method")
  let (data, headers) ←
    jsonBranch rt none (argument args "json") (argument args "data") (argument args "headers")
  let request ← Request.init rt
    (passOn HttpRequest.own HttpRequest.parameters (("headers", headers) :: keywords))
  let _ ← isProtobuf rt request.headers
  let caller := match argument args "headers" with
    | .none => .none
    | _ => headers
  return ({ request with method, data }, caller)

/-! ## The branch always raises -/

/-- The constructor looks up an attribute that is not there yet. -/
theorem setHeader_unassigned (rt : Runtime φ) (headers : Value φ) (key value : String)
    (mode : HeaderMode) (sep : String) :
    setHeader rt none headers key value mode sep = .error .attributeError := rfl

/-- The two ways to write a text raise for the same values. -/
theorem dumps_eq_error {value : Value φ} {e : PyError} :
    dumps value = .error e ↔ dumpsCompact value = .error e := by
  unfold dumps dumpsCompact
  cases value.toJson <;> simp

/-- A `json` argument that is true is never encoded. -/
theorem jsonBranch_unassigned (rt : Runtime φ) (json data headers : Value φ) :
    jsonBranch rt none json data headers =
      (encodeJson json).map fun _ ↦ (data, headers) := by
  unfold jsonBranch encodeJson
  by_cases htruthy : json.truthy = true
  · rw [if_pos htruthy, if_pos htruthy]
    cases htext : dumps json with
    | error e =>
      rw [dumps_eq_error.mp htext]
      rfl
    | ok text =>
      cases hcompact : dumpsCompact json with
      | error e => cases htext.symm.trans (dumps_eq_error.mpr hcompact)
      | ok compact => rfl
  · rw [if_neg htruthy, if_neg htruthy]
    rfl

omit [PyFloat φ] in
/-- Headers that stay as they are bound are passed on as they are. -/
theorem passOn_headers (keywords : Keywords φ) :
    passOn HttpRequest.own HttpRequest.parameters
      (("headers", argument (bindArguments HttpRequest.parameters keywords) "headers") ::
        keywords) = passOn HttpRequest.own HttpRequest.parameters keywords := by
  have hbind : argument (bindArguments HttpRequest.parameters keywords) "headers" =
      (keywords.lookup "headers").getD .none := by
    rw [argument, lookup_bindArguments]
    rfl
  have hmem : "headers" ∈ names (HttpRequest.parameters (φ := φ)) := by
    simp [names, HttpRequest.parameters]
  have hspill : spillOver HttpRequest.parameters
      (("headers", (keywords.lookup "headers").getD .none) :: keywords) =
        spillOver HttpRequest.parameters keywords :=
    List.filter_cons_of_neg (by simpa using hmem)
  have hbound : bindArguments HttpRequest.parameters
      (("headers", (keywords.lookup "headers").getD .none) :: keywords) =
        bindArguments HttpRequest.parameters keywords := rfl
  rw [hbind, passOn, passOn, hspill, hbound]

/-- The constructor that keeps the headers and the mapping of the caller in view gives the request
of the one that leaves them out. -/
theorem HttpRequest.construct_eq (rt : Runtime φ) (keywords : Keywords φ) :
    HttpRequest.construct rt keywords = (HttpRequest.init rt keywords).map fun r ↦
      (r, argument (bindArguments HttpRequest.parameters keywords) "headers") := by
  unfold HttpRequest.construct HttpRequest.init
  simp only [jsonBranch_unassigned]
  cases upperMethod rt (argument (bindArguments HttpRequest.parameters keywords) "method") with
  | error e => rfl
  | ok method =>
    cases encodeJson (argument (bindArguments HttpRequest.parameters keywords) "json") with
    | error e => rfl
    | ok encoded =>
      simp only [bind, Except.bind, Except.map, passOn_headers]
      cases Request.init rt (passOn HttpRequest.own HttpRequest.parameters keywords) with
      | error e => rfl
      | ok request =>
        dsimp only
        cases isProtobuf rt request.headers with
        | error e => rfl
        | ok answer =>
          dsimp only
          split
          · next h => rw [h]; rfl
          · rfl

/-! ## What a request with a JSON body should be -/

/-- The headers of a name, in any letter case. -/
def headersNamed (rt : Runtime φ) (name : String) : Value φ → List (Value φ × Value φ)
  | .dict entries => entries.filter fun p ↦
    match p.1 with
    | .str key => rt.lower key = rt.lower name
    | _ => false
  | _ => []

/-- The headers of other names. -/
def headersBeside (rt : Runtime φ) (name : String) : Value φ → List (Value φ × Value φ)
  | .dict entries => entries.filter fun p ↦
    match p.1 with
    | .str key => rt.lower key ≠ rt.lower name
    | _ => true
  | _ => []

/-- The request has the compact text of the body, one `Content-Type` that names JSON and every
other header of the caller, whose mapping is as it was. -/
structure HttpRequest.Carries (rt : Runtime φ) (body headers : Value φ) (r : HttpRequest φ)
    (caller : Value φ) : Prop where
  data : ∃ text, dumpsCompact body = .ok text ∧ r.data = .str (String.ofList text)
  contentType : ∃ key value, headersNamed rt "Content-Type" r.headers = [(.str key, .str value)] ∧
    "application/json".toList <:+: value.toList
  beside : headersBeside rt "Content-Type" r.headers = headersBeside rt "Content-Type" headers
  caller : caller = headers

/-- The constructor makes a request of the body and the headers it is given. -/
def BuildsJson (rt : Runtime φ) (keywords : Keywords φ) (body : Value φ) : Prop :=
  ∃ r caller, HttpRequest.construct rt keywords = .ok (r, caller) ∧
    r.Carries rt body (argument (bindArguments HttpRequest.parameters keywords) "headers") caller

/-- No body that is true makes a request, with whatever headers. -/
theorem not_buildsJson (rt : Runtime φ) {keywords : Keywords φ} {body : Value φ}
    (hbody : keywords.lookup "json" = some body) (htruthy : body.truthy = true) :
    ¬ BuildsJson rt keywords body := by
  rintro ⟨r, caller, hconstruct, -⟩
  have hjson : argument (bindArguments HttpRequest.parameters keywords) "json" = body :=
    argument_bindArguments (by simp [names, HttpRequest.parameters]) hbody
  rw [HttpRequest.construct_eq] at hconstruct
  cases hinit : HttpRequest.init rt keywords with
  | error e =>
    rw [hinit] at hconstruct
    cases hconstruct
  | ok built =>
    unfold HttpRequest.init at hinit
    obtain ⟨method, -, hbuilt⟩ := bind_eq_ok.mp hinit
    obtain ⟨⟨⟩, hencode, -⟩ := bind_eq_ok.mp hbuilt
    rw [hjson, encodeJson, if_pos htruthy] at hencode
    obtain ⟨text, -, hraise⟩ := bind_eq_ok.mp hencode
    cases hraise

/-- The keywords of a request with one field in its body and one header. -/
def bodyKeywords : Keywords WholeFloat :=
  [("url", .str "http://a"), ("json", .dict [(.str "n", .int 1)]),
    ("headers", .dict [(.str "Accept", .str "*/*")])]

theorem not_buildsJson_body :
    ¬ BuildsJson getRuntime bodyKeywords (.dict [(.str "n", .int 1)]) :=
  not_buildsJson getRuntime rfl rfl

/-- A body that can be encoded, and headers without `Content-Type`: `AttributeError`. -/
theorem json_raises :
    ¬ ∀ (rt : Runtime WholeFloat) (keywords : Keywords WholeFloat) (body : Value WholeFloat),
      keywords.lookup "json" = some body → body.truthy = true →
      (∃ text, dumpsCompact body = .ok text) → BuildsJson rt keywords body := by
  intro hall
  obtain ⟨r, caller, hconstruct, -⟩ :=
    hall getRuntime bodyKeywords (.dict [(.str "n", .int 1)]) rfl rfl ⟨_, rfl⟩
  have hraises : HttpRequest.construct getRuntime bodyKeywords = .error .attributeError := rfl
  cases hraises.symm.trans hconstruct

end ScrapyCffi.Requests
