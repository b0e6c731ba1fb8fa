import ScrapyCffi.Requests.Serialise

/-!
# Constructors on their own results

What a constructor leaves passes its checks again: called with the attributes of a request it
built, it builds that request. The invariant of each class lists what its constructor checked
and derived.
-/

namespace ScrapyCffi.Requests

open ScrapyCffi.Base

variable {φ : Type} [PyFloat φ] {rt : Runtime φ} {keywords : Keywords φ}

/-! ## Names -/

/-- The names of the attributes of a `Request` before `kwargs`. -/
def requestNames : List String :=
  ["session_id", "url", "headers", "cookies", "proxies", "timeout", "max_retry_times",
    "retry_delay", "allow_redirects", "max_redirects", "verify", "impersonate", "ja3", "akamai",
    "meta", "dont_filter", "callback", "errback", "desc_text", "no_proxy", "stream",
    "http_version"]

/-- The names of the attributes of an `HttpRequest` beside `kwargs`. -/
def httpNames : List String := ["method", "data"] ++ requestNames

/-- The names of the attributes of a `MediaRequest` beside `kwargs`. -/
def mediaNames : List String :=
  httpNames ++ MediaRequest.own

/-- The names of the attributes of a `WebSocketRequest` beside `kwargs`. -/
def webSocketNames : List String :=
  requestNames ++ WebSocketRequest.own

omit [PyFloat φ] in
/-- The attributes of a `Request` are parameters. -/
theorem Request.names_subset : requestNames ⊆ names (Request.parameters (φ := φ)) := by
  -- the names do not depend on the floats
  have h : ∀ name ∈ requestNames, name ∈ names (Request.parameters (φ := Empty)) := by decide
  exact h

omit [PyFloat φ] in
/-- The attributes of an `HttpRequest` are parameters. -/
theorem HttpRequest.names_subset : httpNames ⊆ names (HttpRequest.parameters (φ := φ)) := by
  have h : ∀ name ∈ httpNames, name ∈ names (HttpRequest.parameters (φ := Empty)) := by decide
  exact h

omit [PyFloat φ] in
/-- The attributes a `MediaRequest` adds are parameters. -/
theorem MediaRequest.own_subset : MediaRequest.own ⊆ names (MediaRequest.parameters (φ := φ)) := by
  simp [MediaRequest.own, names, MediaRequest.parameters]

/-- The attributes a `WebSocketRequest` adds are parameters. -/
theorem WebSocketRequest.own_subset :
    WebSocketRequest.own ⊆ names (WebSocketRequest.parameters (φ := φ)) := by
  simp [WebSocketRequest.own, names, WebSocketRequest.parameters]

/-! ## `Request` -/

/-- What `Request.__init__` leaves in the attributes it checks or derives. -/
structure Request.Admitted (r : Request φ) : Prop where
  retryTimes : unlessNone r.maxRetryTimes (less r.maxRetryTimes (.int 1)) = .ok false
  retryDelay : unlessNone r.retryDelay (less r.retryDelay (.int 0)) = .ok false
  metaDict : r.metaDict.truthy = false → r.metaDict = .dict []
  callback : callbackName r.callback = .ok r.callback
  errback : callbackName r.errback = .ok r.errback

/-- A check that does not raise found nothing to reject. -/
theorem reject_eq_ok {test : Except PyError Bool} {message : String} :
    reject test message = .ok () ↔ test = .ok false := by
  cases test with
  | error e => simp [reject, bind, Except.bind]
  | ok b => cases b <;> simp [reject, bind, Except.bind, pure, Except.pure]

/-- Without `params` the address stays as it is. -/
theorem joinUrlParams_none (rt : Runtime φ) (url : Value φ) :
    joinUrlParams rt url .none = .ok url := rfl

/-- The name of a callback is a callback of that name. -/
theorem callbackName_idem {callback name : Value φ} (h : callbackName callback = .ok name) :
    callbackName name = .ok name := by
  unfold callbackName at h
  split at h
  · cases h
    rfl
  · cases h
    rfl
  · split at h
    · cases h
    · cases h
      rfl

/-- `Request.__init__` leaves attributes as it admits them, and of the arguments that are no
parameters nothing is lost. -/
theorem Request.admitted_of_init {r : Request φ} (h : Request.init rt keywords = .ok r) :
    r.Admitted ∧ r.kwargs = spillOver Request.parameters keywords := by
  unfold Request.init at h
  obtain ⟨url, hurl, h⟩ := bind_eq_ok.mp h
  obtain ⟨⟨⟩, htimes, h⟩ := bind_eq_ok.mp h
  obtain ⟨⟨⟩, hdelay, h⟩ := bind_eq_ok.mp h
  obtain ⟨callback, hcallback, h⟩ := bind_eq_ok.mp h
  obtain ⟨errback, herrback, h⟩ := bind_eq_ok.mp h
  cases h
  refine ⟨?_, rfl⟩
  constructor
  · exact reject_eq_ok.mp htimes
  · exact reject_eq_ok.mp hdelay
  · dsimp only
    split
    · next htruthy =>
      intro hfalse
      rw [htruthy] at hfalse
      cases hfalse
    · exact fun _ ↦ rfl
  · exact callbackName_idem hcallback
  · exact callbackName_idem herrback

/-- Arguments that give a request its attributes and no `params`. -/
structure Gives (attributes keywords : Keywords φ) : Prop where
  lookup : ∀ p ∈ attributes, keywords.lookup p.1 = some p.2
  params : (keywords.lookup "params").getD .none = .none

omit [PyFloat φ] in
/-- A parameter that defaults to `None` and is not passed is passed on as `None`. -/
theorem lookup_passOn_none {own : List String} {signature : Keywords φ} {name : String}
    (hown : name ∉ own) (hsig : signature.lookup name = some .none)
    (h : (keywords.lookup name).getD .none = .none) :
    ((passOn own signature keywords).lookup name).getD .none = .none := by
  rw [lookup_passOn hown hsig, h]
  rfl

omit [PyFloat φ] in
/-- A constructor passes on what gives the attributes that are not its own. -/
theorem Gives.passOn {own : List String} {signature attributes : Keywords φ}
    (h : Gives attributes keywords) (hown : ∀ name ∈ names attributes, name ∉ own)
    (hparams : "params" ∉ own) (hsig : signature.lookup "params" = some .none) :
    Gives attributes (passOn own signature keywords) where
  lookup p hp := lookup_passOn_of_lookup (hown p.1 (List.mem_map_of_mem hp)) (h.lookup p hp)
  params := lookup_passOn_none hparams hsig h.params

/-- `Request.__init__` builds an admitted request from its attributes. -/
theorem Request.init_attributes {r : Request φ} (hr : r.Admitted)
    (hgives : Gives r.attributes keywords)
    (hkwargs : spillOver Request.parameters keywords = r.kwargs) :
    Request.init rt keywords = .ok r := by
  have hargs : ∀ p ∈ r.attributes,
      argument (bindArguments Request.parameters keywords) p.1 = p.2 := by
    intro p hp
    have hname : p.1 ∈ requestNames := List.mem_map_of_mem (f := Prod.fst) hp
    exact argument_bindArguments (Request.names_subset hname) (hgives.lookup p hp)
  have hparams : argument (bindArguments Request.parameters keywords) "params" = .none := by
    rw [argument, lookup_bindArguments]
    exact hgives.params
  have hmeta : (if r.metaDict.truthy then r.metaDict else .dict []) = r.metaDict := by
    split
    · rfl
    · next h => exact (hr.metaDict (by simpa using h)).symm
  simp only [Request.attributes, List.forall_mem_cons] at hargs
  simp only [Request.init, hargs, hparams, joinUrlParams_none, hr.callback, hr.errback, hmeta,
    hkwargs, reject_eq_ok.mpr hr.retryTimes, reject_eq_ok.mpr hr.retryDelay]
  rfl

/-! ## `HttpRequest` -/

/-- What `HttpRequest.__init__` leaves. -/
structure HttpRequest.Admitted (rt : Runtime φ) (r : HttpRequest φ) : Prop where
  request : r.toRequest.Admitted
  method : upperMethod rt r.method = .ok r.method
  headers : ∃ answer, isProtobuf rt r.headers = .ok answer

/-- A method that is a string is its own upper case. -/
theorem upperMethod_idem {method upper : Value φ} (hupper : ∀ s, rt.upper (rt.upper s) = rt.upper s)
    (h : upperMethod rt method = .ok upper) (hscalar : upper.Scalar) :
    upperMethod rt upper = .ok upper := by
  cases method with
  | str s =>
    cases h
    rw [upperMethod, hupper]
  | bytes b =>
    cases h
    exact hscalar.elim
  | _ => cases h

omit [PyFloat φ] in
/-- The parameters of `HttpRequest.__init__` are its own or those of `Request.__init__`. -/
theorem HttpRequest.names_parameters : ∀ name ∈ names (HttpRequest.parameters (φ := φ)),
    name ∈ HttpRequest.own ∨ name ∈ names (Request.parameters (φ := φ)) := by
  have h : ∀ name ∈ names (HttpRequest.parameters (φ := Empty)),
      name ∈ HttpRequest.own ∨ name ∈ names (Request.parameters (φ := Empty)) := by decide
  exact h

/-- `HttpRequest.__init__` leaves attributes as it admits them. -/
theorem HttpRequest.admitted_of_init {r : HttpRequest φ}
    (h : HttpRequest.init rt keywords = .ok r)
    (hupper : ∀ s, rt.upper (rt.upper s) = rt.upper s) (hmethod : r.method.Scalar) :
    r.Admitted rt ∧
      r.kwargs = spillOver Request.parameters (spillOver HttpRequest.parameters keywords) := by
  unfold HttpRequest.init at h
  obtain ⟨method, hm, h⟩ := bind_eq_ok.mp h
  obtain ⟨⟨⟩, -, h⟩ := bind_eq_ok.mp h
  obtain ⟨request, hrequest, h⟩ := bind_eq_ok.mp h
  obtain ⟨answer, hanswer, h⟩ := bind_eq_ok.mp h
  cases h
  obtain ⟨hadmitted, hkwargs⟩ := Request.admitted_of_init hrequest
  refine ⟨⟨hadmitted, upperMethod_idem hupper hm hmethod, answer, hanswer⟩, ?_⟩
  rw [← spillOver_passOn HttpRequest.names_parameters]
  exact hkwargs

/-- `HttpRequest.__init__` builds an admitted request from its attributes. -/
theorem HttpRequest.init_attributes {r : HttpRequest φ} (hr : r.Admitted rt)
    (hgives : Gives r.attributes keywords) (hjson : (keywords.lookup "json").getD .none = .none)
    (hkwargs : spillOver Request.parameters (spillOver HttpRequest.parameters keywords) =
      r.kwargs) : HttpRequest.init rt keywords = .ok r := by
  have hmethod : argument (bindArguments HttpRequest.parameters keywords) "method" = r.method :=
    argument_bindArguments (HttpRequest.names_subset (by decide))
      (hgives.lookup ("method", r.method) (by simp [attributes]))
  have hdata : argument (bindArguments HttpRequest.parameters keywords) "data" = r.data :=
    argument_bindArguments (HttpRequest.names_subset (by decide))
      (hgives.lookup ("data", r.data) (by simp [attributes]))
  have hnone : argument (bindArguments HttpRequest.parameters keywords) "json" = .none := by
    rw [argument, lookup_bindArguments]
    exact hjson
  have hbase : Gives r.toRequest.attributes keywords :=
    ⟨fun p hp ↦ hgives.lookup p (List.mem_append_right _ hp), hgives.params⟩
  have hpassed : Gives r.toRequest.attributes
      (passOn HttpRequest.own HttpRequest.parameters keywords) :=
    hbase.passOn (show ∀ name ∈ requestNames, name ∉ HttpRequest.own by decide) (by decide) rfl
  have hrequest : Request.init rt (passOn HttpRequest.own HttpRequest.parameters keywords) =
      .ok r.toRequest :=
    Request.init_attributes hr.request hpassed
      (by rw [spillOver_passOn HttpRequest.names_parameters, hkwargs])
  obtain ⟨answer, hanswer⟩ := hr.headers
  have hnojson : encodeJson (.none : Value φ) = .ok () := rfl
  simp only [HttpRequest.init, hmethod, hdata, hnone, hnojson, hr.method, hrequest,
    bind, Except.bind, hanswer]
  rfl

/-! ## `MediaRequest` -/

/-- What `MediaRequest.__init__` leaves. -/
structure MediaRequest.Admitted (rt : Runtime φ) (r : MediaRequest φ) : Prop where
  request : r.toHttpRequest.Admitted rt
  singlePartSize : lessEq r.singlePartSize (.int 0) = .ok false
  mediaSize : less r.mediaSize (.int 0) = .ok false
  maxMediaSize : unlessNone r.maxMediaSize (lessEq r.maxMediaSize (.int 0)) = .ok false
  mediaSize_le : unlessNone r.maxMediaSize (less r.maxMediaSize r.mediaSize) = .ok false

omit [PyFloat φ] in
/-- The parameters of `MediaRequest.__init__` are its own or those of `HttpRequest.__init__`. -/
theorem MediaRequest.names_parameters : ∀ name ∈ names (MediaRequest.parameters (φ := φ)),
    name ∈ MediaRequest.own ∨ name ∈ names (HttpRequest.parameters (φ := φ)) := by
  have h : ∀ name ∈ names (MediaRequest.parameters (φ := Empty)),
      name ∈ MediaRequest.own ∨ name ∈ names (HttpRequest.parameters (φ := Empty)) := by decide
  exact h

/-- `MediaRequest.__init__` leaves attributes as it admits them. -/
theorem MediaRequest.admitted_of_init {r : MediaRequest φ}
    (h : MediaRequest.init rt keywords = .ok r)
    (hupper : ∀ s, rt.upper (rt.upper s) = rt.upper s) (hmethod : r.method.Scalar) :
    r.Admitted rt ∧ r.kwargs = spillOver Request.parameters
      (spillOver HttpRequest.parameters (spillOver MediaRequest.parameters keywords)) := by
  unfold MediaRequest.init at h
  obtain ⟨⟨⟩, hpart, h⟩ := bind_eq_ok.mp h
  obtain ⟨⟨⟩, hsize, h⟩ := bind_eq_ok.mp h
  obtain ⟨⟨⟩, hmax, h⟩ := bind_eq_ok.mp h
  obtain ⟨⟨⟩, hle, h⟩ := bind_eq_ok.mp h
  obtain ⟨request, hrequest, h⟩ := bind_eq_ok.mp h
  cases h
  obtain ⟨hadmitted, hkwargs⟩ := HttpRequest.admitted_of_init hrequest hupper hmethod
  refine ⟨⟨hadmitted, reject_eq_ok.mp hpart, reject_eq_ok.mp hsize, reject_eq_ok.mp hmax,
    reject_eq_ok.mp hle⟩, ?_⟩
  rw [← spillOver_passOn MediaRequest.names_parameters]
  exact hkwargs

/-- `MediaRequest.__init__` builds an admitted request from its attributes. -/
theorem MediaRequest.init_attributes {r : MediaRequest φ} (hr : r.Admitted rt)
    (hgives : Gives (r.toHttpRequest.attributes ++ r.later) keywords)
    (hjson : (keywords.lookup "json").getD .none = .none)
    (hkwargs : spillOver Request.parameters
      (spillOver HttpRequest.parameters (spillOver MediaRequest.parameters keywords)) =
        r.kwargs) : MediaRequest.init rt keywords = .ok r := by
  have hlater : ∀ p ∈ r.later,
      argument (bindArguments MediaRequest.parameters keywords) p.1 = p.2 := by
    intro p hp
    have hname : p.1 ∈ MediaRequest.own := List.mem_map_of_mem (f := Prod.fst) hp
    exact argument_bindArguments (MediaRequest.own_subset hname) (hgives.lookup p (List.mem_append_right _ hp))
  have hbase : Gives r.toHttpRequest.attributes keywords :=
    ⟨fun p hp ↦ hgives.lookup p (List.mem_append_left _ hp), hgives.params⟩
  have hpassed : Gives r.toHttpRequest.attributes
      (passOn MediaRequest.own MediaRequest.parameters keywords) :=
    hbase.passOn (show ∀ name ∈ httpNames, name ∉ MediaRequest.own by decide) (by decide) rfl
  have hrequest : HttpRequest.init rt
      (passOn MediaRequest.own MediaRequest.parameters keywords) = .ok r.toHttpRequest :=
    HttpRequest.init_attributes hr.request hpassed (lookup_passOn_none (by decide) rfl hjson)
      (by rw [spillOver_passOn MediaRequest.names_parameters, hkwargs])
  simp only [MediaRequest.later, List.forall_mem_cons] at hlater
  simp only [MediaRequest.init, hlater, hrequest, reject_eq_ok.mpr hr.singlePartSize,
    reject_eq_ok.mpr hr.mediaSize, reject_eq_ok.mpr hr.maxMediaSize,
    reject_eq_ok.mpr hr.mediaSize_le]
  rfl

/-! ## `WebSocketRequest` -/

/-- What `WebSocketRequest.__init__` leaves. -/
structure WebSocketRequest.Admitted (r : WebSocketRequest φ) : Prop where
  request : r.toRequest.Admitted
  pingData : checkPingData r.pingData = .ok ()

/-- The parameters of `WebSocketRequest.__init__` are its own or those of `Request.__init__`. -/
theorem WebSocketRequest.names_parameters :
    ∀ name ∈ names (WebSocketRequest.parameters (φ := φ)),
      name ∈ WebSocketRequest.own ∨ name ∈ names (Request.parameters (φ := φ)) := by
  simp [names, WebSocketRequest.parameters, WebSocketRequest.own, Request.parameters]

omit [PyFloat φ] in
/-- A list of messages is sent as it is. -/
theorem sendMessages_list (sent : List WebSocketMsg) :
    sendMessages (.list (sent.map .msg) : Value φ) = .ok sent := by
  rw [sendMessages]
  induction sent with
  | nil => rfl
  | cons m rest ih =>
    rw [List.map_cons, messages, ih]
    rfl

/-- `WebSocketRequest.__init__` leaves attributes as it admits them. -/
theorem WebSocketRequest.admitted_of_init {r : WebSocketRequest φ}
    (h : WebSocketRequest.init rt keywords = .ok r) :
    r.Admitted ∧
      r.kwargs = spillOver Request.parameters (spillOver WebSocketRequest.parameters keywords) := by
  unfold WebSocketRequest.init at h
  obtain ⟨request, hrequest, h⟩ := bind_eq_ok.mp h
  obtain ⟨sent, -, h⟩ := bind_eq_ok.mp h
  obtain ⟨⟨⟩, hping, h⟩ := bind_eq_ok.mp h
  cases h
  obtain ⟨hadmitted, hkwargs⟩ := Request.admitted_of_init hrequest
  refine ⟨⟨hadmitted, hping⟩, ?_⟩
  rw [← spillOver_passOn WebSocketRequest.names_parameters]
  exact hkwargs

/-- `WebSocketRequest.__init__` builds an admitted request from its attributes. -/
theorem WebSocketRequest.init_attributes {r : WebSocketRequest φ} (hr : r.Admitted)
    (hgives : Gives (r.toRequest.attributes ++ r.later) keywords)
    (hkwargs : spillOver Request.parameters (spillOver WebSocketRequest.parameters keywords) =
      r.kwargs) : WebSocketRequest.init rt keywords = .ok r := by
  have hlater : ∀ p ∈ r.later,
      argument (bindArguments WebSocketRequest.parameters keywords) p.1 = p.2 := by
    intro p hp
    have hname : p.1 ∈ WebSocketRequest.own := List.mem_map_of_mem (f := Prod.fst) hp
    exact argument_bindArguments (WebSocketRequest.own_subset hname) (hgives.lookup p (List.mem_append_right _ hp))
  have hbase : Gives r.toRequest.attributes keywords :=
    ⟨fun p hp ↦ hgives.lookup p (List.mem_append_left _ hp), hgives.params⟩
  have hpassed : Gives r.toRequest.attributes
      (passOn WebSocketRequest.own WebSocketRequest.parameters keywords) :=
    hbase.passOn (show ∀ name ∈ requestNames, name ∉ WebSocketRequest.own by decide) (by decide) rfl
  have hrequest : Request.init rt
      (passOn WebSocketRequest.own WebSocketRequest.parameters keywords) = .ok r.toRequest :=
    Request.init_attributes hr.request hpassed
      (by rw [spillOver_passOn WebSocketRequest.names_parameters, hkwargs])
  simp only [WebSocketRequest.later, List.forall_mem_cons] at hlater
  simp only [WebSocketRequest.init, hlater, hrequest, sendMessages_list, hr.pingData]
  rfl

end ScrapyCffi.Requests
