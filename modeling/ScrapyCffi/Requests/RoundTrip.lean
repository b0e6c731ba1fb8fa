import ScrapyCffi.Requests.Constructors

/-!
# Requests through the queue

A request written with `to_bytes` and read with `from_bytes` has its class and its attributes
back. The attributes survive `_encode_data` and `_decode_data`, the dictionary survives the
state codec, and the constructor accepts its own result.
-/

namespace ScrapyCffi.Requests

variable {φ : Type}

/-! ## Dictionaries and keywords -/

/-- The attributes with the encoded fields encoded. -/
def encodeKeywords (fields : List String) (dict : Keywords φ) : Keywords φ :=
  dict.map fun p ↦ (p.1, if p.1 ∈ fields then p.2.encodeData else p.2)

/-- Encoding keeps the names. -/
theorem names_encodeKeywords (fields : List String) (dict : Keywords φ) :
    names (encodeKeywords fields dict) = names dict := by
  simp [names, encodeKeywords]

/-- The keywords of a dictionary made of keywords. -/
theorem keywordsOf_map (keywords : Keywords φ) :
    keywordsOf (keywords.map fun p ↦ ((.str p.1, p.2) : Value φ × Value φ)) = .ok keywords := by
  induction keywords with
  | nil => rfl
  | cons p rest ih =>
    rw [List.map_cons, keywordsOf, ih]
    rfl

/-- A name among keywords that do not have it otherwise. -/
theorem lookup_middle {name : String} {before later : Keywords φ} {value : Value φ}
    (h : name ∉ names before) : (before ++ (name, value) :: later).lookup name = some value := by
  rw [List.lookup_append, lookup_eq_none h, Option.none_or, List.lookup_cons_self]

/-- Keywords without a name they have once. -/
theorem without_middle {name : String} {before later : Keywords φ} {value : Value φ}
    (hbefore : name ∉ names before) (hlater : name ∉ names later) :
    without [name] (before ++ (name, value) :: later) = before ++ later := by
  have hkeep : ∀ keywords : Keywords φ, name ∉ names keywords →
      without [name] keywords = keywords := by
    intro keywords h
    rw [without, List.filter_eq_self]
    intro p hp
    have hne : p.1 ≠ name := fun heq ↦ h (heq ▸ List.mem_map_of_mem hp)
    simpa using hne
  have hdrop : without [name] ((name, value) :: later) = without [name] later := by
    simp [without]
  rw [without, List.filter_append, ← without, ← without, hdrop, hkeep before hbefore,
    hkeep later hlater]

variable [PyFloat φ]

/-- The values of an attribute that can be written: in an encoded field nested ones, but for
dictionaries with an entry of a kind under a mark, and JSON scalars elsewhere. -/
def Serialisable (kind : Value φ → Bool) (fields : List String) (p : String × Value φ) : Prop :=
  if p.1 ∈ fields then p.2.Encodable kind else p.2.Scalar

/-- Encoded fields are decoded. -/
theorem decodeFields_encodeKeywords {fields : List String} {dict : Keywords φ}
    (h : ∀ p ∈ dict, Serialisable Value.marks fields p) :
    decodeFields fields (encodeKeywords fields dict) = .ok dict := by
  induction dict with
  | nil => rfl
  | cons p rest ih =>
    obtain ⟨key, value⟩ := p
    have hrest := ih fun p hp ↦ h p (List.mem_cons_of_mem _ hp)
    have hvalue := h (key, value) List.mem_cons_self
    rw [encodeKeywords] at hrest ⊢
    rw [List.map_cons, decodeFields, hrest]
    by_cases hmem : key ∈ fields
    · rw [Serialisable, if_pos hmem] at hvalue
      simp only [hmem, if_true, Value.decodeData_encodeData value hvalue]
      rfl
    · simp only [hmem, if_false]
      rfl

/-- A written attribute is JSON. -/
theorem jsonTree_of_serialisable {kind : Value φ → Bool} {fields : List String}
    {p : String × Value φ} (h : Serialisable kind fields p) :
    (if p.1 ∈ fields then p.2.encodeData else p.2).JsonTree := by
  by_cases hmem : p.1 ∈ fields
  · rw [Serialisable, if_pos hmem] at h
    rw [if_pos hmem]
    exact p.2.jsonTree_encodeData h
  · rw [Serialisable, if_neg hmem] at h
    rw [if_neg hmem]
    exact Value.jsonTree_of_scalar h

/-- The state of a request is JSON. -/
theorem AnyRequest.jsonTree_state {kind : Value φ → Bool} {r : AnyRequest φ}
    (h : ∀ p ∈ r.dict, Serialisable kind r.encodeFields p) : r.state.JsonTree := by
  have hentries : ∀ entry ∈ toDict r.encodeFields r.dict ++
      [((.str "class", .str r.className) : Value φ × Value φ)],
      (∃ name, entry.1 = .str name) ∧ entry.2.JsonTree := by
    intro entry hentry
    rcases List.mem_append.mp hentry with hentry | hentry
    · obtain ⟨p, hp, rfl⟩ := List.mem_map.mp hentry
      exact ⟨⟨p.1, rfl⟩, jsonTree_of_serialisable (h p hp)⟩
    · rw [List.mem_singleton.mp hentry]
      exact ⟨⟨"class", rfl⟩, trivial⟩
  exact ⟨fun entry he ↦ (hentries entry he).1,
    nestedEntries_iff.mpr fun entry he ↦ (hentries entry he).2⟩

/-- The constructor is called with the attributes and `**kwargs`. -/
theorem fromDict_encodeKeywords {α : Type} {init : Keywords φ → Except PyError α}
    {fields : List String} {before later kwargs : Keywords φ} (hfield : "kwargs" ∈ fields)
    (hbefore : "kwargs" ∉ names before) (hlater : "kwargs" ∉ names later)
    (hkwargs : (kwargsValue kwargs).Encodable Value.marks)
    (hvalues : ∀ p ∈ before ++ later, Serialisable Value.marks fields p)
    (hfree : ∀ p ∈ kwargs, p.1 ∉ names (before ++ later)) :
    fromDict fields init
        (encodeKeywords fields (before ++ ("kwargs", kwargsValue kwargs) :: later)) =
      init (before ++ later ++ kwargs) := by
  have hsplit : encodeKeywords fields (before ++ ("kwargs", kwargsValue kwargs) :: later) =
      encodeKeywords fields before ++
        ("kwargs", (kwargsValue kwargs).encodeData) :: encodeKeywords fields later := by
    simp [encodeKeywords, hfield]
  have happend : encodeKeywords fields before ++ encodeKeywords fields later =
      encodeKeywords fields (before ++ later) := by
    simp [encodeKeywords]
  have hlookup : (encodeKeywords fields before ++
      ("kwargs", (kwargsValue kwargs).encodeData) :: encodeKeywords fields later).lookup "kwargs" =
        some (kwargsValue kwargs).encodeData :=
    lookup_middle (by rwa [names_encodeKeywords])
  have hnone : ¬ ∃ p ∈ kwargs, p.1 ∈ names (before ++ later) := by
    rintro ⟨p, hp, hmem⟩
    exact hfree p hp hmem
  rw [hsplit, fromDict, hlookup, Option.getD_some, Value.decodeData_encodeData _ hkwargs,
    without_middle (by rwa [names_encodeKeywords]) (by rwa [names_encodeKeywords]), happend,
    decodeFields_encodeKeywords hvalues]
  simp [bind, Except.bind, kwargsValue, keywordsOf_map, call, hnone]

/-! ## Round trip -/

/-- A request some call of its constructor returned. -/
def AnyRequest.Constructed (rt : Runtime φ) : AnyRequest φ → Prop
  | .http r => ∃ keywords, HttpRequest.init rt keywords = .ok r
  | .media r => ∃ keywords, MediaRequest.init rt keywords = .ok r
  | .webSocket r => ∃ keywords, WebSocketRequest.init rt keywords = .ok r

/-- The signatures the arguments of a class go through, the last first. -/
def AnyRequest.signatures : AnyRequest φ → List (Keywords φ)
  | .http _ => [Request.parameters, HttpRequest.parameters]
  | .media _ => [Request.parameters, HttpRequest.parameters, MediaRequest.parameters]
  | .webSocket _ => [Request.parameters, WebSocketRequest.parameters]

/-- The arguments that rebuild a request: its attributes and `**kwargs`. -/
def AnyRequest.arguments (r : AnyRequest φ) : Keywords φ := r.attributes ++ r.later ++ r.kwargs

/-- The names of the attributes beside `kwargs`. -/
def AnyRequest.attributeNames : AnyRequest φ → List String
  | .http _ => httpNames
  | .media _ => mediaNames
  | .webSocket _ => webSocketNames

omit [PyFloat φ] in
/-- The names of the attributes do not depend on their values. -/
theorem AnyRequest.names_eq (r : AnyRequest φ) :
    names (r.attributes ++ r.later) = r.attributeNames := by
  cases r <;> rfl

omit [PyFloat φ] in
/-- The names beside `kwargs` occur once. -/
theorem AnyRequest.nodup_names (r : AnyRequest φ) : (names (r.attributes ++ r.later)).Nodup := by
  have hhttp : httpNames.Nodup := by decide
  have hmedia : mediaNames.Nodup := by decide
  have hwebSocket : webSocketNames.Nodup := by decide
  rw [r.names_eq]
  cases r
  · exact hhttp
  · exact hmedia
  · exact hwebSocket

/-- The attributes beside `kwargs` are parameters. -/
theorem AnyRequest.mem_signatures (r : AnyRequest φ) : ∀ p ∈ r.attributes ++ r.later,
    ∃ signature ∈ r.signatures, p.1 ∈ names signature := by
  intro p hp
  have hname : p.1 ∈ names (r.attributes ++ r.later) := List.mem_map_of_mem hp
  rw [r.names_eq] at hname
  cases r with
  | http r =>
    exact ⟨HttpRequest.parameters, by simp [signatures], HttpRequest.names_subset hname⟩
  | media r =>
    rcases List.mem_append.mp hname with hname | hname
    · exact ⟨HttpRequest.parameters, by simp [signatures], HttpRequest.names_subset hname⟩
    · exact ⟨MediaRequest.parameters, by simp [signatures], MediaRequest.own_subset hname⟩
  | webSocket r =>
    rcases List.mem_append.mp hname with hname | hname
    · exact ⟨Request.parameters, by simp [signatures], Request.names_subset hname⟩
    · exact ⟨WebSocketRequest.parameters, by simp [signatures],
        WebSocketRequest.own_subset hname⟩

omit [PyFloat φ] in
/-- The names that are no attribute beside `kwargs`. -/
theorem AnyRequest.not_mem_names (r : AnyRequest φ) :
    ∀ name ∈ ["kwargs", "params", "json", "class"], name ∉ names (r.attributes ++ r.later) := by
  have hhttp : ∀ name ∈ ["kwargs", "params", "json", "class"], name ∉ httpNames := by decide
  have hmedia : ∀ name ∈ ["kwargs", "params", "json", "class"], name ∉ mediaNames := by decide
  have hwebSocket : ∀ name ∈ ["kwargs", "params", "json", "class"], name ∉ webSocketNames := by
    decide
  rw [r.names_eq]
  cases r
  · exact hhttp
  · exact hmedia
  · exact hwebSocket

section

variable {r : AnyRequest φ} {keywords : Keywords φ}
  (hkwargs : r.kwargs = spillAll r.signatures keywords)

include hkwargs

/-- A parameter that leaves no attribute is not among the arguments. -/
theorem AnyRequest.lookup_arguments {name : String} {signature : Keywords φ}
    (hname : name ∉ names (r.attributes ++ r.later)) (hs : signature ∈ r.signatures)
    (hmem : name ∈ names signature) : (r.arguments.lookup name).getD .none = .none := by
  have hkw : name ∉ names r.kwargs := by
    intro h
    obtain ⟨p, hp, rfl⟩ := List.mem_map.mp h
    rw [hkwargs] at hp
    exact not_mem_of_mem_spillAll hp hs hmem
  rw [arguments, List.lookup_append, lookup_eq_none hname, lookup_eq_none hkw]
  rfl

/-- The arguments give the attributes. -/
theorem AnyRequest.gives_arguments {signature : Keywords φ} (hs : signature ∈ r.signatures)
    (hmem : "params" ∈ names signature) : Gives (r.attributes ++ r.later) r.arguments where
  lookup p hp := by
    rw [arguments, List.lookup_append, lookup_of_mem r.nodup_names hp, Option.some_or]
  params := AnyRequest.lookup_arguments hkwargs (r.not_mem_names "params" (by decide)) hs hmem

/-- Of the arguments `kwargs` spills over. -/
theorem AnyRequest.spillAll_arguments : spillAll r.signatures r.arguments = r.kwargs := by
  rw [arguments, hkwargs, spillAll_append_spillAll r.mem_signatures]

/-- No argument comes twice. -/
theorem AnyRequest.kwargs_free : ∀ p ∈ r.kwargs, p.1 ∉ names (r.attributes ++ r.later) := by
  intro p hp hmem
  obtain ⟨q, hq, heq⟩ := List.mem_map.mp hmem
  obtain ⟨signature, hs, hname⟩ := r.mem_signatures q hq
  rw [hkwargs] at hp
  exact not_mem_of_mem_spillAll hp hs (heq ▸ hname)

end

/-- The class builds a request from its dictionary when its constructor does from the
arguments. -/
theorem fromDict_of_init {α : Type} {init : Keywords φ → Except PyError α} {r : AnyRequest φ}
    {keywords : Keywords φ} {built : α} (hkwargs : r.kwargs = spillAll r.signatures keywords)
    (hvalues : ∀ p ∈ r.dict, Serialisable Value.marks r.encodeFields p)
    (hinit : init r.arguments = .ok built) :
    fromDict r.encodeFields init (encodeKeywords r.encodeFields r.dict) = .ok built := by
  have hfield : "kwargs" ∈ r.encodeFields := by
    cases r <;>
      simp [AnyRequest.encodeFields, AnyRequest.httpFields, AnyRequest.webSocketFields]
  have hnot := r.not_mem_names "kwargs" (by decide)
  rw [names, List.map_append, List.mem_append, not_or] at hnot
  have hvalue : (kwargsValue r.kwargs).Encodable Value.marks := by
    have h := hvalues ("kwargs", kwargsValue r.kwargs) (by simp [AnyRequest.dict])
    rwa [Serialisable, if_pos hfield] at h
  rw [AnyRequest.dict, fromDict_encodeKeywords hfield hnot.1 hnot.2 hvalue
    (fun p hp ↦ hvalues p (by
      rcases List.mem_append.mp hp with hp | hp
      · exact List.mem_append_left _ hp
      · exact List.mem_append_right _ (List.mem_cons_of_mem _ hp)))
    (AnyRequest.kwargs_free hkwargs)]
  exact hinit

/-- The class of a constructed request builds it from its dictionary. -/
theorem fromClass_encodeKeywords {rt : Runtime φ} {r : AnyRequest φ} (hr : r.Constructed rt)
    (hvalues : ∀ p ∈ r.dict, Serialisable Value.marks r.encodeFields p)
    (hupper : ∀ s, rt.upper (rt.upper s) = rt.upper s) :
    fromClass rt (.str r.className) (encodeKeywords r.encodeFields r.dict) = .ok r := by
  cases r with
  | http r =>
    obtain ⟨keywords, hinit⟩ := hr
    have hmethod : r.method.Scalar := hvalues ("method", r.method)
      (by simp [AnyRequest.dict, AnyRequest.attributes, HttpRequest.attributes])
    obtain ⟨hadmitted, hspill⟩ := HttpRequest.admitted_of_init hinit hupper hmethod
    have hkwargs : (AnyRequest.http r).kwargs =
        spillAll [Request.parameters, HttpRequest.parameters] keywords := by
      rw [← spillOver_spillAll, ← spillOver_spillAll, spillAll_nil]
      exact hspill
    have hgives := AnyRequest.gives_arguments hkwargs List.mem_cons_self
      (by simp [names, Request.parameters])
    have hjson := AnyRequest.lookup_arguments hkwargs
      ((AnyRequest.http r).not_mem_names "json" (by decide))
      (List.mem_cons_of_mem _ List.mem_cons_self) (by simp [names, HttpRequest.parameters])
    have hrest := AnyRequest.spillAll_arguments hkwargs
    rw [AnyRequest.signatures, ← spillOver_spillAll, ← spillOver_spillAll, spillAll_nil] at hrest
    rw [AnyRequest.later, List.append_nil] at hgives
    have hbuilt : HttpRequest.init rt (AnyRequest.http r).arguments = .ok r :=
      HttpRequest.init_attributes hadmitted hgives hjson hrest
    exact congrArg (AnyRequest.http <$> ·) (fromDict_of_init hkwargs hvalues hbuilt)
  | media r =>
    obtain ⟨keywords, hinit⟩ := hr
    have hmethod : r.method.Scalar := hvalues ("method", r.method)
      (by simp [AnyRequest.dict, AnyRequest.attributes, HttpRequest.attributes])
    obtain ⟨hadmitted, hspill⟩ := MediaRequest.admitted_of_init hinit hupper hmethod
    have hkwargs : (AnyRequest.media r).kwargs = spillAll
        [Request.parameters, HttpRequest.parameters, MediaRequest.parameters] keywords := by
      rw [← spillOver_spillAll, ← spillOver_spillAll, ← spillOver_spillAll, spillAll_nil]
      exact hspill
    have hgives := AnyRequest.gives_arguments hkwargs List.mem_cons_self
      (by simp [names, Request.parameters])
    have hjson := AnyRequest.lookup_arguments hkwargs
      ((AnyRequest.media r).not_mem_names "json" (by decide))
      (List.mem_cons_of_mem _ List.mem_cons_self) (by simp [names, HttpRequest.parameters])
    have hrest := AnyRequest.spillAll_arguments hkwargs
    rw [AnyRequest.signatures, ← spillOver_spillAll, ← spillOver_spillAll, ← spillOver_spillAll,
      spillAll_nil] at hrest
    have hbuilt : MediaRequest.init rt (AnyRequest.media r).arguments = .ok r :=
      MediaRequest.init_attributes hadmitted hgives hjson hrest
    exact congrArg (AnyRequest.media <$> ·) (fromDict_of_init hkwargs hvalues hbuilt)
  | webSocket r =>
    obtain ⟨keywords, hinit⟩ := hr
    obtain ⟨hadmitted, hspill⟩ := WebSocketRequest.admitted_of_init hinit
    have hkwargs : (AnyRequest.webSocket r).kwargs =
        spillAll [Request.parameters, WebSocketRequest.parameters] keywords := by
      rw [← spillOver_spillAll, ← spillOver_spillAll, spillAll_nil]
      exact hspill
    have hgives := AnyRequest.gives_arguments hkwargs List.mem_cons_self
      (by simp [names, Request.parameters])
    have hrest := AnyRequest.spillAll_arguments hkwargs
    rw [AnyRequest.signatures, ← spillOver_spillAll, ← spillOver_spillAll, spillAll_nil] at hrest
    have hbuilt : WebSocketRequest.init rt (AnyRequest.webSocket r).arguments = .ok r :=
      WebSocketRequest.init_attributes hadmitted hgives hrest
    exact congrArg (AnyRequest.webSocket <$> ·) (fromDict_of_init hkwargs hvalues hbuilt)

omit [PyFloat φ] in
/-- The state holds the encoded attributes and the name of the class. -/
theorem AnyRequest.state_eq (r : AnyRequest φ) :
    r.state = kwargsValue
      (encodeKeywords r.encodeFields r.dict ++ [("class", .str r.className)]) := by
  simp [AnyRequest.state, toDict, encodeKeywords, kwargsValue]

/-- What is read from the bytes of a request goes to its class. -/
theorem fromBytes_of_toBytes {codec : Codec φ} {rt : Runtime φ} {r : AnyRequest φ}
    (htree : r.state.JsonTree)
    (hsize : ∀ text, dumps r.state = .ok text → (utf8Encode text).length ≤ maxStateBytes)
    (hjson : codec.ReadsJson r.state)
    (hzlib : ∀ text, dumps r.state = .ok text → codec.Inflates 6 (utf8Encode text)) :
    ∃ payload, r.toBytes codec = .ok payload ∧ fromBytes codec rt payload =
      fromClass rt (.str r.className) (encodeKeywords r.encodeFields r.dict) := by
  obtain ⟨json, htext⟩ := r.state.toJson_of_jsonTree htree
  have hdumps : dumps r.state = .ok (json.write false) := by
    rw [dumps, htext]
    rfl
  obtain ⟨payload, hpayload, hdecoded⟩ := decodeState_encodeState hdumps (hsize _ hdumps) htree
    hjson (hzlib _ hdumps)
  refine ⟨payload, hpayload, ?_⟩
  have hclass : "class" ∉ names (encodeKeywords r.encodeFields r.dict) := by
    have hnot := r.not_mem_names "class" (by decide)
    rw [names_encodeKeywords, AnyRequest.dict]
    simpa [names] using hnot
  rw [fromBytes, hdecoded, r.state_eq, kwargsValue]
  simp only [bind, Except.bind, keywordsOf_map]
  rw [lookup_middle hclass, without_middle hclass (by simp [names]), List.append_nil]
  rfl

/-- A request the constructors admit is read back from the bytes it is written as, when its
fields hold what can be encoded, no dictionary of theirs has an entry under a mark that is true
or bytes, and its text is within the limit. -/
theorem fromBytes_toBytes {codec : Codec φ} {rt : Runtime φ} {r : AnyRequest φ}
    (hr : r.Constructed rt)
    (hvalues : ∀ p ∈ r.dict, Serialisable Value.marks r.encodeFields p)
    (hsize : ∀ text, dumps r.state = .ok text → (utf8Encode text).length ≤ maxStateBytes)
    (hupper : ∀ s, rt.upper (rt.upper s) = rt.upper s) (hjson : codec.ReadsJson r.state)
    (hzlib : ∀ text, dumps r.state = .ok text → codec.Inflates 6 (utf8Encode text)) :
    ∃ payload, r.toBytes codec = .ok payload ∧ fromBytes codec rt payload = .ok r := by
  obtain ⟨payload, hpayload, hread⟩ :=
    fromBytes_of_toBytes (AnyRequest.jsonTree_state hvalues) hsize hjson hzlib
  exact ⟨payload, hpayload, hread.trans (fromClass_encodeKeywords hr hvalues hupper)⟩

/-! ## A media request and a mark of no bytes -/

/-- Floats without a fractional part. -/
structure WholeFloat where
  value : Int

instance : PyFloat WholeFloat where
  ofInt n := ⟨n⟩
  finite _ := true
  compare x y := some (compare x.value y.value)
  compareInt x n := some (compare x.value n)
  repr x :=
    have numeral := Base.Numeral.ofInt x.value
    { numeral with
      tail := numeral.tail ++ ['.', '0']
      tail_mem := by
        intro c hc
        rcases List.mem_append.mp hc with hc | hc
        · exact numeral.tail_mem c hc
        · have key : ∀ d ∈ ['.', '0'], d ∈ Base.numeralChars :=
            List.forall_iff_forall_mem.mp (by decide)
          exact key c hc }

/-- The library functions on one method. -/
def getRuntime : Runtime WholeFloat where
  upper s := if s = "get" then "GET" else s
  lower s := s
  urlencode _ := .ok ""
  format _ := ""

/-- An upper case method is its own upper case. -/
theorem getRuntime_upper (s : String) : getRuntime.upper (getRuntime.upper s) = getRuntime.upper s := by
  by_cases h : s = "get"
  · subst h
    decide
  · simp [getRuntime, h]

/-- `json` and `zlib` on the text of one value. -/
def recorded (value : Value φ) (compressed : List UInt8) : Codec φ where
  loads text := if dumps value = .ok text then .ok value else .error (.valueError "Expecting value")
  compress _ raw :=
    if (dumps value).map utf8Encode = .ok raw then .ok compressed else .error .zlibError
  decompress data bound :=
    match dumps value with
    | .ok text =>
      if data ≠ compressed then .error .zlibError
      else if (utf8Encode text).length < bound then
        .ok ⟨utf8Encode text, [], fun _ ↦ [], true, []⟩
      else .ok ⟨(utf8Encode text).take bound, compressed, fun _ ↦ [], false, []⟩
    | .error _ => .error .zlibError

/-- A recorded text is read back as the value it was written for. -/
theorem recorded_readsJson (value : Value φ) (compressed : List UInt8) :
    (recorded value compressed).ReadsJson value := by
  intro _ text htext
  simp [recorded, htext]

/-- A recorded text is inflated from its compressed form. -/
theorem recorded_inflates (value : Value φ) (compressed : List UInt8) (text : List Char)
    (htext : dumps value = .ok text) :
    (recorded value compressed).Inflates 6 (utf8Encode text) := by
  refine ⟨compressed, by simp [recorded, htext, Except.map], fun bound hbound ↦ ?_⟩
  refine ⟨fun _ ↦ [], ?_, fun _ ↦ rfl⟩
  simp [recorded, htext, hbound]

/-- The arguments of a media request. -/
def mediaArguments : Keywords WholeFloat :=
  [("url", .str "http://a/v"), ("method", .str "get"), ("data", .bytes [104, 105]),
    ("meta", .dict [(.str "n", .list [.int 1, .none])]), ("callback", .function "parse"),
    ("stream", .bool true), ("tag", .str "x")]

/-- The media request built of them. -/
def mediaExample : MediaRequest WholeFloat where
  sessionId := .str ""
  url := .str "http://a/v"
  headers := .none
  cookies := .none
  proxies := .none
  timeout := .int 30
  maxRetryTimes := .none
  retryDelay := .none
  allowRedirects := .bool true
  maxRedirects := .int 30
  verify := .none
  impersonate := .none
  ja3 := .none
  akamai := .none
  metaDict := .dict [(.str "n", .list [.int 1, .none])]
  dontFilter := .none
  callback := .str "parse"
  errback := .none
  descText := .str ""
  noProxy := .bool false
  stream := .bool true
  httpVersion := .none
  kwargs := [("tag", .str "x")]
  method := .str "GET"
  data := .bytes [104, 105]
  singlePartSize := .int 2999999
  mediaSize := .int 0
  maxMediaSize := .none

/-- Its text as `zlib` compresses it. -/
def mediaCompressed : List UInt8 :=
  [120, 156, 77, 145, 65, 79, 195, 48, 12, 133, 255, 139, 207, 149, 6, 12, 33, 17, 137, 35,
    218, 137, 203, 196, 13, 161, 200, 107, 188, 45, 52, 77, 74, 236, 110, 29, 211, 254, 59,
    206, 186, 86, 203, 169, 126, 181, 95, 158, 191, 156, 161, 37, 217, 39, 7, 6, 86, 239, 159,
    80, 129, 67, 65, 48, 103, 176, 118, 115, 18, 98, 107, 193, 72, 238, 169, 130, 205, 203,
    179, 54, 225, 170, 121, 131, 75, 5, 76, 204, 62, 69, 235, 203, 164, 142, 245, 57, 232,
    199, 94, 164, 51, 139, 5, 46, 14, 42, 237, 9, 29, 101, 6, 19, 251, 16, 42, 168, 83, 106,
    60, 205, 101, 151, 211, 112, 87, 138, 111, 41, 245, 2, 102, 249, 80, 65, 139, 131, 205,
    36, 249, 100, 139, 60, 247, 140, 146, 163, 128, 167, 73, 194, 16, 210, 81, 123, 157, 207,
    84, 11, 79, 89, 71, 131, 89, 44, 158, 7, 202, 126, 59, 207, 249, 182, 211, 104, 41, 162,
    208, 36, 253, 224, 114, 118, 109, 176, 69, 63, 85, 10, 232, 74, 36, 130, 249, 122, 172,
    138, 246, 173, 0, 92, 138, 98, 183, 62, 8, 229, 121, 67, 77, 179, 193, 186, 81, 16, 29,
    102, 38, 101, 64, 57, 143, 202, 216, 225, 136, 107, 43, 52, 200, 8, 45, 38, 91, 48, 104,
    170, 45, 6, 214, 220, 44, 153, 176, 157, 182, 40, 52, 173, 230, 46, 160, 39, 135, 230,
    136, 121, 199, 37, 142, 224, 78, 93, 134, 235, 99, 248, 184, 11, 100, 245, 82, 177, 236,
    255, 116, 165, 167, 215, 235, 41, 225, 157, 199, 155, 120, 35, 123, 47, 221, 130, 7, 100,
    245, 132, 143, 242, 103, 77, 191, 61, 177, 192, 229, 31, 162, 44, 184, 131]

/-- A short text is within the limit. -/
theorem length_le_of_dumps {value : Value φ} {n : Nat}
    (h : (dumps value).map (fun text ↦ (utf8Encode text).length) = .ok n) (hn : n ≤ maxStateBytes)
    (text : List Char) (htext : dumps value = .ok text) :
    (utf8Encode text).length ≤ maxStateBytes := by
  rw [htext, Except.map, Except.ok.injEq] at h
  omega

theorem fromBytes_toBytes_media : (∃ payload,
    (AnyRequest.media mediaExample).toBytes
      (recorded (AnyRequest.media mediaExample).state mediaCompressed) = .ok payload ∧
    fromBytes (recorded (AnyRequest.media mediaExample).state mediaCompressed) getRuntime payload =
      .ok (.media mediaExample)) := by
  refine fromBytes_toBytes ⟨mediaArguments, rfl⟩ ?_ ?_ getRuntime_upper
    (recorded_readsJson _ _) (recorded_inflates _ _)
  · simp [AnyRequest.dict, AnyRequest.attributes, AnyRequest.later, HttpRequest.attributes,
      Request.attributes, MediaRequest.later, AnyRequest.kwargs, kwargsValue, mediaExample,
      Serialisable, AnyRequest.encodeFields, AnyRequest.httpFields, Value.Encodable, Value.Nested,
      NestedEntries, NestedItems, Value.Leaf, Value.Scalar, StringKeys, Unmarked, dictGet]
  · exact length_le_of_dumps (n := 539) (by decide +kernel) (by decide)

/-- A request whose `meta` has empty bytes under a mark, as its constructor leaves it. -/
def markExample : HttpRequest WholeFloat :=
  { mediaExample.toHttpRequest with
    url := .str "http://a"
    data := .none
    metaDict := .dict [(.str "__bytes__", .bytes []), (.str "b64", .str "aGk=")]
    callback := .none
    stream := .bool false
    kwargs := [] }

/-- Its text as `zlib` compresses it. -/
def markCompressed : List UInt8 :=
  [120, 156, 93, 81, 65, 106, 196, 48, 12, 252, 139, 206, 129, 45, 108, 233, 33, 208, 99, 217,
    158, 75, 239, 70, 137, 149, 198, 141, 29, 111, 101, 165, 155, 16, 246, 239, 149, 9, 54,
    75, 111, 154, 209, 88, 26, 141, 119, 8, 36, 99, 180, 208, 194, 229, 237, 19, 26, 176, 40,
    8, 237, 188, 120, 223, 64, 162, 148, 92, 156, 141, 203, 109, 237, 45, 236, 181, 24, 69,
    174, 237, 233, 132, 74, 140, 132, 150, 56, 21, 125, 31, 227, 228, 168, 194, 43, 199, 245,
    1, 138, 11, 20, 23, 129, 246, 252, 212, 64, 192, 213, 48, 9, 111, 38, 211, 85, 115, 80,
    150, 60, 110, 133, 66, 239, 227, 77, 181, 214, 49, 245, 162, 74, 225, 133, 202, 128, 74,
    230, 153, 191, 196, 110, 168, 239, 92, 184, 170, 181, 56, 163, 80, 161, 190, 241, 92, 167,
    78, 24, 208, 21, 164, 25, 232, 209, 59, 24, 211, 109, 66, 201, 152, 127, 224, 88, 217,
    189, 60, 231, 28, 238, 165, 194, 203, 244, 154, 145, 141, 179, 152, 193, 121, 33, 174, 73,
    168, 235, 14, 251, 169, 96, 98, 126, 132, 150, 82, 111, 132, 86, 57, 114, 157, 163, 201,
    89, 169, 245, 1, 125, 210, 77, 73, 152, 48, 84, 152, 19, 55, 122, 93, 254, 140, 50, 98,
    186, 33, 127, 233, 225, 187, 26, 232, 61, 38, 45, 225, 93, 117, 31, 244, 179, 80, 18, 184,
    255, 1, 211, 244, 162, 173]

/-- Empty bytes are not true, but their encoding is: the dictionary is read as bytes. -/
theorem fromBytes_mark :
    ¬ ∀ (codec : Codec WholeFloat) (rt : Runtime WholeFloat) (r : AnyRequest WholeFloat),
      r.Constructed rt → (∀ p ∈ r.dict, Serialisable Value.truthy r.encodeFields p) →
      (∀ text, dumps r.state = .ok text → (utf8Encode text).length ≤ maxStateBytes) →
      (∀ s, rt.upper (rt.upper s) = rt.upper s) → codec.ReadsJson r.state →
      (∀ text, dumps r.state = .ok text → codec.Inflates 6 (utf8Encode text)) →
      ∃ payload, r.toBytes codec = .ok payload ∧ fromBytes codec rt payload = .ok r := by
  intro hall
  have hvalues : ∀ p ∈ (AnyRequest.http markExample).dict,
      Serialisable Value.truthy (AnyRequest.http markExample).encodeFields p := by
    simp [AnyRequest.dict, AnyRequest.attributes, AnyRequest.later, HttpRequest.attributes,
      Request.attributes, AnyRequest.kwargs, kwargsValue, markExample, mediaExample,
      Serialisable, AnyRequest.encodeFields, AnyRequest.httpFields, Value.Encodable, Value.Nested,
      NestedEntries, Value.Leaf, Value.Scalar, StringKeys, Unmarked, dictGet, Value.truthy]
    rintro key value (⟨rfl, rfl⟩ | ⟨rfl, rfl⟩) <;> exact ⟨_, rfl⟩
  have hsize : ∀ text, dumps (AnyRequest.http markExample).state = .ok text →
      (utf8Encode text).length ≤ maxStateBytes :=
    length_le_of_dumps (n := 474) (by decide +kernel) (by decide)
  obtain ⟨payload, hpayload, hread⟩ := hall
    (recorded (AnyRequest.http markExample).state markCompressed) getRuntime
    (.http markExample) ⟨[("url", .str "http://a"), ("meta", markExample.metaDict)], rfl⟩ hvalues
    hsize getRuntime_upper (recorded_readsJson _ _) (recorded_inflates _ _)
  obtain ⟨written, hwritten, hclass⟩ : ∃ written,
      (AnyRequest.http markExample).toBytes
        (recorded (AnyRequest.http markExample).state markCompressed) = .ok written ∧
      fromBytes (recorded (AnyRequest.http markExample).state markCompressed) getRuntime written =
        fromClass getRuntime (.str "HttpRequest")
          (encodeKeywords AnyRequest.httpFields (AnyRequest.http markExample).dict) :=
    fromBytes_of_toBytes (AnyRequest.jsonTree_state hvalues) hsize (recorded_readsJson _ _)
      (recorded_inflates _ _)
  have hbuilt : fromClass getRuntime (.str "HttpRequest")
      (encodeKeywords AnyRequest.httpFields (AnyRequest.http markExample).dict) =
        .ok (.http { markExample with metaDict := .bytes [104, 105] }) := rfl
  rw [hpayload, Except.ok.injEq] at hwritten
  rw [← hwritten, hread, hbuilt, Except.ok.injEq, AnyRequest.http.injEq] at hclass
  have hmeta := congrArg (fun r ↦ r.metaDict) hclass
  cases hmeta

end ScrapyCffi.Requests
