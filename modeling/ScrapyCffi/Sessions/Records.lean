import ScrapyCffi.Requests.State
import ScrapyCffi.Sessions.Persistence

/-!
# The records of a snapshot

What `persist_session` gives to `encode_state` and how `restore_session` reads it back,
`core/sessions.py:627–657, 914–987` and `core/client_hints.py:121–165`, as the values of JSON. A
record of a form that `persist_session` has never written is not read here.
-/

namespace ScrapyCffi.Requests

variable {φ : Type} [PyFloat φ]

mutual

/-- Whether JSON text can hold a value as it is. -/
def Value.isJson : Value φ → Bool
  | .none => true
  | .bool _ => true
  | .int _ => true
  | .str _ => true
  | .float x => PyFloat.finite x
  | .list items => itemsAreJson items
  | .dict entries => entriesAreJson entries
  | _ => false
  termination_by structural v => v

/-- Whether JSON text can hold each item. -/
def itemsAreJson : List (Value φ) → Bool
  | [] => true
  | item :: rest => item.isJson && itemsAreJson rest
  termination_by structural l => l

/-- Whether JSON text can hold each entry. -/
def entriesAreJson : List (Value φ × Value φ) → Bool
  | [] => true
  | (.str _, value) :: rest => value.isJson && entriesAreJson rest
  | _ => false
  termination_by structural l => l

end

theorem Value.isJson_list (items : List (Value φ)) :
    (Value.list items).isJson = itemsAreJson items := rfl

theorem Value.isJson_dict (entries : List (Value φ × Value φ)) :
    (Value.dict entries).isJson = entriesAreJson entries := rfl

theorem itemsAreJson_cons (item : Value φ) (rest : List (Value φ)) :
    itemsAreJson (item :: rest) = (item.isJson && itemsAreJson rest) := rfl

theorem entriesAreJson_cons (name : String) (value : Value φ) (rest : List (Value φ × Value φ)) :
    entriesAreJson ((.str name, value) :: rest) = (value.isJson && entriesAreJson rest) := rfl

mutual

theorem Value.jsonTree_of_isJson (v : Value φ) (h : v.isJson = true) : v.JsonTree := by
  match v with
  | .none | .bool _ | .int _ | .str _ => trivial
  | .float x => exact h
  | .list items => exact nested_of_itemsAreJson items h
  | .dict entries =>
    exact ⟨stringKeys_of_entriesAreJson entries h, nested_of_entriesAreJson entries h⟩
  | .tuple _ | .bytes _ | .msg _ | .function _ => cases h

theorem nested_of_itemsAreJson (items : List (Value φ)) (h : itemsAreJson items = true) :
    NestedItems Value.Scalar StringKeys items := by
  match items with
  | [] => trivial
  | item :: rest =>
    rw [itemsAreJson_cons, Bool.and_eq_true] at h
    exact ⟨item.jsonTree_of_isJson h.1, nested_of_itemsAreJson rest h.2⟩

theorem nested_of_entriesAreJson (entries : List (Value φ × Value φ))
    (h : entriesAreJson entries = true) : NestedEntries Value.Scalar StringKeys entries := by
  match entries with
  | [] => trivial
  | (.str _, value) :: rest =>
    rw [entriesAreJson_cons, Bool.and_eq_true] at h
    exact ⟨value.jsonTree_of_isJson h.1, nested_of_entriesAreJson rest h.2⟩

theorem stringKeys_of_entriesAreJson (entries : List (Value φ × Value φ))
    (h : entriesAreJson entries = true) : StringKeys entries := by
  match entries with
  | [] => exact fun _ hm ↦ by cases hm
  | (.str name, value) :: rest =>
    rw [entriesAreJson_cons, Bool.and_eq_true] at h
    intro entry hentry
    rcases List.mem_cons.mp hentry with rfl | hrest
    · exact ⟨name, rfl⟩
    · exact stringKeys_of_entriesAreJson rest h.2 entry hrest

end

end ScrapyCffi.Requests

namespace ScrapyCffi.Sessions

open ScrapyCffi.Base ScrapyCffi.ClientHints ScrapyCffi.Requests

variable {φ : Type}

/-! ## Values -/

/-- `None` or a value. -/
def optional {α : Type} (f : α → Value φ) (a : Option α) : Value φ := a.elim .none f

/-- A dictionary under string keys. -/
def dictValue {κ α : Type} (name : κ → String) (f : α → Value φ) (d : Dict κ α) : Value φ :=
  .dict (d.entries.map fun entry ↦ (.str (name entry.1), f entry.2))

/-- A string is read. -/
def readText : Value φ → Option String
  | .str text => some text
  | _ => none

/-- An integer is read. -/
def readInt : Value φ → Option Int
  | .int n => some n
  | _ => none

/-- A flag is read. -/
def readBool : Value φ → Option Bool
  | .bool b => some b
  | _ => none

/-- `None` or a value is read. -/
def readOptional {α : Type} (read : Value φ → Option α) : Value φ → Option (Option α)
  | .none => some none
  | value => (read value).map some

/-- The items of a list are read. -/
def readItems {α : Type} (read : Value φ → Option α) : List (Value φ) → Option (List α)
  | [] => some []
  | item :: rest => do
    let a ← read item
    return a :: (← readItems read rest)

/-- The entries of a dictionary are read. -/
def readEntries {κ α : Type} (key : String → κ) (read : Value φ → Option α) :
    List (Value φ × Value φ) → Option (List (κ × α))
  | [] => some []
  | entry :: rest => do
    let name ← readText entry.1
    let a ← read entry.2
    return (key name, a) :: (← readEntries key read rest)

/-- A dictionary is read. -/
def readDict {κ α : Type} [DecidableEq κ] (key : String → κ) (read : Value φ → Option α) :
    Value φ → Option (Dict κ α)
  | .dict entries => (readEntries key read entries).map Dict.ofList
  | _ => none

theorem readOptional_text (text : Option String) :
    readOptional readText (optional .str text : Value φ) = some text := by
  cases text <;> rfl

theorem readOptional_int (n : Option Int) :
    readOptional readInt (optional .int n : Value φ) = some n := by
  cases n <;> rfl

section
variable {κ α : Type} {f : α → Value φ} {read : Value φ → Option α}

/-- Items are read as they were written. -/
theorem readItems_map (h : ∀ a, read (f a) = some a) (items : List α) :
    readItems read (items.map f) = some items := by
  induction items with
  | nil => rfl
  | cons a rest ih =>
    rw [List.map_cons, readItems, h, ih]
    rfl

/-- Entries are read as they were written. -/
theorem readEntries_map {name : κ → String} {key : String → κ} (hkey : ∀ k, key (name k) = k)
    (h : ∀ a, read (f a) = some a) (entries : List (κ × α)) :
    readEntries key read (entries.map fun entry ↦ (.str (name entry.1), f entry.2)) =
      some entries := by
  induction entries with
  | nil => rfl
  | cons entry rest ih =>
    rw [List.map_cons, readEntries, readText, h, ih]
    show some ((key (name entry.1), entry.2) :: rest) = _
    rw [hkey]

/-- A dictionary is read as it was written. -/
theorem readDict_dictValue [DecidableEq κ] {name : κ → String} {key : String → κ}
    (hkey : ∀ k, key (name k) = k) (h : ∀ a, read (f a) = some a) (d : Dict κ α) :
    readDict key read (dictValue name f d) = some d := by
  rw [dictValue, readDict, readEntries_map hkey h, Option.map_some, Dict.ofList_entries]

end

/-! ## Client hints -/

/-- A text is written. -/
def textValue (text : Text) : Value φ := .str (String.ofList text)

/-- A text is read. -/
def readChars (value : Value φ) : Option Text := (readText value).map String.toList

/-- Client hints by their names. -/
def namesRecord : Dict Text Text → Value φ := dictValue String.ofList textValue

/-- Client hints are read. -/
def readNames : Value φ → Option (Dict Text Text) := readDict String.toList readChars

/-- One origin of `export_state`. -/
def originRecord (o : OriginClientHints) : Value φ :=
  .dict [(.str "requested", namesRecord o.requested),
    (.str "runtime_values", dictValue String.ofList namesRecord o.runtimeValues)]

/-- One origin of `import_state`. -/
def readOrigin : Value φ → Option OriginClientHints
  | .dict raw => do
    let requested ← readNames ((dictGet "requested" raw).getD (.dict []))
    let runtimeValues ← readDict String.toList readNames
      ((dictGet "runtime_values" raw).getD (.dict []))
    return ⟨requested, runtimeValues⟩
  | _ => none

/-- `export_state`. -/
def hintsRecord (origins : Dict Text OriginClientHints) : Value φ :=
  .dict [(.str "origins", dictValue String.ofList originRecord origins)]

/-- What `import_state` is given; an absent payload, or one without origins, is tolerated. -/
def readHints : Option (Value φ) → Option (Option (Dict Text OriginClientHints))
  | some (.dict payload) =>
    match dictGet "origins" payload with
    | some (.dict origins) => (readDict String.toList readOrigin (.dict origins)).map some
    | _ => some none
  | _ => some none

theorem readChars_textValue (text : Text) : readChars (textValue text : Value φ) = some text := by
  rw [textValue, readChars, readText, Option.map_some, String.toList_ofList]

theorem readNames_namesRecord (names : Dict Text Text) :
    readNames (namesRecord names : Value φ) = some names :=
  readDict_dictValue (fun _ ↦ String.toList_ofList) readChars_textValue names

theorem readOrigin_originRecord (o : OriginClientHints) :
    readOrigin (originRecord o : Value φ) = some o := by
  show ((readNames (namesRecord o.requested)).bind fun requested ↦
    (readDict String.toList readNames
      (dictValue String.ofList namesRecord o.runtimeValues)).bind fun runtimeValues ↦
        some ⟨requested, runtimeValues⟩) = some o
  rw [readNames_namesRecord,
    readDict_dictValue (fun _ ↦ String.toList_ofList) readNames_namesRecord]
  rfl

/-- Client hints are read as they were exported. -/
theorem readHints_hintsRecord (origins : Dict Text OriginClientHints) :
    readHints (some (hintsRecord origins : Value φ)) = some (some origins) := by
  show (readDict String.toList readOrigin (dictValue String.ofList originRecord origins)).map
    some = _
  rw [readDict_dictValue (fun _ ↦ String.toList_ofList) readOrigin_originRecord]
  rfl

/-! ## Cookies -/

variable [PyFloat φ]

/-- The further attributes of a cookie. -/
structure Attributes (φ : Type) [PyFloat φ] where
  entries : List (Value φ × Value φ)
  json : (Value.dict entries).isJson = true

/-- The further attributes are read. -/
def readAttributes : Value φ → Option (Attributes φ)
  | .dict entries => if h : (Value.dict entries).isJson = true then some ⟨entries, h⟩ else none
  | _ => none

/-- The parameters of `Cookie`. -/
def cookieParameters : List String :=
  ["version", "name", "value", "port", "port_specified", "domain", "domain_specified",
    "domain_initial_dot", "path", "path_specified", "secure", "expires", "discard", "comment",
    "comment_url", "rest", "rfc2109"]

/-- A record of `export_cookies`. -/
def cookieRecord (c : Cookie (Attributes φ)) : Value φ :=
  .dict [(.str "version", optional .int c.version), (.str "name", .str c.name),
    (.str "value", optional .str c.value), (.str "port", optional .str c.port),
    (.str "port_specified", .bool c.portSpecified), (.str "domain", .str c.domain),
    (.str "domain_specified", .bool c.domainSpecified),
    (.str "domain_initial_dot", .bool c.domainInitialDot), (.str "path", .str c.path),
    (.str "path_specified", .bool c.pathSpecified), (.str "secure", .bool c.secure),
    (.str "expires", optional .int c.expires), (.str "discard", .bool c.discard),
    (.str "comment", optional .str c.comment), (.str "comment_url", optional .str c.commentUrl),
    (.str "rest", .dict c.rest.entries), (.str "rfc2109", .bool c.rfc2109)]

/-- A keyword that `Cookie` takes. -/
def cookieKeyword : Value φ → Bool
  | .str name => cookieParameters.contains name
  | _ => false

/-- The argument of a parameter without a default. -/
def argument {α : Type} (data : List (Value φ × Value φ)) (name : String)
    (read : Value φ → Option α) : Option α :=
  (dictGet name data).bind read

/-- `Cookie(**data)` before it looks at its arguments. -/
def readCookie : Value φ → Option (Cookie (Attributes φ))
  | .dict data =>
    if data.all fun entry ↦ cookieKeyword entry.1 then do
      let version ← argument data "version" (readOptional readInt)
      let name ← argument data "name" readText
      let value ← argument data "value" (readOptional readText)
      let port ← argument data "port" (readOptional readText)
      let portSpecified ← argument data "port_specified" readBool
      let domain ← argument data "domain" readText
      let domainSpecified ← argument data "domain_specified" readBool
      let domainInitialDot ← argument data "domain_initial_dot" readBool
      let path ← argument data "path" readText
      let pathSpecified ← argument data "path_specified" readBool
      let secure ← argument data "secure" readBool
      let expires ← argument data "expires" (readOptional readInt)
      let discard ← argument data "discard" readBool
      let comment ← argument data "comment" (readOptional readText)
      let commentUrl ← argument data "comment_url" (readOptional readText)
      let rest ← argument data "rest" readAttributes
      let rfc2109 ← readBool ((dictGet "rfc2109" data).getD (.bool false))
      return { version, name, value, port, portSpecified, domain, domainSpecified,
               domainInitialDot, path, pathSpecified, secure, expires, discard, comment,
               commentUrl, rest, rfc2109 }
    else none
  | _ => none

theorem readAttributes_entries (a : Attributes φ) :
    readAttributes (.dict a.entries) = some a := by
  rw [readAttributes, dif_pos a.json]

/-- A record is read when each of its parameters is. -/
theorem readCookie_dict {data : List (Value φ × Value φ)} {c : Cookie (Attributes φ)}
    (hkeywords : (data.all fun entry ↦ cookieKeyword entry.1) = true)
    (hversion : argument data "version" (readOptional readInt) = some c.version)
    (hname : argument data "name" readText = some c.name)
    (hvalue : argument data "value" (readOptional readText) = some c.value)
    (hport : argument data "port" (readOptional readText) = some c.port)
    (hportSpecified : argument data "port_specified" readBool = some c.portSpecified)
    (hdomain : argument data "domain" readText = some c.domain)
    (hdomainSpecified : argument data "domain_specified" readBool = some c.domainSpecified)
    (hdomainInitialDot : argument data "domain_initial_dot" readBool = some c.domainInitialDot)
    (hpath : argument data "path" readText = some c.path)
    (hpathSpecified : argument data "path_specified" readBool = some c.pathSpecified)
    (hsecure : argument data "secure" readBool = some c.secure)
    (hexpires : argument data "expires" (readOptional readInt) = some c.expires)
    (hdiscard : argument data "discard" readBool = some c.discard)
    (hcomment : argument data "comment" (readOptional readText) = some c.comment)
    (hcommentUrl : argument data "comment_url" (readOptional readText) = some c.commentUrl)
    (hrest : argument data "rest" readAttributes = some c.rest)
    (hrfc2109 : readBool ((dictGet "rfc2109" data).getD (.bool false)) = some c.rfc2109) :
    readCookie (.dict data) = some c := by
  rw [readCookie, if_pos hkeywords, hversion, hname, hvalue, hport, hportSpecified, hdomain,
    hdomainSpecified, hdomainInitialDot, hpath, hpathSpecified, hsecure, hexpires, hdiscard,
    hcomment, hcommentUrl, hrest, hrfc2109]
  rfl

/-- A cookie is read as it was exported. -/
theorem readCookie_cookieRecord (c : Cookie (Attributes φ)) :
    readCookie (cookieRecord c) = some c :=
  readCookie_dict rfl (readOptional_int _) rfl (readOptional_text _) (readOptional_text _) rfl rfl
    rfl rfl rfl rfl rfl (readOptional_int _) rfl (readOptional_text _) (readOptional_text _)
    (readAttributes_entries _) rfl

/-! ## Snapshots -/

/-- The entries of a session. -/
def Exported.fields (state : Exported (Attributes φ)) : List (Value φ × Value φ) :=
  (.str "cookies", .list (state.cookies.map cookieRecord)) ::
    state.clientHints.toList.map fun origins ↦ (.str "client_hints", hintsRecord origins)

/-- The state of `persist_session`. -/
def Snapshot.record : Snapshot (Attributes φ) → Value φ
  | .session state => .dict ((.str "kind", .str "session") :: state.fields)
  | .group members => .dict [(.str "kind", .str "group"),
    (.str "members", dictValue id (fun state ↦ .dict state.fields) members)]

/-- The records of cookies are read. -/
def readCookies : Value φ → Option (List (Cookie (Attributes φ)))
  | .list records => readItems readCookie records
  | _ => none

/-- The state of a member; older ones are its cookies. -/
def readMember : Value φ → Option (Exported (Attributes φ))
  | .dict fields => do
    let cookies ← readCookies ((dictGet "cookies" fields).getD (.list []))
    let clientHints ← readHints (dictGet "client_hints" fields)
    return ⟨cookies, clientHints⟩
  | records => (readCookies records).map (⟨·, none⟩)

/-- The decoded state of `restore_session`. -/
def readSnapshot : Value φ → Option (Snapshot (Attributes φ))
  | .dict state => do
    match ← dictGet "kind" state with
    | .str "group" => ((dictGet "members" state).bind (readDict id readMember)).map .group
    | _ =>
      let cookies ← (dictGet "cookies" state).bind readCookies
      let clientHints ← readHints (dictGet "client_hints" state)
      return .session ⟨cookies, clientHints⟩
  | _ => none

theorem readCookies_map (cookies : List (Cookie (Attributes φ))) :
    readCookies (.list (cookies.map cookieRecord)) = some cookies :=
  readItems_map readCookie_cookieRecord cookies

/-- The client hints of a session are read. -/
theorem readHints_fields (state : Exported (Attributes φ)) :
    readHints (dictGet "client_hints" state.fields) = some state.clientHints := by
  obtain ⟨cookies, clientHints⟩ := state
  cases clientHints with
  | none => rfl
  | some origins => exact readHints_hintsRecord origins

theorem readMember_fields (state : Exported (Attributes φ)) :
    readMember (.dict state.fields) = some state := by
  show ((readCookies (.list (state.cookies.map cookieRecord))).bind fun cookies ↦
    (readHints (dictGet "client_hints" state.fields)).bind fun clientHints ↦
      some ⟨cookies, clientHints⟩) = some state
  rw [readCookies_map, readHints_fields]
  rfl

/-- A snapshot is read as it was written. -/
theorem readSnapshot_record (snapshot : Snapshot (Attributes φ)) :
    readSnapshot snapshot.record = some snapshot := by
  cases snapshot with
  | session state =>
    show ((readCookies (.list (state.cookies.map cookieRecord))).bind fun cookies ↦
      (readHints (dictGet "client_hints" state.fields)).bind fun clientHints ↦
        some (.session ⟨cookies, clientHints⟩)) = some (Snapshot.session state)
    rw [readCookies_map, readHints_fields]
    rfl
  | group members =>
    show (readDict id readMember (dictValue id (fun state ↦ .dict state.fields) members)).map
      Snapshot.group = _
    rw [readDict_dictValue (fun _ ↦ rfl) readMember_fields]
    rfl

/-! ## A snapshot is JSON -/

theorem isJson_text (text : Option String) : (optional .str text : Value φ).isJson = true := by
  cases text <;> rfl

theorem isJson_int (n : Option Int) : (optional .int n : Value φ).isJson = true := by
  cases n <;> rfl

theorem itemsAreJson_map {α : Type} {f : α → Value φ} (h : ∀ a, (f a).isJson = true)
    (items : List α) : itemsAreJson (items.map f) = true := by
  induction items with
  | nil => rfl
  | cons a rest ih => rw [List.map_cons, itemsAreJson_cons, h, ih, Bool.and_self]

theorem isJson_dictValue {κ α : Type} {name : κ → String} {f : α → Value φ}
    (h : ∀ a, (f a).isJson = true) (d : Dict κ α) : (dictValue name f d).isJson = true := by
  have hentries : ∀ entries : List (κ × α), entriesAreJson
      (entries.map fun entry ↦ ((.str (name entry.1) : Value φ), f entry.2)) = true := by
    intro entries
    induction entries with
    | nil => rfl
    | cons entry rest ih => rw [List.map_cons, entriesAreJson_cons, h, ih, Bool.and_self]
  exact hentries d.entries

theorem isJson_namesRecord (names : Dict Text Text) :
    (namesRecord names : Value φ).isJson = true :=
  isJson_dictValue (fun _ ↦ rfl) names

theorem isJson_originRecord (o : OriginClientHints) : (originRecord o : Value φ).isJson = true := by
  rw [originRecord, Value.isJson_dict, entriesAreJson_cons, entriesAreJson_cons,
    isJson_namesRecord, isJson_dictValue isJson_namesRecord]
  rfl

theorem isJson_hintsRecord (origins : Dict Text OriginClientHints) :
    (hintsRecord origins : Value φ).isJson = true := by
  rw [hintsRecord, Value.isJson_dict, entriesAreJson_cons,
    isJson_dictValue isJson_originRecord]
  rfl

theorem isJson_cookieRecord (c : Cookie (Attributes φ)) : (cookieRecord c).isJson = true := by
  have hrest : entriesAreJson c.rest.entries = true := c.rest.json
  simp only [cookieRecord, Value.isJson_dict, entriesAreJson_cons, isJson_text, isJson_int, hrest]
  rfl

theorem entriesAreJson_fields (state : Exported (Attributes φ)) :
    entriesAreJson state.fields = true := by
  have hcookies : itemsAreJson (state.cookies.map cookieRecord) = true :=
    itemsAreJson_map isJson_cookieRecord state.cookies
  rw [Exported.fields, entriesAreJson_cons, Value.isJson_list, hcookies]
  cases state.clientHints with
  | none => rfl
  | some origins =>
    show (hintsRecord origins).isJson && true = true
    rw [isJson_hintsRecord]
    rfl

/-- A snapshot is JSON. -/
theorem jsonTree_record (snapshot : Snapshot (Attributes φ)) : snapshot.record.JsonTree := by
  apply Value.jsonTree_of_isJson
  cases snapshot with
  | session state => exact entriesAreJson_fields state
  | group members =>
    rw [Snapshot.record, Value.isJson_dict, entriesAreJson_cons, entriesAreJson_cons,
      isJson_dictValue entriesAreJson_fields]
    rfl

end ScrapyCffi.Sessions
