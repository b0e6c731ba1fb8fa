import ScrapyCffi.Settings.Components

/-!
# Settings and their overlay

`SettingsInfo` (`settings.py:67–218`) with its fields and its cross-field validator, and
`merge_spider_settings` (`settings.py:221–234`). Instances of `SettingsInfo` live in a list, under
their places in it; validation makes a new one.
-/

namespace ScrapyCffi.Settings

open ScrapyCffi.Base ScrapyCffi.Base.Typed

variable {φ : Type} [DecidableEq φ] (py : Python φ)

/-! ## Fields -/

/-- `settings.py:72–96`. -/
def requestRows : List Row :=
  [⟨"MAX_GLOBAL_CONCURRENT_TASKS", .optional (.int []), some (.int 300)⟩,
    ⟨"QUEUE_NAME", .optional .str, some (.str "")⟩,
    ⟨"ROBOTSTXT_OBEY", .optional .bool, some (.bool true)⟩,
    ⟨"MAX_SCHEDULER_LOOP_NUM", .optional (.int []), some (.int 10)⟩,
    ⟨"SCHEDULER_LOOP_END", .optional (.int []), some .none⟩,
    ⟨"USER_AGENT", .optional .str, some (.str "scrapy_cffiBot")⟩,
    ⟨"DEFAULT_HEADERS", .optional .dict, some .emptyDict⟩,
    ⟨"DEFAULT_COOKIES", .optional .dict, some .emptyDict⟩,
    ⟨"MAX_CONCURRENT_REQ", .optional (.int [.gt 0]), some .none⟩,
    ⟨"SESSION_REQUESTS_PER_SECOND", .optional (.float [.gt 0]), some .none⟩,
    ⟨"USE_STRICT_SEMAPHORE", .optional .bool, some (.bool false)⟩,
    ⟨"TIMEOUT", .optional (.int []), some (.int 30)⟩,
    ⟨"MAX_REQ_TIMES", .optional (.int []), some (.int 2)⟩,
    ⟨"DELAY_REQ_TIME", .optional (.int []), some (.int 3)⟩,
    ⟨"HTTP_SESSION_FACTORY", .optional (.union .str .callable), some .none⟩,
    ⟨"CURL_CFFI_RUNTIME_DIR", .optional .path, some .none⟩,
    ⟨"CURL_CFFI_NATIVE_DIR", .optional .path, some .none⟩,
    ⟨"PROCESS_POOL_MAX_WORKERS", .int [.ge 1], some (.int 2)⟩,
    ⟨"FFMPEG_MAX_PROCESSES", .int [.ge 1], some (.int 2)⟩,
    ⟨"FFMPEG_EXECUTABLE", .union .str .path, some (.str "ffmpeg")⟩,
    ⟨"FFPROBE_EXECUTABLE", .union .str .path, some (.str "ffprobe")⟩]

/-- `settings.py:99–108`. -/
def resourceRows : List Row :=
  [⟨"INFRA_RETRY_ATTEMPTS", .int [.ge 1], some (.int 3)⟩,
    ⟨"INFRA_RETRY_DELAY", .float [.ge 0], some (.float 1)⟩,
    ⟨"RESOURCES_PATH", .list (.union .str (.subclass "Resource")), some .emptyList⟩,
    ⟨"PROXY_URL", .optional .str, some .none⟩,
    ⟨"PROXIES", .optional .dict, some .none⟩,
    ⟨"PROXIES_LIST", .optional (.list .str), some .emptyList⟩,
    ⟨"SPIDERS_PATH", .optional (.union .str (.union .path .cls)), some .none⟩]

/-- `settings.py:114–115`. -/
def backendRows : List Row :=
  [⟨"SCHEDULER", .optional (.union .str .cls), some .none⟩,
    ⟨"DUPEFILTER", .optional (.union .str .cls), some .none⟩]

/-- `settings.py:117–131`. -/
def schedulingRows : List Row :=
  [⟨"SCHEDULER_PERSIST", .bool, some (.bool false)⟩,
    ⟨"SCHEDULER_PERSIST_SESSIONS", .bool, some (.bool false)⟩,
    ⟨"SCHEDULER_SESSION_KEY", .optional .str, some .none⟩,
    ⟨"DEDUP_TTL", .optional (.int []), some (.int 0)⟩,
    ⟨"INCLUDE_HEADERS", .optional (.list .any), some .emptyList⟩,
    ⟨"FILTER_KEY", .optional .str, some (.str "cffiFilter")⟩,
    ⟨"DONT_FILTER", .optional .bool, some (.bool false)⟩,
    ⟨"WS_END_TAG", .optional .str, some (.str "websocket end")⟩,
    ⟨"JS_PATH", .optional (.union .str .bool), some .none⟩]

/-- The fields of `validate_component`, `settings.py:109–112`. -/
def componentFields : List String :=
  ["SPIDER_INTERCEPTORS_PATH", "DOWNLOAD_INTERCEPTORS_PATH", "ITEM_PIPELINES_PATH",
    "EXTENSIONS_PATH"]

/-- `Model()`. -/
def instanceOf (s : Schema φ) : Option (Datum φ) := (s.check (.dict [])).toOption

/-- A component field; its default is `ComponentInfo()`. -/
def componentField (name : String) : Typed.Field φ where
  name := name
  type := componentType py name
  default := instanceOf (componentInfo py)

/-- The fields of `SettingsInfo` in their order, `settings.py:72–147`. -/
def settingsFields : List (Typed.Field φ) :=
  requestRows.map (Row.field py) ++
  [⟨"EMAIL_INFO", (emailInfo py).type, instanceOf (emailInfo py)⟩,
    ⟨"MONITOR_INFO", (rowSchema py "MonitorInfo" monitorRows).type,
      instanceOf (rowSchema py "MonitorInfo" monitorRows)⟩] ++
  resourceRows.map (Row.field py) ++
  componentFields.map (componentField py) ++
  backendRows.map (Row.field py) ++
  [⟨"BLOOM_INFO", (rowSchema py "BloomInfo" bloomRows).type.optional,
      instanceOf (rowSchema py "BloomInfo" bloomRows)⟩] ++
  schedulingRows.map (Row.field py) ++
  [⟨"LOG_INFO", (logInfo py).type.optional, instanceOf (logInfo py)⟩,
    ⟨"REDIS_INFO", (redisInfo py).type, instanceOf (redisInfo py)⟩,
    ⟨"REDIS_STREAM_INFO",
      (rowSchema py "RedisStreamConsumerInfo" redisStreamRows).type.optional, some .none⟩,
    ⟨"MYSQL_INFO", (mysqlInfo py).type, instanceOf (mysqlInfo py)⟩,
    ⟨"POSTGRES_INFO", (postgresInfo py).type, instanceOf (postgresInfo py)⟩,
    ⟨"POSTGRESS_INFO", (postgresInfo py).type.optional, some .none⟩,
    ⟨"MONBODB_INFO", (mongodbInfo py).type, instanceOf (mongodbInfo py)⟩,
    ⟨"RABBITMQ_INFO", (rabbitMQInfo py).type, instanceOf (rabbitMQInfo py)⟩,
    ⟨"KAFKA_INFO", (kafkaInfo py).type, instanceOf (kafkaInfo py)⟩,
    ⟨"CPY_EXTENSIONS", (cpyExtensionsConfig py).type.optional,
      instanceOf (cpyExtensionsConfig py)⟩]

/-- The names of the fields. -/
def settingsNames : List String :=
  requestRows.map Row.name ++ ["EMAIL_INFO", "MONITOR_INFO"] ++ resourceRows.map Row.name ++
    componentFields ++ backendRows.map Row.name ++ ["BLOOM_INFO"] ++
    schedulingRows.map Row.name ++
    ["LOG_INFO", "REDIS_INFO", "REDIS_STREAM_INFO", "MYSQL_INFO", "POSTGRES_INFO",
      "POSTGRESS_INFO", "MONBODB_INFO", "RABBITMQ_INFO", "KAFKA_INFO", "CPY_EXTENSIONS"]

/-! ## Validation -/

/-- An instance: its fields, what else it was given, and its private names. -/
structure SettingsInfo (φ : Type) where
  fields : List (String × Datum φ)
  extra : List (String × Datum φ)
  newSeen : String
  sentSeen : String

namespace SettingsInfo

/-- The value under a name. -/
def get (self : SettingsInfo φ) (name : String) : Option (Datum φ) :=
  (Dict.lookup name self.fields).or (Dict.lookup name self.extra)

/-- `self.name`. -/
def value (self : SettingsInfo φ) (name : String) : Datum φ := (self.get name).getD .none

/-- `object.__setattr__(self, name, value)`. -/
def set (self : SettingsInfo φ) (name : String) (v : Datum φ) : SettingsInfo φ :=
  { self with fields := Dict.assign name v self.fields }

/-- `self.model_dump()`. -/
def modelDump (self : SettingsInfo φ) : List (Atom φ × Datum φ) :=
  dumpFields self.fields ++ dumpFields self.extra

end SettingsInfo

/-- The directory of the older name, where there is none. -/
def selectRuntimeDir (self : SettingsInfo φ) : Except String (SettingsInfo φ) :=
  if (self.value "CURL_CFFI_RUNTIME_DIR").isNone then
    .ok (self.set "CURL_CFFI_RUNTIME_DIR" (self.value "CURL_CFFI_NATIVE_DIR"))
  else if !(self.value "CURL_CFFI_NATIVE_DIR").isNone &&
      !(self.value "CURL_CFFI_NATIVE_DIR").same (self.value "CURL_CFFI_RUNTIME_DIR") then
    .error ("CURL_CFFI_RUNTIME_DIR and deprecated CURL_CFFI_NATIVE_DIR " ++
      "cannot select different directories")
  else .ok self

/-- `{"http": url, "https": url}`. -/
def proxiesOf (url : Datum φ) : Datum φ := .dict [(.str "http", url), (.str "https", url)]

/-- The proxies of the one URL, where there is one. -/
def selectProxies (self : SettingsInfo φ) : SettingsInfo φ :=
  if truthy py (self.value "PROXY_URL") then
    self.set "PROXIES" (proxiesOf (self.value "PROXY_URL"))
  else self

/-- `info.URL`. -/
def urlOf : Datum φ → Datum φ
  | .record _ fields => valueOf "URL" fields
  | _ => .none

/-- The alias of the connection, where that has no URL. -/
def selectPostgres (self : SettingsInfo φ) : SettingsInfo φ :=
  if truthy py (self.value "POSTGRESS_INFO") && !truthy py (urlOf (self.value "POSTGRES_INFO")) then
    self.set "POSTGRES_INFO" (self.value "POSTGRESS_INFO")
  else self

/-- The names of the keys of seen requests. -/
def withSeenNames (self : SettingsInfo φ) : SettingsInfo φ :=
  { self with
    newSeen := textOf py (self.value "FILTER_KEY") ++ "_new_seen"
    sentSeen := textOf py (self.value "FILTER_KEY") ++ "_sent_seen" }

/-- `check_after`, `settings.py:185–218`. -/
def checkAfter (self : SettingsInfo φ) : Except String (SettingsInfo φ) := do
  let self ← selectRuntimeDir self
  if truthy py (self.value "SCHEDULER_PERSIST_SESSIONS") &&
      !truthy py (self.value "SCHEDULER_PERSIST") then
    throw "SCHEDULER_PERSIST_SESSIONS requires SCHEDULER_PERSIST=True"
  else return withSeenNames py (selectPostgres py (selectProxies py self))

/-- What is given under other names than those of the fields. -/
def extraOf (data : List (Atom φ × Datum φ)) : List (String × Datum φ) :=
  data.filterMap fun entry ↦
    match entry.1 with
    | .str name => if settingsNames.contains name then none else some (name, entry.2)
    | _ => none

/-- The fields that are read from data, and the rest of the data. -/
def readSettings (data : List (Atom φ × Datum φ)) : Except Errors (SettingsInfo φ) := do
  let fields ← readFields data (settingsFields py)
  return ⟨fields, extraOf data, "", ""⟩

/-- `SettingsInfo.model_validate(data)`: a new instance, unless a validator raises. -/
def modelValidate (heap : List (SettingsInfo φ)) (data : List (Atom φ × Datum φ)) :
    Except Errors Nat × List (SettingsInfo φ) :=
  match readSettings py data with
  | .error errors => (.error errors, heap)
  | .ok self =>
    match checkAfter py self with
    | .error message => (.error [([], message)], heap)
    | .ok settings => (.ok heap.length, heap ++ [settings])

/-! ## The overlay -/

/-- `data[key] = value` for the whole overlay, `settings.py:230–233`. -/
def applyOverlay (base : SettingsInfo φ) :
    List (String × Datum φ) → List (Atom φ × Datum φ) → Except Errors (List (Atom φ × Datum φ))
  | [], data => .ok data
  | (key, value) :: rest, data =>
    if (Dict.lookup (.str key) data).isNone && (base.get key).isNone && !py.classAttribute key then
      .error [([], "settings_overlay key '" ++ key ++ "' is not a SettingsInfo field")]
    else applyOverlay base rest (Dict.assign (.str key) value data)

/-- `merge_spider_settings`, `settings.py:221–234`, for an instance and an overlay. -/
def mergeSpiderSettings (heap : List (SettingsInfo φ)) (base : Fin heap.length)
    (overlay : Dict String (Datum φ)) : Except Errors Nat × List (SettingsInfo φ) :=
  if overlay.entries.isEmpty then (.ok base, heap)
  else
    match applyOverlay py (heap.get base) overlay.entries (heap.get base).modelDump with
    | .error errors => (.error errors, heap)
    | .ok data => modelValidate py heap data

end ScrapyCffi.Settings
