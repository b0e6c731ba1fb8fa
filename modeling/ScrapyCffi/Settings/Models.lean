import ScrapyCffi.Base.Schema

/-!
# The models of the settings

The models that settings nest, with their fields and validators: `settings.py:34–65`,
`config/database.py`, `config/notifications.py`, `config/queue.py`, `config/redis_stream.py` and
`models/cpy.py`. What `pydantic` reads for an annotation is a parameter, and so is what the code
takes from the interpreter.
-/

namespace ScrapyCffi.Settings

open ScrapyCffi.Base ScrapyCffi.Base.Typed

/-- What the code takes from `pydantic` and the interpreter. -/
structure Python (φ : Type) where
  checker : Checker φ
  ofInt : Int → φ
  isZero : φ → Bool
  lessFloat : Datum φ → Datum φ → Bool
  format : Datum φ → String
  upper : String → String
  knowsEncoding : String → Bool
  importObject : String → String → Except String (Datum φ)
  componentAttribute : String → Option (Datum φ)
  classAttribute : String → Bool

/-- A default in the source. -/
inductive Literal
  | none
  | bool (b : Bool)
  | int (n : Int)
  | float (n : Int)
  | str (s : String)
  | path (s : String)
  | member (enum value : String)
  | secret (s : String)
  | emptyList
  | emptyDict

/-- A field of an annotation without models, and its default. -/
structure Row where
  name : String
  type : Annotation
  default : Option Literal

variable {φ : Type} (py : Python φ)

/-- The value of a default. -/
def Literal.datum : Literal → Datum φ
  | .none => .none
  | .bool b => .atom (.bool b)
  | .int n => .atom (.int n)
  | .float n => .atom (.float (py.ofInt n))
  | .str s => .str s
  | .path s => .atom (.path s)
  | .member enum value => .atom (.member enum value)
  | .secret s => .atom (.secret s)
  | .emptyList => .list []
  | .emptyDict => .dict []

/-- The field of a row. -/
def Row.field (row : Row) : Typed.Field φ where
  name := row.name
  type := .plain py.checker row.type
  default := row.default.map (Literal.datum py)

/-- `bool(value)`. -/
def truthy : Datum φ → Bool
  | .atom .none => false
  | .atom (.bool b) => b
  | .atom (.int n) => n != 0
  | .atom (.float x) => !py.isZero x
  | .atom (.str s) => s != ""
  | .list items => !items.isEmpty
  | .tuple items => !items.isEmpty
  | .dict entries => !entries.isEmpty
  | _ => true

/-- `str(value)`. -/
def textOf : Datum φ → String
  | .atom .none => "None"
  | .atom (.str s) => s
  | .atom (.int n) => toString n
  | v => py.format v

/-- `self.name`. -/
def valueOf (name : String) (self : List (String × Datum φ)) : Datum φ :=
  (Dict.lookup name self).getD .none

/-! ## Databases -/

/-- `BaseDBInfo`, `config/database.py:10–22`. -/
def baseDBRows : List Row :=
  [⟨"URL", .optional .str, some .none⟩,
    ⟨"HOST", .optional .str, some .none⟩,
    ⟨"PORT", .optional (.union .str (.int [])), some .none⟩,
    ⟨"USERNAME", .optional .str, some .none⟩,
    ⟨"PASSWORD", .optional .str, some .none⟩,
    ⟨"DB", .optional (.union .str (.int [])), some .none⟩]

/-- `SqlAlchemyEngineInfo`, `database.py:25–30`. -/
def sqlAlchemyRows : List Row :=
  baseDBRows ++
    [⟨"ECHO", .bool, some (.bool false)⟩,
      ⟨"POOL_PRE_PING", .bool, some (.bool true)⟩,
      ⟨"POOL_SIZE", .int [], some (.int 5)⟩,
      ⟨"MAX_OVERFLOW", .int [], some (.int 10)⟩]

/-- `auth_part`. -/
def authPart (self : List (String × Datum φ)) : String :=
  if truthy py (valueOf "USERNAME" self) && truthy py (valueOf "PASSWORD" self) then
    textOf py (valueOf "USERNAME" self) ++ ":" ++ textOf py (valueOf "PASSWORD" self) ++ "@"
  else if truthy py (valueOf "PASSWORD" self) then
    ":" ++ textOf py (valueOf "PASSWORD" self) ++ "@"
  else ""

/-- `db_part`. -/
def dbPart (self : List (String × Datum φ)) : String :=
  if (valueOf "DB" self).isNone then "" else "/" ++ textOf py (valueOf "DB" self)

/-- The URL is missing and can be assembled. -/
def lacksUrl (self : List (String × Datum φ)) : Bool :=
  !truthy py (valueOf "URL" self) && truthy py (valueOf "HOST" self) &&
    truthy py (valueOf "PORT" self)

/-- `f"{scheme}://{auth_part}{self.HOST}:{self.PORT}{rest}"`, where there is no URL. -/
def assembleUrl (scheme rest : String) (self : List (String × Datum φ)) :
    List (String × Datum φ) :=
  if lacksUrl py self then
    Dict.assign "URL" (.str (scheme ++ "://" ++ authPart py self ++
      textOf py (valueOf "HOST" self) ++ ":" ++ textOf py (valueOf "PORT" self) ++ rest)) self
  else self

/-- The fields of a database of SQLAlchemy, with its driver. -/
def sqlRows (driver : String) : List Row :=
  sqlAlchemyRows ++ [⟨"DRIVER", .str, some (.str driver)⟩]

/-- `MysqlInfo`, `database.py:101–116`. -/
def mysqlInfo : Schema φ where
  title := "MysqlInfo"
  fields := (sqlRows "mysql+asyncmy").map (Row.field py)
  before := id
  after self := .ok (assembleUrl py (textOf py (valueOf "DRIVER" self)) (dbPart py self) self)

/-- `PostgresInfo`, `database.py:118–133`. -/
def postgresInfo : Schema φ where
  title := "PostgresInfo"
  fields := (sqlRows "postgresql+asyncpg").map (Row.field py)
  before := id
  after self := .ok (assembleUrl py (textOf py (valueOf "DRIVER" self)) (dbPart py self) self)

/-- `MongodbInfo`, `database.py:135–149`. -/
def mongodbInfo : Schema φ where
  title := "MongodbInfo"
  fields := baseDBRows.map (Row.field py)
  before := id
  after self := .ok (assembleUrl py "mongodb" (dbPart py self) self)

/-- The fields of `RedisInfo`, `database.py:39–59`. -/
def redisRows : List Row :=
  baseDBRows ++
    [⟨"MODE", .union (.member "RedisMode") .str, some (.member "RedisMode" "single")⟩,
      ⟨"SENTINELS", .optional (.list (.pair .str (.int []))), some .emptyList⟩,
      ⟨"MASTER_NAME", .optional .str, some .none⟩,
      ⟨"SENTINEL_OVERRIDE_MASTER", .optional (.pair .str (.int [])), some .none⟩,
      ⟨"CLUSTER_NODES", .optional (.list (.union .dict .str)), some .emptyList⟩,
      ⟨"CLUSTER_ADDRESS_REMAP", .mapping .str, some .emptyDict⟩,
      ⟨"CONNECT_TIMEOUT", .float [], some (.float 5)⟩,
      ⟨"SOCKET_TIMEOUT", .optional (.float []), some .none⟩,
      ⟨"PROTOCOL", .int [], some (.int 2)⟩,
      ⟨"SSL", .bool, some (.bool false)⟩,
      ⟨"SSL_CERT_REQS", .optional .str, some .none⟩,
      ⟨"SENTINEL_USERNAME", .optional .str, some .none⟩,
      ⟨"SENTINEL_PASSWORD", .optional .str, some .none⟩]

/-- `self.MODE.value if isinstance(self.MODE, RedisMode) else self.MODE`. -/
def modeText : Datum φ → String
  | .atom (.member _ value) => value
  | .atom (.str s) => s
  | _ => ""

/-- `RedisMode.SENTINEL` or `RedisMode.CLUSTER`, where nodes are listed. -/
def inferMode (self : List (String × Datum φ)) : List (String × Datum φ) :=
  if truthy py (valueOf "SENTINELS" self) then
    Dict.assign "MODE" (.atom (.member "RedisMode" "sentinel")) self
  else if truthy py (valueOf "CLUSTER_NODES" self) then
    Dict.assign "MODE" (.atom (.member "RedisMode" "cluster")) self
  else self

/-- The URL of a single node. -/
def singleUrl (self : List (String × Datum φ)) : List (String × Datum φ) :=
  if lacksUrl py self then
    assembleUrl py (if truthy py (valueOf "SSL" self) then "rediss" else "redis")
      (dbPart py self) self
  else
    let url := textOf py (valueOf "URL" self)
    if truthy py (valueOf "URL" self) && truthy py (valueOf "SSL" self) &&
        "redis://".toList.isPrefixOf url.toList then
      Dict.assign "URL" (.str ("rediss://" ++ String.ofList (url.toList.drop 8))) self
    else self

/-- `assemble_url` of `RedisInfo`, `database.py:61–91`. -/
def assembleRedisUrl (self : List (String × Datum φ)) : Except String (List (String × Datum φ)) :=
  if truthy py (valueOf "SENTINELS" self) && truthy py (valueOf "CLUSTER_NODES" self) then
    .error "Configure either SENTINELS or CLUSTER_NODES, not both"
  else
    let self := inferMode py self
    if modeText (valueOf "MODE" self) == "single" then .ok (singleUrl py self) else .ok self

/-- `RedisInfo`, `database.py:39–91`. -/
def redisInfo : Schema φ where
  title := "RedisInfo"
  fields := redisRows.map (Row.field py)
  before := id
  after := assembleRedisUrl py

/-! ## Queues -/

/-- `QueueConnectionInfo`, `config/queue.py:13–22`, with the default of its driver. -/
def queueRows (driver : Literal) : List Row :=
  [⟨"DRIVER", .optional .str, some driver⟩,
    ⟨"URL", .optional .str, some .none⟩,
    ⟨"HOST", .optional .str, some .none⟩,
    ⟨"PORT", .optional (.union .str (.int [])), some .none⟩,
    ⟨"USERNAME", .optional .str, some .none⟩,
    ⟨"PASSWORD", .optional .str, some .none⟩,
    ⟨"MODE", .union (.member "QueueTopology") .str, some (.member "QueueTopology" "single")⟩,
    ⟨"CLUSTER_NODES", .optional (.list .str), some .emptyList⟩]

/-- `assemble_url` of `QueueConnectionInfo`, `queue.py:24–36`. -/
def assembleQueueUrl (self : List (String × Datum φ)) : List (String × Datum φ) :=
  let self := assembleUrl py (textOf py (valueOf "DRIVER" self)) "" self
  if truthy py (valueOf "CLUSTER_NODES" self) then
    Dict.assign "MODE" (.atom (.member "QueueTopology" "cluster")) self
  else self

/-- `value.strip("/")`. -/
def stripSlashes (s : String) : List Char :=
  ((s.toList.dropWhile (· == '/')).reverse.dropWhile (· == '/')).reverse

/-- `assemble_url` of `RabbitMQInfo`, `queue.py:57–66`. -/
def assembleRabbitUrl (self : List (String × Datum φ)) : List (String × Datum φ) :=
  let self := assembleQueueUrl py self
  if truthy py (valueOf "URL" self) && truthy py (valueOf "VHOST" self) then
    let url := textOf py (valueOf "URL" self)
    let vhostPart := '/' :: stripSlashes (textOf py (valueOf "VHOST" self))
    if vhostPart.isSuffixOf url.toList then self
    else Dict.assign "URL" (.str (url ++ String.ofList vhostPart)) self
  else self

/-- The fields of `RabbitMQInfo`, `queue.py:47–55`. -/
def rabbitRows : List Row :=
  queueRows (.str "amqp") ++
    [⟨"VHOST", .str, some (.str "/")⟩,
      ⟨"EXCHANGE_NAME", .str, some (.str "scrapy_cffi")⟩,
      ⟨"EXCHANGE_TYPE", .str, some (.str "direct")⟩,
      ⟨"PREFETCH_COUNT", .int [], some (.int 10)⟩,
      ⟨"DONT_FILTER", .bool, some (.bool false)⟩,
      ⟨"CONNECTION_TIMEOUT", .float [], some (.float 10)⟩,
      ⟨"HEARTBEAT", .int [], some (.int 60)⟩]

/-- `RabbitMQInfo`, `queue.py:47–65`. -/
def rabbitMQInfo : Schema φ where
  title := "RabbitMQInfo"
  fields := rabbitRows.map (Row.field py)
  before := id
  after self := .ok (assembleRabbitUrl py self)

/-- `data.get(name)`. -/
def entryOf [DecidableEq φ] (name : String) (data : List (Atom φ × Datum φ)) : Datum φ :=
  (Dict.lookup (.str name) data).getD .none

/-- `assemble_bootstrap_server`, `queue.py:87–94`. -/
def assembleBootstrapServer [DecidableEq φ] (data : List (Atom φ × Datum φ)) :
    List (Atom φ × Datum φ) :=
  if !truthy py (entryOf "URL" data) && truthy py (entryOf "HOST" data) &&
      truthy py (entryOf "PORT" data) then
    Dict.assign (.str "URL")
      (.str (textOf py (entryOf "HOST" data) ++ ":" ++ textOf py (entryOf "PORT" data))) data
  else data

/-- The number of listed nodes. -/
def nodeCount (nodes : Datum φ) : Int :=
  match nodes with
  | .list items => items.length
  | _ => 0

/-- `REPLICATION_FACTOR`, where there is none. -/
def inferFactor (self : List (String × Datum φ)) : List (String × Datum φ) :=
  if (valueOf "REPLICATION_FACTOR" self).isNone then
    Dict.assign "REPLICATION_FACTOR" (.atom (.int (
      if truthy py (valueOf "CLUSTER_NODES" self) then nodeCount (valueOf "CLUSTER_NODES" self)
      else 1))) self
  else self

/-- The number that a field holds. -/
def intOf : Datum φ → Int
  | .atom (.int n) => n
  | _ => 0

/-- `normalize_cluster`, `queue.py:94–108`. -/
def normalizeCluster (self : List (String × Datum φ)) :
    Except String (List (String × Datum φ)) :=
  let self := inferFactor py (assembleQueueUrl py self)
  let factor := intOf (valueOf "REPLICATION_FACTOR" self)
  let nodes := valueOf "CLUSTER_NODES" self
  if factor < 1 then .error "Kafka REPLICATION_FACTOR must be at least 1"
  else if truthy py nodes && nodeCount nodes < factor then
    .error "Kafka REPLICATION_FACTOR cannot exceed configured CLUSTER_NODES"
  else .ok self

/-- The fields of `KafkaInfo`, `queue.py:67–84`. -/
def kafkaRows : List Row :=
  queueRows .none ++
    [⟨"CONSUMER_GROUP", .str, some (.str "scrapy_cffi")⟩,
      ⟨"PERSISTENT_TIME", .int [], some (.int (7 * 24 * 60 * 60 * 1000))⟩,
      ⟨"NUM_PARTITIONS", .int [], some (.int 3)⟩,
      ⟨"REPLICATION_FACTOR", .optional (.int []), some .none⟩,
      ⟨"AUTO_OFFSET_RESET", .str, some (.str "earliest")⟩,
      ⟨"CLIENT_ID", .str, some (.str "scrapy_cffi")⟩,
      ⟨"REQUEST_TIMEOUT_MS", .int [], some (.int 40000)⟩,
      ⟨"SECURITY_PROTOCOL", .str, some (.str "PLAINTEXT")⟩,
      ⟨"SASL_MECHANISM", .optional .str, some .none⟩,
      ⟨"SASL_USERNAME", .optional .str, some .none⟩,
      ⟨"SASL_PASSWORD", .optional .str, some .none⟩,
      ⟨"SSL_CAFILE", .optional .str, some .none⟩,
      ⟨"SSL_CERTFILE", .optional .str, some .none⟩,
      ⟨"SSL_KEYFILE", .optional .str, some .none⟩]

/-- `KafkaInfo`, `queue.py:67–112`; the validator of the queues comes before its own. -/
def kafkaInfo [DecidableEq φ] : Schema φ where
  title := "KafkaInfo"
  fields := kafkaRows.map (Row.field py)
  before := assembleBootstrapServer py
  after self := normalizeCluster py (assembleQueueUrl py self)

/-! ## Models without connections -/

/-- The fields of `EmailInfo`, `config/notifications.py:13–24`. -/
def emailRows : List Row :=
  [⟨"HOST", .str, some (.str "")⟩,
    ⟨"PORT", .int [.ge 1, .le 65535], some (.int 465)⟩,
    ⟨"USERNAME", .str, some (.str "")⟩,
    ⟨"PASSWORD", .secret, some (.secret "")⟩,
    ⟨"FROM_ADDRESS", .str, some (.str "")⟩,
    ⟨"TO_ADDRESSES", .list .str, some .emptyList⟩,
    ⟨"USE_SSL", .bool, some (.bool true)⟩,
    ⟨"STARTTLS", .bool, some (.bool false)⟩,
    ⟨"TIMEOUT", .float [.gt 0], some (.float 10)⟩,
    ⟨"SUBJECT_PREFIX", .str, some (.str "[scrapy-cffi]")⟩,
    ⟨"SEND_ON_ENGINE_STOPPED", .bool, some (.bool true)⟩,
    ⟨"SEND_ON_ERROR", .bool, some (.bool false)⟩]

/-- `EmailInfo`, `notifications.py:10–31`. -/
def emailInfo : Schema φ where
  title := "EmailInfo"
  fields := emailRows.map (Row.field py)
  before := id
  after self :=
    if truthy py (valueOf "USE_SSL" self) && truthy py (valueOf "STARTTLS" self) then
      .error "EMAIL_INFO cannot enable USE_SSL and STARTTLS together"
    else .ok self

/-- A model without validators of its own. -/
def rowSchema (title : String) (rows : List Row) : Schema φ where
  title := title
  fields := rows.map (Row.field py)
  before := id
  after := .ok

/-- The fields of `MonitorInfo`, `notifications.py:34–41`. -/
def monitorRows : List Row :=
  [⟨"HUB_URL", .str, some (.str "http://127.0.0.1:6800")⟩,
    ⟨"WORKER_ID", .optional .str, some .none⟩,
    ⟨"EVENT_BATCH_SIZE", .int [.ge 1], some (.int 100)⟩,
    ⟨"HEARTBEAT_INTERVAL", .float [.gt 0], some (.float 15)⟩,
    ⟨"TIMEOUT", .float [.gt 0], some (.float 3)⟩]

/-- The fields of `RedisStreamConsumerInfo`, `config/redis_stream.py:15–28`. -/
def redisStreamRows : List Row :=
  [⟨"MODE", .member "RedisIngressMode", some (.member "RedisIngressMode" "list")⟩,
    ⟨"STREAM_KEY", .optional .str, some .none⟩,
    ⟨"GROUP_NAME", .optional .str, some .none⟩,
    ⟨"CONSUMER_NAME", .optional .str, some .none⟩,
    ⟨"FIELD", .str, some (.str "data")⟩,
    ⟨"COUNT", .int [], some (.int 1)⟩,
    ⟨"BLOCK_MS", .int [], some (.int 2000)⟩,
    ⟨"GROUP_START_ID", .str, some (.str "0")⟩,
    ⟨"READ_ID", .str, some (.str ">")⟩,
    ⟨"MKSTREAM", .bool, some (.bool true)⟩,
    ⟨"AUTO_ACK", .bool, some (.bool true)⟩]

/-- The fields of `BloomInfo`, `settings.py:34–40`. -/
def bloomRows : List Row :=
  [⟨"MODE", .bool, some (.bool false)⟩,
    ⟨"SIZE", .int [.gt 0], some (.int 100000000)⟩,
    ⟨"EXPECTED", .int [.gt 0], some (.int 10000000)⟩,
    ⟨"HASH_COUNT", .int [.ge 0], some (.int 0)⟩]

/-- The fields of `CPYExtension`, `models/cpy.py:6–11`. -/
def cpyExtensionRows : List Row :=
  [⟨"module_name", .str, none⟩,
    ⟨"resource_name", .optional .str, some .none⟩,
    ⟨"wrapper", .optional .str, some (.str "wrapper.py")⟩,
    ⟨"fallback", .optional .str, some (.str "fallback.py")⟩,
    ⟨"build_dir", .optional .str, some (.str "build")⟩]

/-- `CPYExtensionsConfig`, `cpy.py:13–15`. -/
def cpyExtensionsConfig [DecidableEq φ] : Schema φ where
  title := "CPYExtensionsConfig"
  fields :=
    [Row.field py ⟨"DIR", .path, some (.path "cpy_resources")⟩,
      ⟨"RESOURCES", .list (rowSchema py "CPYExtension" cpyExtensionRows).type, some (.list [])⟩]
  before := id
  after := .ok

/-- The fields of `LogInfo` in front of its level, `settings.py:47–48`. -/
def logRows : List Row :=
  [⟨"LOG_ENABLED", .optional .bool, some (.bool true)⟩,
    ⟨"LOG_WITH_STREAM", .optional .bool, some (.bool true)⟩]

/-- `valid_levels`. -/
def validLevels : List String := ["DEBUG", "INFO", "WARNING", "ERROR", "CRITICAL"]

/-- `normalize_mute_type`, `settings.py:57–65`. -/
def normalizeLevel (level : Datum φ) : Except String (Datum φ) :=
  if truthy py level then
    let upper := py.upper (textOf py level)
    if validLevels.contains upper then .ok (.str upper)
    else .error "LOG_LEVEL must be one of DEBUG, INFO, WARNING, ERROR, CRITICAL"
  else .ok level

/-- `check_special_fields` on an encoding, `models/base.py:12–20`. -/
def checkEncoding (v : Datum φ) : Except String Unit :=
  if v.isNone || py.knowsEncoding (textOf py v) then .ok ()
  else .error ("LOG_ENCODING got invalid encoding: " ++ textOf py v)

/-- `LogInfo`, `settings.py:42–65`. -/
def logInfo : Schema φ where
  title := "LogInfo"
  fields := logRows.map (Row.field py) ++
    [⟨"LOG_LEVEL", .checked py.checker (.optional .str) (fun _ ↦ .ok ()) (normalizeLevel py),
        some (.str "DEBUG")⟩,
      Row.field py ⟨"LOG_FORMAT", .optional .str,
        some (.str "%(asctime)s [%(name)s] %(levelname)s: %(message)s")⟩,
      Row.field py ⟨"LOG_DATEFORMAT", .optional .str, some (.str "%Y-%m-%d %H:%M:%S")⟩,
      Row.field py ⟨"LOG_FILE", .optional .str, some (.str "")⟩,
      ⟨"LOG_ENCODING", .checked py.checker (.optional .str) (checkEncoding py) .ok,
        some (.str "utf-8")⟩,
      Row.field py ⟨"LOG_SHORT_NAMES", .optional .bool, some (.bool false)⟩,
      Row.field py ⟨"LOG_FORMATTER", .optional .str, some (.str "")⟩]
  before := id
  after := .ok

end ScrapyCffi.Settings
