import ScrapyCffi.Base.ConsumerGroup
import ScrapyCffi.Base.Dict
import ScrapyCffi.Base.Json
import ScrapyCffi.Base.Machine
import ScrapyCffi.Base.Utf8

/-!
# Reading a Redis Stream

`RedisRepository.dequeue_stream_request` and `ack_stream_request`, `repo/redis.py:203–303`, called
for any number of consumers of one group on one stream, as `dequeue_start_request` calls them
(`repo/redis_ingress.py:136–157`). The server is a log with a consumer group. A command is carried
out at once; its reply arrives, or it is lost and `RetryPolicy` sends the command again. Entries are
not trimmed, and a group begins at "0" or at "$".
-/

namespace ScrapyCffi.Repo

open ScrapyCffi.Base ScrapyCffi.Base.Percent

abbrev Bytes := List UInt8

abbrev Text := List Char

/-! ### Data -/

/-- A name or a value as the client returns it: bytes, or a text where it decodes. -/
inductive RedisData
  | bytes (data : Bytes)
  | text (text : Text)
  deriving DecidableEq

/-- What stops a call: a `ResponseError` with its text, a `DataError`, a `UnicodeDecodeError`, or a
cancellation or the last of the attempts. -/
inductive StreamError
  | response (text : String)
  | data
  | unicode
  | abandoned
  deriving DecidableEq

namespace RedisData

/-- `_to_text`, `redis.py:297–302`. -/
def toText : RedisData → Except StreamError Text
  | .bytes data =>
    match decodeUtf8 data with
    | some t => .ok t
    | none => .error .unicode
  | .text t => .ok t

/-- A value as bytes. -/
def encode : RedisData → Bytes
  | .bytes data => data
  | .text t => encodeUtf8 t

end RedisData

/-- `json.dumps` of a dictionary of texts with `ensure_ascii=False`. -/
def dumps (members : Dict Text Text) : Text :=
  '{' :: (", ".toList.intercalate (members.entries.map fun member ↦
    quote false (String.ofList member.1) ++ ": ".toList ++
      quote false (String.ofList member.2)) ++ ['}'])

/-- `_extract_stream_data`, `redis.py:272–295`. -/
def extractStreamData (fields : Dict RedisData RedisData) (field : Option Text) :
    Except StreamError (Option Bytes) :=
  let named := (field.filter fun name ↦ name ≠ []).bind fun name ↦
    (fields.get (.text name)).or (fields.get (.bytes (encodeUtf8 name)))
  let only := if fields.entries.length = 1 then fields.entries.head?.map Prod.snd else none
  if fields.entries = [] then .ok none
  else
    match named.or only with
    | some value => .ok (some value.encode)
    | none => do
      let members ← fields.entries.mapM fun entry ↦ do
        let key ← entry.1.toText
        let item ← entry.2.toText
        return (key, item)
      return some (encodeUtf8 (dumps (Dict.ofList members)))

/-- `RedisStreamMessage` of the one stream, whose id is the place of its entry. -/
structure RedisStreamMessage where
  messageId : Nat
  data : Bytes
  fields : Dict RedisData RedisData

/-! ### The server -/

/-- `group_start_id`. -/
inductive StartId
  | zero
  | dollar
  deriving DecidableEq

/-- `read_id`: ">", or the id before some place. -/
inductive ReadId
  | new
  | since (place : Nat)
  deriving DecidableEq

/-- An entry has fields. -/
abbrev StreamFields := { fields : Dict RedisData RedisData // fields.entries ≠ [] }

/-- The stream, if its key exists, and its group, if it was created. -/
structure RedisStream where
  entries : Option (List StreamFields)
  group : Option (ConsumerGroup Text)

namespace RedisStream

def busyGroup : String := "BUSYGROUP Consumer Group name already exists"

def noKey : String := "The XGROUP subcommand requires the key to exist."

def noGroup : String := "NOGROUP No such key or consumer group in XREADGROUP with GROUP option"

variable (r : RedisStream)

def log : List StreamFields := r.entries.getD []

def xadd (fields : StreamFields) : RedisStream := { r with entries := some (r.log ++ [fields]) }

/-- Where a group begins. -/
def start : StartId → Nat
  | .zero => 0
  | .dollar => r.log.length

/-- The text of the error, if there is one, and the stream after the command. -/
def xgroupCreate (id : StartId) (mkstream : Bool) : Option String × RedisStream :=
  if r.group.isSome then (some busyGroup, r)
  else if r.entries.isNone && !mkstream then (some noKey, r)
  else (none, { entries := some r.log, group := some (.create (r.start id)) })

/-- The entries with their places, and the stream after the command. -/
def xreadgroup (consumer : Text) (id : ReadId) (count : Nat) :
    Except StreamError (List (StreamFields × Nat)) × RedisStream :=
  match r.group with
  | none => (.error (.response noGroup), r)
  | some g =>
    match id with
    | .new =>
      let batch := g.fresh r.log count
      (.ok batch, { r with group := some (g.deliver consumer batch.length) })
    | .since place => (.ok (g.history r.log consumer place count), r)

def xack (place : Nat) : RedisStream := { r with group := r.group.map (·.acknowledge place) }

end RedisStream

/-! ### The calls -/

/-- The parts of `RedisIngressConfig` that a call uses, `redis_ingress.py:15–34`. -/
structure RedisIngressConfig where
  consumerName : Text
  field : Text
  count : Int
  groupStartId : StartId
  readId : ReadId
  mkstream : Bool

/-- Where a call of `dequeue_stream_request` is: before its first line, at `xgroup_create`, at
`xreadgroup`, or at its end. -/
inductive Call
  | created
  | grouping
  | reading
  | ended (result : Except StreamError (Option RedisStreamMessage))

/-- Repositories `π` with their calls `ι`. `initialized` tells where `_stream_groups_initialized`
holds the group, and `returned` lists the messages that calls have returned. -/
structure State (ι π : Type) where
  stream : RedisStream
  initialized : π → Bool
  calls : ι → Call
  returned : List RedisStreamMessage

/-- A producer adds an entry; a call goes up to its first command; its command is carried out and the
reply arrives, or is lost; it is cancelled or out of attempts; the message of a call that has
returned one is acknowledged. -/
inductive Event (ι : Type)
  | add (fields : StreamFields)
  | begin (i : ι)
  | create (i : ι) (arrives : Bool)
  | read (i : ι) (arrives : Bool)
  | abandon (i : ι)
  | acknowledge (i : ι)

/-- From the reply of `xreadgroup` on, `redis.py:246–259`. -/
def received (field : Text) :
    Except StreamError (List (StreamFields × Nat)) → Except StreamError (Option RedisStreamMessage)
  | .error e => .error e
  | .ok [] => .ok none
  | .ok ((fields, place) :: _) =>
    (extractStreamData fields.1 (some field)).map fun data ↦
      data.map fun data ↦ ⟨place, data, fields.1⟩

/-- The message that a call returns. -/
def message? : Except StreamError (Option RedisStreamMessage) → Option RedisStreamMessage
  | .ok message => message
  | .error _ => none

namespace State

variable {ι π : Type} [DecidableEq ι] [DecidableEq π]

def start (stream : RedisStream) : State ι π where
  stream := stream
  initialized _ := false
  calls _ := .created
  returned := []

def goTo (s : State ι π) (i : ι) (call : Call) : State ι π :=
  { s with calls := Function.update s.calls i call }

/-- A call ends. -/
def finish (s : State ι π) (i : ι) (result : Except StreamError (Option RedisStreamMessage)) :
    State ι π :=
  { s with
    calls := Function.update s.calls i (.ended result)
    returned := s.returned ++ (message? result).toList }

/-- From the reply of `xgroup_create` on, `redis.py:222–234`. -/
def grouped (s : State ι π) (process : ι → π) (i : ι) : Option String → State ι π
  | none => { s with initialized := Function.update s.initialized (process i) true }.goTo i .reading
  | some text =>
    -- "BUSYGROUP" in str(exc)
    if text = RedisStream.busyGroup then
      { s with initialized := Function.update s.initialized (process i) true }.goTo i .reading
    else s.finish i (.error (.response text))

variable (config : π → RedisIngressConfig) (process : ι → π)

/-- `xgroup_create` is carried out. -/
def create (s : State ι π) (i : ι) (arrives : Bool) : State ι π :=
  let c := config (process i)
  let (error, stream) := s.stream.xgroupCreate c.groupStartId c.mkstream
  if arrives then { s with stream }.grouped process i error else { s with stream }

/-- `xreadgroup` is carried out. The client refuses counts that are not positive. -/
def read (s : State ι π) (i : ι) (arrives : Bool) : State ι π :=
  let c := config (process i)
  if c.count < 1 then s.finish i (.error .data)
  else
    let (reply, stream) := s.stream.xreadgroup c.consumerName c.readId c.count.toNat
    if arrives then { s with stream }.finish i (received c.field reply) else { s with stream }

/-- One step. -/
def step (s : State ι π) : Event ι → Option (State ι π)
  | .add fields => some { s with stream := s.stream.xadd fields }
  | .begin i =>
    match s.calls i with
    | .created => some (s.goTo i (if s.initialized (process i) then .reading else .grouping))
    | _ => none
  | .create i arrives =>
    match s.calls i with
    | .grouping => some (s.create config process i arrives)
    | _ => none
  | .read i arrives =>
    match s.calls i with
    | .reading => some (s.read config process i arrives)
    | _ => none
  | .abandon i =>
    match s.calls i with
    | .grouping | .reading => some (s.finish i (.error .abandoned))
    | _ => none
  | .acknowledge i =>
    match s.calls i with
    | .ended (.ok (some message)) => some { s with stream := s.stream.xack message.messageId }
    | _ => none

end State

/-- The group, if it was created before, has delivered nothing since it is observed. -/
def RedisStream.Observed (r : RedisStream) : Prop :=
  ∀ g, r.group = some g → g.first = g.last ∧ g.Sound r.log

/-- The calls of some repositories. -/
def consumers {ι π : Type} [DecidableEq ι] [DecidableEq π] (config : π → RedisIngressConfig)
    (process : ι → π) : Machine (State ι π) (Event ι) where
  init s := ∃ stream : RedisStream, stream.Observed ∧ s = .start stream
  step := State.step config process

end ScrapyCffi.Repo
