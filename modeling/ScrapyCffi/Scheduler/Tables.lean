import Mathlib.Logic.Function.Basic
import ScrapyCffi.Base.Machine

/-!
# Message tables keyed by object identity

The tables of `KafkaScheduler` (`scrapy_cffi/core/scheduler/kafka.py:47–48,77–132`) and of
`RedisScheduler` (`scheduler/redis.py:58–59,87–101,173–204`) are keyed by `id(request)`, an
address that a discarded object gives back. Objects are created by callbacks and
interceptors, from start messages and by `get`, and may be discarded whenever no frame and
no table refers to them. `put` has two stretches, the duplicate check and the push with what
follows it; in between its frame keeps the request alive. Shutdown's `requeue_inflight` is
not part of these runs.
-/

namespace ScrapyCffi.Scheduler.Tables

open ScrapyCffi.Base

/-- The two schedulers. -/
inductive Transport
  | kafka
  | redis
  deriving DecidableEq, Repr

/-- A delivery of a start or work message; `identified` is `hasattr(message, "message_id")`,
false for the plain payload of a Redis list. -/
structure Message where
  serial : Nat
  start : Bool
  identified : Bool
  deriving DecidableEq, Repr

/-- A request object: its identity over time, its `id`, and what the duplicate check reads. -/
structure Request where
  object : Nat
  address : Nat
  fingerprint : String
  dontFilter : Bool
  deriving DecidableEq, Repr

/-- The heap, the tables and the duplicate filter. `startTable` is `_start_messages` or
`_start_requests`, `marked` the objects whose `meta` holds a true `is_start_url`. The last
six fields are history: what each object was built from, the messages delivered so far, the
puts that returned `True` or found a duplicate, every acknowledgement with the object that
caused it, and the leased messages whose table entry was overwritten. -/
structure State where
  live : List Request
  created : Nat
  startTable : Nat → Option Message
  inflightMessages : Nat → Option Message
  inflightRequests : Nat → Option Nat
  marked : List Nat
  seen : List String
  putting : List Nat
  origin : Nat → Option Message
  delivered : Nat
  accepted : List Nat
  duplicates : List Nat
  acks : List (Message × Nat)
  overwritten : List Message

/-- The scheduler's `__init__`. -/
def State.start : State where
  live := []
  created := 0
  startTable _ := none
  inflightMessages _ := none
  inflightRequests _ := none
  marked := []
  seen := []
  putting := []
  origin _ := none
  delivered := 0
  accepted := []
  duplicates := []
  acks := []
  overwritten := []

/-- What the spider, the interceptors and the scheduler do with request objects. -/
inductive Event
  /-- A callback or an interceptor builds a request. -/
  | create (address : Nat) (fingerprint : String) (dontFilter : Bool)
  /-- The spider builds a request from a start message and attaches the message. -/
  | attachStartReq (address : Nat) (fingerprint : String) (dontFilter identified : Bool)
  /-- `get` builds a request from a work message and leases it. -/
  | get (address : Nat) (fingerprint : String) (dontFilter : Bool)
  /-- `single_result.meta["is_start_url"] = True`; `scrapy_cffi/core/engine.py:248–249`. -/
  | markAsStart (request : Request)
  /-- `result.meta.pop("is_start_url", None)`; `scrapy_cffi/interceptors/spiders.py:218`. -/
  | popStartUrl (request : Request)
  /-- The duplicate check of `put`. -/
  | putCheck (request : Request)
  /-- The push of `put` and what follows it. -/
  | putPushed (request : Request) (pushed : Bool)
  | completeRequest (request : Request)
  /-- The last reference to the object is dropped. -/
  | discard (request : Request)
  deriving DecidableEq, Repr

/-- Create an object at a free address. -/
def State.create (s : State) (address : Nat) (fingerprint : String) (dontFilter : Bool)
    (origin : Option Message) : Option State :=
  if ∀ request ∈ s.live, request.address ≠ address then
    some { s with
      live := ⟨s.created, address, fingerprint, dontFilter⟩ :: s.live
      created := s.created + 1
      origin := Function.update s.origin s.created origin }
  else none

/-- `attach_start_req` on a request just built; `kafka.py:131–132`, `redis.py:94–95`. -/
def State.attachStartReq (s : State) (address : Nat) (fingerprint : String)
    (dontFilter identified : Bool) : Option State :=
  let message : Message := ⟨s.delivered, true, identified⟩
  (s.create address fingerprint dontFilter (some message)).map fun t ↦
    { t with
      startTable := Function.update t.startTable address (some message)
      delivered := t.delivered + 1 }

/-- `get` once a message has arrived; `kafka.py:110–113`, `redis.py:87–89,215–217`. A Kafka
lease keeps the message, a Redis lease the request. -/
def State.get (transport : Transport) (s : State) (address : Nat) (fingerprint : String)
    (dontFilter : Bool) : Option State :=
  let message : Message := ⟨s.delivered, false, true⟩
  match transport with
  | .kafka =>
    (s.create address fingerprint dontFilter (some message)).map fun t ↦
      { t with
        inflightMessages := Function.update t.inflightMessages address (some message)
        delivered := t.delivered + 1
        overwritten := t.overwritten ++ (s.inflightMessages address).toList }
  | .redis =>
    (s.create address fingerprint dontFilter none).map fun t ↦
      { t with inflightRequests := Function.update t.inflightRequests address (some s.created) }

/-- Up to the push: `dont_filter` and start requests skip the filter, others are dropped
when seen; `kafka.py:78–83`, `redis.py:175,186–191`. -/
def State.putCheck (s : State) (request : Request) : Option State :=
  if request ∉ s.live then none
  else if request.dontFilter = true ∨ request.object ∈ s.marked then
    some { s with putting := request.object :: s.putting }
  else if request.fingerprint ∈ s.seen then
    some { s with duplicates := request.object :: s.duplicates }
  else some { s with
    seen := request.fingerprint :: s.seen
    putting := request.object :: s.putting }

/-- `_complete_start_request`, and the same statements of the Kafka `put`:
`redis.py:97–101`, `kafka.py:93–95`. A plain payload has nothing to acknowledge. -/
def State.completeStartRequest (transport : Transport) (s : State) (request : Request) : State :=
  match s.startTable request.address with
  | none => s
  | some message =>
    { s with
      startTable := Function.update s.startTable request.address none
      acks := if transport = .kafka ∨ message.identified = true then
        s.acks ++ [(message, request.object)] else s.acks }

/-- After the push: settle the start message when it succeeded; `kafka.py:92–101`,
`redis.py:178–184,194–204`. -/
def State.putPushed (transport : Transport) (s : State) (request : Request) (pushed : Bool) :
    Option State :=
  if request ∈ s.live ∧ request.object ∈ s.putting then
    let s := { s with putting := s.putting.erase request.object }
    if pushed then
      let s := s.completeStartRequest transport request
      some { s with accepted := request.object :: s.accepted }
    else some s
  else none

/-- `complete_request`; `kafka.py:116–119`, `redis.py:91–92`. -/
def State.completeRequest (transport : Transport) (s : State) (request : Request) :
    Option State :=
  if request ∉ s.live then none
  else match transport with
    | .kafka =>
      match s.inflightMessages request.address with
      | none => some s
      | some message => some { s with
          inflightMessages := Function.update s.inflightMessages request.address none
          acks := s.acks ++ [(message, request.object)] }
    | .redis => some { s with
        inflightRequests := Function.update s.inflightRequests request.address none }

/-- Drop an object that no `put` holds and no Redis lease keeps. -/
def State.discard (s : State) (request : Request) : Option State :=
  if request.object ∉ s.putting ∧ s.inflightRequests request.address ≠ some request.object then
    some { s with live := s.live.filter (· ≠ request) }
  else none

/-- One event. -/
def State.step (transport : Transport) (s : State) : Event → Option State
  | .create address fingerprint dontFilter => s.create address fingerprint dontFilter none
  | .attachStartReq address fingerprint dontFilter identified =>
    s.attachStartReq address fingerprint dontFilter identified
  | .get address fingerprint dontFilter => s.get transport address fingerprint dontFilter
  | .markAsStart request =>
    if request ∈ s.live then some { s with marked := request.object :: s.marked } else none
  | .popStartUrl request =>
    if request ∈ s.live then some { s with marked := s.marked.filter (· ≠ request.object) }
    else none
  | .putCheck request => s.putCheck request
  | .putPushed request pushed => s.putPushed transport request pushed
  | .completeRequest request => s.completeRequest transport request
  | .discard request => s.discard request

/-- Every run of a scheduler's table operations. -/
def machine (transport : Transport) : Machine State Event where
  init s := s = State.start
  step := State.step transport

/-- What creation makes of the heap. -/
theorem create_spec {s t : State} {address : Nat} {fingerprint : String} {dontFilter : Bool}
    {origin : Option Message} (hs : s.create address fingerprint dontFilter origin = some t) :
    (∀ request ∈ s.live, request.address ≠ address) ∧ t = { s with
      live := ⟨s.created, address, fingerprint, dontFilter⟩ :: s.live
      created := s.created + 1
      origin := Function.update s.origin s.created origin } := by
  unfold State.create at hs
  split at hs
  · next haddress =>
    cases hs
    exact ⟨haddress, rfl⟩
  · cases hs

end ScrapyCffi.Scheduler.Tables
