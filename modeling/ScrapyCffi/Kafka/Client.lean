import Mathlib.Logic.Function.Basic
import ScrapyCffi.Base.Machine

/-!
# Leased Kafka offsets

`KafkaClient.dequeue_request` and `KafkaClient.ack_request`,
`scrapy_cffi/infra/kafka/client.py:323–389`. One event is one stretch of a coroutine between
two awaits that can suspend it: a consumer lock is held from `getone` to the append, the
offset lock from the marking to the end of the commit. A dequeue that times out changes
nothing and has no event. The `delivered`, `leased`, `acked` and `commits` fields record
history; no branch of the code reads them.
-/

namespace ScrapyCffi.Kafka

open ScrapyCffi.Base

/-- The key of `_consumers` and `_consumer_locks`. -/
structure ConsumerKey where
  topic : String
  consumerGroup : String
  deriving DecidableEq, Repr

/-- `pending_key`; `client.py:341,363–367`. -/
structure PendingKey extends ConsumerKey where
  partition : Nat
  deriving DecidableEq, Repr

/-- One entry of a pending deque: an offset and whether it is completed. -/
abbrev Entry := Nat × Bool

/-- `_pending_offsets`. -/
abbrev PendingOffsets := PendingKey → Option (List Entry)

/-- The search loop of `ack_request`, with `none` for its `else`; `client.py:376–381`. -/
def markOffset (offset : Nat) : List Entry → Option (List Entry)
  | [] => none
  | entry :: rest =>
    if entry.1 = offset then some ((entry.1, true) :: rest)
    else (markOffset offset rest).map (entry :: ·)

/-- `while pending and pending[0][1]`; `client.py:383–385`. -/
def popCompleted (commitOffset : Option Nat) : List Entry → Option Nat × List Entry
  | [] => (commitOffset, [])
  | (offset, completed) :: rest =>
    if completed then popCompleted (some (offset + 1)) rest
    else (commitOffset, (offset, completed) :: rest)

/-- What `ack_request` has decided when it releases the lock or awaits the commit. -/
structure AckResult where
  returns : Bool
  pendingOffsets : PendingOffsets
  commitOffset : Option Nat

/-- The locked section of `ack_request` up to its commit; `client.py:372–388`. -/
def ackPending (pendingOffsets : PendingOffsets) (key : PendingKey) (offset : Nat) : AckResult :=
  match (pendingOffsets key).getD [] with
  | [] => ⟨false, pendingOffsets, none⟩
  | pending =>
    match markOffset offset pending with
    | none => ⟨false, pendingOffsets, none⟩
    | some marked =>
      let (commitOffset, rest) := popCompleted none marked
      let kept := if rest = [] then none else some rest
      ⟨true, Function.update pendingOffsets key kept, commitOffset⟩

/-- The client, the positions its consumers commit, and the history of both. `fetched` is
the record between `getone` and its lease, `committing` the commit being awaited. -/
structure Client where
  consumers : ConsumerKey → Bool
  fetched : ConsumerKey → Option (Nat × Nat)
  pendingOffsets : PendingOffsets
  committing : Option (PendingKey × Nat)
  delivered : PendingKey → List Nat
  leased : PendingKey → List Nat
  acked : PendingKey → List Nat
  commits : PendingKey → List Nat

/-- `KafkaClient.__init__`. -/
def Client.start : Client where
  consumers _ := false
  fetched _ := none
  pendingOffsets _ := none
  committing := none
  delivered _ := []
  leased _ := []
  acked _ := []
  commits _ := []

/-- One stretch of a coroutine. -/
inductive Event
  /-- `_get_request_consumer` created the consumer. -/
  | consumer (key : ConsumerKey)
  /-- `getone` returned the record `offset` of `partition` under the consumer lock. -/
  | getone (key : ConsumerKey) (partition offset : Nat)
  /-- `dequeue_request` appended its lease and returned. -/
  | lease (key : ConsumerKey)
  /-- `ack_request` ran up to its return or to its commit. -/
  | ackRequest (key : PendingKey) (offset : Nat)
  /-- The awaited commit succeeded and `ack_request` returned. -/
  | committed
  deriving DecidableEq, Repr

/-- Append to one key's history. -/
def record (history : PendingKey → List Nat) (key : PendingKey) (offset : Nat) :
    PendingKey → List Nat := Function.update history key (history key ++ [offset])

/-- A consumer delivers increasing offsets of each partition, one record at a time under its
lock; `client.py:333–337`. -/
def Client.getone (s : Client) (key : ConsumerKey) (partition offset : Nat) : Option Client :=
  let pendingKey : PendingKey := ⟨key, partition⟩
  if s.consumers key = true ∧ s.fetched key = none ∧
      ∀ earlier ∈ s.delivered pendingKey, earlier < offset then
    some { s with
      fetched := Function.update s.fetched key (some (partition, offset))
      delivered := record s.delivered pendingKey offset }
  else none

/-- Append the lease under both locks; `client.py:338–352`. -/
def Client.lease (s : Client) (key : ConsumerKey) : Option Client :=
  match s.fetched key, s.committing with
  | some (partition, offset), none =>
    let pendingKey : PendingKey := ⟨key, partition⟩
    let pending := (s.pendingOffsets pendingKey).getD []
    some { s with
      fetched := Function.update s.fetched key none
      pendingOffsets := Function.update s.pendingOffsets pendingKey
        (some (pending ++ [(offset, false)]))
      leased := record s.leased pendingKey offset }
  | _, _ => none

/-- `ack_request` up to its return or its commit; `client.py:354–388`. The history counts
the acknowledgement of a leased offset. -/
def Client.ackRequest (s : Client) (key : PendingKey) (offset : Nat) : Option Client :=
  if s.consumers key.toConsumerKey = false then some s
  else if s.committing ≠ none then none
  else
    let result := ackPending s.pendingOffsets key offset
    some { s with
      pendingOffsets := result.pendingOffsets
      committing := result.commitOffset.map fun commitOffset ↦ (key, commitOffset)
      acked := if offset ∈ s.leased key then record s.acked key offset else s.acked }

/-- The commit returns and the offset lock is released; `client.py:388–389`. -/
def Client.committed (s : Client) : Option Client :=
  s.committing.map fun (key, commitOffset) ↦
    { s with committing := none, commits := record s.commits key commitOffset }

/-- One event of the client. -/
def Client.step (s : Client) : Event → Option Client
  | .consumer key => some { s with consumers := Function.update s.consumers key true }
  | .getone key partition offset => s.getone key partition offset
  | .lease key => s.lease key
  | .ackRequest key offset => s.ackRequest key offset
  | .committed => s.committed

/-- Every interleaving of dequeues and acknowledgements. -/
def machine : Machine Client Event where
  init s := s = Client.start
  step := Client.step

/-- The position whose commit is awaited for a key. -/
def Client.inFlight (s : Client) (key : PendingKey) : List Nat :=
  match s.committing with
  | some (committing, commitOffset) => if committing = key then [commitOffset] else []
  | none => []

/-- The record of a key that is fetched and not leased. -/
def Client.unleased (s : Client) (key : PendingKey) : List Nat :=
  match s.fetched key.toConsumerKey with
  | some (partition, offset) => if partition = key.partition then [offset] else []
  | none => []

end ScrapyCffi.Kafka
