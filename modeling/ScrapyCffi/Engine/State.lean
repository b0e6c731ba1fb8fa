import ScrapyCffi.Base.Machine
import ScrapyCffi.Base.Table
import ScrapyCffi.Base.TaskPool
import ScrapyCffi.Engine.Tasks

/-!
# Engine state and request ownership

The state of one `Engine` with its scheduler's queue and the WebSocket entries of its
sessions, and the helpers that change it: `_track_request`, `_release_request`
(`scrapy_cffi/core/engine.py:160–180`), the end of `scheduler.get`, and `WebSocketEntry.close` (`scrapy_cffi/core/sessions.py:178–215`). The queue starts empty and
no other process feeds or drains it. A dictionary is a number; one that holds no work id may
be new. The spider and the interceptors may alias and copy `meta` dictionaries, but do not
write `_scrapy_cffi_engine_work_id` themselves and do not replace the `meta` of a request.
-/

namespace ScrapyCffi.Engine

open ScrapyCffi.Base

/-- An element of the scheduler's queue: the local queue keeps the request object, the
distributed ones a serialised copy with the work id of that moment. -/
inductive Queued
  | object (request : Request)
  | bytes (kind : RequestKind) (workId : Option Nat)
  deriving DecidableEq, Repr

/-- The part of a `WebSocketEntry` that the engine reads, and the position of its listener. -/
structure WebSocketEntry where
  connected : Bool
  closed : Bool
  listener : Nat
  deriving DecidableEq, Repr

/-- Where `_wait_for_explicit_completion` stands. -/
inductive Waiter
  | producer
  | idle
  | quiescent
  | returned
  deriving DecidableEq, Repr

/-- The engine's work state with the `meta` dictionaries: `workIds` is what each of them
holds under `_WORK_ID_META_KEY`. -/
structure Ownership where
  workIds : Nat → Option Nat
  workSequence : Nat
  pendingWorkIds : Finset Nat
  workIdle : Bool

/-- The WebSocket pools: the entry of each URL, and the entries opened so far. -/
structure Connections where
  pool : Nat → Option Nat
  entries : Nat → WebSocketEntry
  opened : Nat

/-- The engine, the queue, the requests that scheduler loops hold after `get`, and the tasks.
`raised` records a managed task that ended by an exception. The last four fields are history:
the deliveries, the children produced by sourced outputs, those that crossed their boundary,
and the acknowledged deliveries. -/
structure State where
  stopEvent : Bool
  raised : Bool
  producerDone : Bool
  waiter : Waiter
  ownership : Ownership
  queue : List Queued
  inHand : List Delivery
  tasks : List Task
  connections : Connections
  delivered : Nat
  produced : List Child
  crossed : List Child
  acknowledged : List Nat

/-- The engine once `start` has created the producer, the scheduler loops and the waiter. -/
def State.start : State where
  stopEvent := false
  raised := false
  producerDone := false
  waiter := .producer
  ownership := ⟨fun _ ↦ none, 0, ∅, true⟩
  queue := []
  inHand := []
  tasks := []
  connections := ⟨fun _ ↦ none, fun _ ↦ ⟨false, false, 0⟩, 0⟩
  delivered := 0
  produced := []
  crossed := []
  acknowledged := []

/-- `request.meta.get(self._WORK_ID_META_KEY)`. -/
def Ownership.workId (o : Ownership) (request : Request) : Option Nat :=
  o.workIds request.metaDict

/-- The work id that a queued request will have when it is delivered. -/
def Ownership.queuedId (o : Ownership) : Queued → Option Nat
  | .object request => o.workId request
  | .bytes _ workId => workId

/-- The first half of `_track_request`: a request without a work id gets the next one. -/
def Ownership.assign (o : Ownership) (request : Request) : Ownership :=
  match o.workId request with
  | some _ => o
  | none => { o with
      workSequence := o.workSequence + 1
      workIds := Function.update o.workIds request.metaDict (some (o.workSequence + 1)) }

/-- The second half of `_track_request`. -/
def Ownership.add (o : Ownership) (request : Request) : Ownership :=
  match o.workId request with
  | some workId =>
    if workId ∈ o.pendingWorkIds then o
    else { o with pendingWorkIds := insert workId o.pendingWorkIds, workIdle := false }
  | none => o

/-- `_track_request`. -/
def Ownership.track (o : Ownership) (request : Request) : Ownership :=
  (o.assign request).add request

/-- `_release_request`. -/
def Ownership.release (o : Ownership) (request : Request) : Ownership :=
  let pending := match o.workId request with
    | some workId => o.pendingWorkIds.erase workId
    | none => o.pendingWorkIds
  { o with pendingWorkIds := pending, workIdle := o.workIdle || decide (pending = ∅) }

/-- The idle event is set exactly when no work is pending. -/
def Ownership.IdleIff (o : Ownership) : Prop := o.workIdle = true ↔ o.pendingWorkIds = ∅

namespace Ownership

variable {o : Ownership} {request : Request} {workId : Nat}

/-- Writing to a dictionary without a work id keeps those that dictionaries hold. -/
theorem workIds_update {workIds : Nat → Option Nat} {metaDict target : Nat} {value : Option Nat}
    (hnone : workIds target = none) (h : workIds metaDict = some workId) :
    Function.update workIds target value metaDict = some workId := by
  have hne : metaDict ≠ target := by
    rintro rfl
    exact absurd (h.symm.trans hnone) (by simp)
  rwa [Function.update_of_ne hne]

/-- Assigning a work id keeps those that dictionaries hold. -/
theorem workIds_assign {metaDict : Nat} (h : o.workIds metaDict = some workId) :
    (o.assign request).workIds metaDict = some workId := by
  unfold assign
  split
  · exact h
  · next hnone => exact workIds_update hnone h

/-- After the first half of `_track_request` the request has a work id. -/
theorem workId_assign (o : Ownership) (request : Request) :
    ∃ workId, (o.assign request).workId request = some workId := by
  unfold assign
  split
  · next found hfound => exact ⟨found, hfound⟩
  · exact ⟨_, Function.update_self ..⟩

/-- The second half touches no dictionary. -/
@[simp] theorem workIds_add (o : Ownership) (request : Request) :
    (o.add request).workIds = o.workIds := by
  unfold add
  repeat' split
  all_goals rfl

/-- `_track_request` keeps the work ids that dictionaries hold. -/
theorem workIds_track {metaDict : Nat} (h : o.workIds metaDict = some workId) :
    (o.track request).workIds metaDict = some workId := by
  rw [track, workIds_add]
  exact workIds_assign h

/-- A tracked request has a work id. -/
theorem workId_track (o : Ownership) (request : Request) :
    ∃ workId, (o.track request).workId request = some workId := by
  rw [track, Ownership.workId, workIds_add]
  exact o.workId_assign request

@[simp] theorem pending_assign (o : Ownership) (request : Request) :
    (o.assign request).pendingWorkIds = o.pendingWorkIds := by
  unfold assign
  split <;> rfl

@[simp] theorem workIdle_assign (o : Ownership) (request : Request) :
    (o.assign request).workIdle = o.workIdle := by
  unfold assign
  split <;> rfl

/-- `_track_request` makes the request's work id pending and no other one. -/
theorem mem_track : workId ∈ (o.track request).pendingWorkIds ↔
    workId ∈ o.pendingWorkIds ∨ (o.track request).workId request = some workId := by
  obtain ⟨found, hfound⟩ := o.workId_assign request
  have hid : (o.track request).workId request = some found := by
    rw [track, Ownership.workId, workIds_add]
    exact hfound
  rw [hid, track, add, hfound]
  dsimp only
  split
  · next hmem =>
    rw [pending_assign] at hmem ⊢
    refine ⟨.inl, fun h ↦ h.elim id fun he ↦ ?_⟩
    exact Option.some.inj he ▸ hmem
  · simp [or_comm, eq_comm]

/-- `_release_request` drops the request's work id and no other one. -/
theorem mem_release : workId ∈ (o.release request).pendingWorkIds ↔
    workId ∈ o.pendingWorkIds ∧ o.workId request ≠ some workId := by
  unfold release
  dsimp only
  split
  · next found hfound =>
    rw [hfound, Finset.mem_erase, and_comm]
    simp [eq_comm]
  · next hnone => simp [hnone]

/-- Every work id in a dictionary or pending has been given out. -/
structure Known (o : Ownership) : Prop where
  workIds : ∀ metaDict workId, o.workIds metaDict = some workId → workId ≤ o.workSequence
  pending : ∀ workId ∈ o.pendingWorkIds, workId ≤ o.workSequence

@[simp] theorem workSequence_add (o : Ownership) (request : Request) :
    (o.add request).workSequence = o.workSequence := by
  unfold add
  repeat' split
  all_goals rfl

/-- A dictionary that `_track_request` writes to gets the next work id. -/
theorem of_workIds_track {metaDict : Nat} (h : (o.track request).workIds metaDict = some workId) :
    o.workIds metaDict = some workId ∨
      (workId = o.workSequence + 1 ∧ (o.track request).workSequence = o.workSequence + 1) := by
  rw [track, workIds_add] at h
  rw [track, workSequence_add]
  unfold assign at h ⊢
  split
  · next found hfound =>
    rw [hfound] at h
    exact .inl h
  · next hnone =>
    rw [hnone] at h
    rcases entry_of_insert h with ⟨-, rfl⟩ | ⟨-, h⟩
    · exact .inr ⟨rfl, rfl⟩
    · exact .inl h

/-- `_track_request` gives out at most the next work id. -/
theorem workSequence_track_le (o : Ownership) (request : Request) :
    o.workSequence ≤ (o.track request).workSequence := by
  rw [track, workSequence_add]
  unfold assign
  split
  · exact Nat.le_refl _
  · exact Nat.le_succ _

theorem Known.track (ho : o.Known) (request : Request) : (o.track request).Known := by
  have hle := o.workSequence_track_le request
  have hids : ∀ metaDict workId, (o.track request).workIds metaDict = some workId →
      workId ≤ (o.track request).workSequence := by
    intro metaDict workId h
    rcases of_workIds_track h with h | ⟨rfl, hseq⟩
    · exact (ho.workIds metaDict workId h).trans hle
    · exact hseq.ge
  refine ⟨hids, fun workId hm ↦ ?_⟩
  rcases mem_track.mp hm with hm | hid
  · exact (ho.pending workId hm).trans hle
  · exact hids _ _ hid

/-- `_track_request` clears the idle event when work is pending. -/
theorem IdleIff.track (ho : o.IdleIff) (request : Request) : (o.track request).IdleIff := by
  obtain ⟨found, hfound⟩ := o.workId_assign request
  rw [IdleIff, Ownership.track, add, hfound]
  dsimp only
  split
  · simpa [IdleIff] using ho
  · simp

/-- `_release_request` sets the idle event when nothing is left. -/
theorem IdleIff.release (ho : o.IdleIff) (request : Request) : (o.release request).IdleIff := by
  have hsub : o.pendingWorkIds = ∅ → (o.release request).pendingWorkIds = ∅ := by
    intro hempty
    refine Finset.eq_empty_of_forall_notMem fun workId hmem ↦ ?_
    simpa [hempty] using (mem_release.mp hmem).1
  constructor
  · intro hidle
    rcases Bool.or_eq_true_iff.mp hidle with hidle | hempty
    · exact hsub (ho.mp hidle)
    · exact of_decide_eq_true hempty
  · intro hempty
    exact Bool.or_eq_true_iff.mpr (.inr (decide_eq_true hempty))

end Ownership

/-- Register the entry whose listener starts at `listener`; `fetch_websocket` reuses the
entry of the URL when the pool has one. -/
def Connections.register (c : Connections) (url entry listener : Nat) : Connections where
  pool := Function.update c.pool url (some entry)
  entries := Function.update c.entries entry { c.entries entry with listener }
  opened := max c.opened (entry + 1)

/-- `set_websocket`. -/
def Connections.connect (c : Connections) (entry : Nat) : Connections :=
  { c with entries := Function.update c.entries entry { c.entries entry with connected := true } }

/-- `WebSocketEntry.close` sets the closed event. -/
def Connections.close (c : Connections) (entry : Nat) : Connections :=
  { c with entries := Function.update c.entries entry { c.entries entry with closed := true } }

/-- `WebSocketEntry.close` cancels the registered listener, the first time. -/
def Connections.cancel (c : Connections) (entry : Nat) (tasks : List Task) : List Task :=
  if (c.entries entry).closed then tasks else tasks.set (c.entries entry).listener .done

/-- `SessionWrapper.close_websocket` closes the entry of the URL and removes it. -/
def State.closeUrl (s : State) (url : Nat) : State :=
  match s.connections.pool url with
  | none => s
  | some entry => { s with
      tasks := s.connections.cancel entry s.tasks
      connections :=
        { s.connections.close entry with pool := Function.update s.connections.pool url none } }

/-- `scheduler.get` by one of the loops. The local queue is first in first out; a
distributed one may deliver out of order, with the request's dictionary built anew. -/
def State.get (distributed : Bool) (s : State) (position metaDict : Nat) : Option State :=
  if position ≠ 0 ∧ distributed = false then none
  else match s.queue[position]? with
    | none => none
    | some (.object request) => some { s with
        queue := s.queue.eraseIdx position
        inHand := ⟨request, s.delivered⟩ :: s.inHand
        delivered := s.delivered + 1 }
    | some (.bytes kind workId) =>
      if s.ownership.workIds metaDict = none then some { s with
        queue := s.queue.eraseIdx position
        ownership.workIds := Function.update s.ownership.workIds metaDict workId
        inHand := ⟨⟨kind, metaDict⟩, s.delivered⟩ :: s.inHand
        delivered := s.delivered + 1 }
      else none

/-- Start a task: `TaskManager.create` does nothing once the stop event is set, listeners
start in any case. -/
def State.create (s : State) : Option Task → Option Task
  | some point => if s.stopEvent && point.managed then none else some point
  | none => none

end ScrapyCffi.Engine
