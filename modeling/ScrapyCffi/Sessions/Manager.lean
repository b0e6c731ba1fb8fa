import Mathlib.Logic.Function.Basic
import ScrapyCffi.Base.Machine

/-!
# The session manager

`SessionManager` (`scrapy_cffi/core/sessions.py:671–898`): sessions and groups, reference counts,
end flags and the background task that closes ended sessions. Reference counts are kept for the
id that a caller passes, a session's own or that of a group.
-/

namespace ScrapyCffi.Sessions

open ScrapyCffi.Base

/-- `_reaper_loop`: it waits for the close queue, has taken an id from it, or awaits the close of
the wrapper that `_safe_close` has popped. -/
inductive Reaper
  | waiting
  | taken (sessionId : String)
  | closing (sessionId : String) (wrapper : Nat)
  deriving DecidableEq, Repr

/-- An `acquire` that is not released, with the sessions its id stood for. -/
structure Use where
  sessionId : String
  addressed : List String
  deriving DecidableEq, Repr

/-- `SessionManager`. A wrapper is the number of its creation; the default session has an entry
without a wrapper at first, which `sessions` does not tell from no entry. The last two fields are
history: the wrappers created and the acquires that are not released. -/
structure State where
  defaultSessionId : String
  sessions : String → Option Nat
  groupSessions : List (String × List String)
  refCounts : String → Option Int
  endFlags : List String
  closeQueue : List String
  pendingCloseSet : List String
  frozen : Bool
  reaper : Reaper
  created : Nat
  uses : List Use

/-- `__init__`. -/
def State.start (defaultSessionId : String) : State where
  defaultSessionId
  sessions _ := none
  groupSessions := []
  refCounts _ := none
  endFlags := []
  closeQueue := []
  pendingCloseSet := []
  frozen := false
  reaper := .waiting
  created := 0
  uses := []

/-- `is_default_session(session_id) or not session_id`. -/
def State.isDefault (s : State) (sessionId : String) : Bool :=
  sessionId = s.defaultSessionId || sessionId = ""

/-- The members of a group, none for an id that is not a group's. -/
def State.members (s : State) (sessionId : String) : List String :=
  (s.groupSessions.lookup sessionId).getD []

/-- The id with which `get_or_create_session` looks for a session or a group. -/
def State.target (s : State) (sessionId : String) : String :=
  if sessionId = "" then s.defaultSessionId else sessionId

/-- The concrete session for an id, where `choice` is the outcome of `random.choice`; `none` when
the group has no members and the call raises. -/
def State.resolve (s : State) (sessionId : String) (choice : Nat) : Option String :=
  match s.groupSessions.lookup (s.target sessionId) with
  | none => some (s.target sessionId)
  | some members => members[choice % members.length]?

/-- `get_or_create_session`. -/
def State.getOrCreateSession (s : State) (sessionId : String) (choice : Nat) :
    Option Nat × State :=
  match s.resolve sessionId choice with
  | none => (none, s)
  | some concrete =>
    match s.sessions concrete with
    | some wrapper => (some wrapper, s)
    | none => (some s.created, { s with
        sessions := Function.update s.sessions concrete (some s.created)
        created := s.created + 1 })

/-- One round of the loop of `register_sessions_batch`. -/
def State.registerOne (s : State) (ids : List String) (sessionId : String) :
    List String × State :=
  if sessionId = s.defaultSessionId ∨ (s.sessions sessionId).isSome then (ids, s)
  else (ids ++ [sessionId], { s with
    sessions := Function.update s.sessions sessionId (some s.created)
    created := s.created + 1 })

/-- The loop of `register_sessions_batch`. -/
def State.registerAll (s : State) (ids : List String) : List String → List String × State
  | [] => (ids, s)
  | sessionId :: rest => (s.registerOne ids sessionId).2.registerAll (s.registerOne ids sessionId).1 rest

/-- Assign to a key of a dictionary. -/
def assign (key : String) (value : List String) :
    List (String × List String) → List (String × List String)
  | [] => [(key, value)]
  | (k, v) :: rest => if k = key then (k, value) :: rest else (k, v) :: assign key value rest

/-- `register_sessions_batch` with the keys of `user_cookies` and the id of the group. -/
def State.registerSessionsBatch (s : State) (userIds : List String) (groupId : String) : State :=
  if userIds = [] then s
  else
    let (ids, t) := s.registerAll [] userIds
    { t with groupSessions := assign groupId ids t.groupSessions }

/-- The sessions that an id stands for. -/
def State.addressed (s : State) (sessionId : String) : List String :=
  s.target sessionId :: s.members (s.target sessionId)

/-- `acquire`. -/
def State.acquire (s : State) (sessionId : String) : State :=
  let t := { s with uses := ⟨sessionId, s.addressed sessionId⟩ :: s.uses }
  if s.isDefault sessionId then t
  else { t with
    refCounts := Function.update s.refCounts sessionId
      (some ((s.refCounts sessionId).getD 0 + 1)) }

/-- Put an id into the close queue unless it is pending. -/
def State.enqueueClose (s : State) (sessionId : String) : State :=
  if sessionId ∈ s.pendingCloseSet then s
  else { s with
    closeQueue := s.closeQueue ++ [sessionId]
    pendingCloseSet := sessionId :: s.pendingCloseSet }

/-- `release`. -/
def State.release (s : State) (sessionId : String) : State :=
  let t := { s with uses := s.uses.eraseP (·.sessionId = sessionId) }
  if s.isDefault sessionId then t
  else
    match s.refCounts sessionId with
    | none => t
    | some count =>
      let t := { t with refCounts := Function.update s.refCounts sessionId (some (count - 1)) }
      if sessionId ∈ s.endFlags ∧ count - 1 ≤ 0 then t.enqueueClose sessionId else t

/-- `mark_end_single`. -/
def State.markEndSingle (s : State) (sessionId : String) : State :=
  let t := { s with endFlags := s.endFlags.insert sessionId }
  if (s.refCounts sessionId).getD 0 ≤ 0 then t.enqueueClose sessionId else t

/-- Remove a session from the first group that has it. -/
def removeMember (sessionId : String) :
    List (String × List String) → List (String × List String)
  | [] => []
  | (groupId, members) :: rest =>
    if sessionId ∈ members then (groupId, members.erase sessionId) :: rest
    else (groupId, members) :: removeMember sessionId rest

/-- `mark_end`. -/
def State.markEnd (s : State) (sessionId : String) : State :=
  if s.isDefault sessionId then s
  else
    match s.groupSessions.lookup sessionId with
    | some members => members.foldl State.markEndSingle s
    | none =>
      { s with groupSessions := removeMember sessionId s.groupSessions }.markEndSingle sessionId

/-- `freeze`. -/
def State.freeze (s : State) : State := { s with frozen := true }

/-- `_close_queue.get` of the reaper. -/
def State.take (s : State) : Option State :=
  match s.reaper, s.closeQueue with
  | .waiting, sessionId :: closeQueue => some { s with closeQueue, reaper := .taken sessionId }
  | _, _ => none

/-- The session and the wrapper that the next step of the reaper pops and closes. -/
def State.closes (s : State) : Option (String × Nat) :=
  match s.reaper with
  | .taken sessionId =>
    if s.frozen || s.isDefault sessionId then none
    else (s.sessions sessionId).map (sessionId, ·)
  | _ => none

/-- The end of a round of the reaper. -/
def State.discard (s : State) (sessionId : String) : State :=
  { s with reaper := .waiting, pendingCloseSet := s.pendingCloseSet.erase sessionId }

/-- `_safe_close` up to its first await, and the end of the round when there is none. -/
def State.safeClose (s : State) : Option State :=
  match s.reaper with
  | .taken sessionId =>
    match s.closes with
    | some (_, wrapper) => some { s with
        sessions := Function.update s.sessions sessionId none
        reaper := .closing sessionId wrapper }
    | none => some (s.discard sessionId)
  | _ => none

/-- The connections and the HTTP session of a wrapper are closed, or their close has raised. -/
def State.closed (s : State) : Option State :=
  match s.reaper with
  | .closing sessionId _ => some (s.discard sessionId)
  | _ => none

/-- The calls of the manager and the steps of its reaper. -/
inductive Event
  | acquire (sessionId : String)
  | release (sessionId : String)
  | markEnd (sessionId : String)
  | getOrCreateSession (sessionId : String) (choice : Nat)
  | registerSessionsBatch (userIds : List String) (groupId : String)
  | freeze
  | take
  | safeClose
  | closed
  deriving DecidableEq, Repr

/-- One event. -/
def State.step (s : State) : Event → Option State
  | .acquire sessionId => some (s.acquire sessionId)
  | .release sessionId => some (s.release sessionId)
  | .markEnd sessionId => some (s.markEnd sessionId)
  | .getOrCreateSession sessionId choice => some (s.getOrCreateSession sessionId choice).2
  | .registerSessionsBatch userIds groupId => some (s.registerSessionsBatch userIds groupId)
  | .freeze => some s.freeze
  | .take => s.take
  | .safeClose => s.safeClose
  | .closed => s.closed

/-- Queueing a session changes the close queue. -/
theorem enqueueClose_eq (s : State) (sessionId : String) : ∃ closeQueue pendingCloseSet,
    s.enqueueClose sessionId = { s with closeQueue, pendingCloseSet } := by
  unfold State.enqueueClose
  split <;> exact ⟨_, _, rfl⟩

/-- `acquire` changes the counts. -/
theorem acquire_eq (s : State) (sessionId : String) : ∃ refCounts uses,
    s.acquire sessionId = { s with refCounts, uses } := by
  unfold State.acquire
  split <;> exact ⟨_, _, rfl⟩

/-- `release` changes the counts and the close queue. -/
theorem release_eq (s : State) (sessionId : String) : ∃ refCounts uses closeQueue pendingCloseSet,
    s.release sessionId = { s with refCounts, uses, closeQueue, pendingCloseSet } := by
  rw [State.release]
  split
  · exact ⟨_, _, _, _, rfl⟩
  · split
    · exact ⟨_, _, _, _, rfl⟩
    · split
      · obtain ⟨_, _, he⟩ := enqueueClose_eq _ sessionId
        exact ⟨_, _, _, _, he⟩
      · exact ⟨_, _, _, _, rfl⟩

/-- `mark_end_single` changes the flags and the close queue. -/
theorem markEndSingle_eq (s : State) (sessionId : String) :
    ∃ endFlags closeQueue pendingCloseSet,
      s.markEndSingle sessionId = { s with endFlags, closeQueue, pendingCloseSet } := by
  rw [State.markEndSingle]
  split
  · obtain ⟨_, _, he⟩ := enqueueClose_eq _ sessionId
    exact ⟨_, _, _, he⟩
  · exact ⟨_, _, _, rfl⟩

/-- `mark_end_single` of every member changes the flags and the close queue. -/
theorem markAll_eq (s : State) (members : List String) :
    ∃ endFlags closeQueue pendingCloseSet,
      members.foldl State.markEndSingle s =
        { s with endFlags, closeQueue, pendingCloseSet } := by
  induction members generalizing s with
  | nil => exact ⟨_, _, _, rfl⟩
  | cons member members ih =>
    obtain ⟨_, _, _, he⟩ := markEndSingle_eq s member
    rw [List.foldl_cons, he]
    exact ih _

/-- `mark_end` also changes the groups. -/
theorem markEnd_eq (s : State) (sessionId : String) :
    ∃ groupSessions endFlags closeQueue pendingCloseSet, s.markEnd sessionId =
      { s with groupSessions, endFlags, closeQueue, pendingCloseSet } := by
  rw [State.markEnd]
  split
  · exact ⟨_, _, _, _, rfl⟩
  · split
    · next members _ =>
      obtain ⟨_, _, _, he⟩ := markAll_eq s members
      exact ⟨_, _, _, _, he⟩
    · obtain ⟨_, _, _, he⟩ := markEndSingle_eq _ sessionId
      exact ⟨_, _, _, _, he⟩

/-- The count of an id, 0 when it was never acquired. -/
def State.count (s : State) (sessionId : String) : Int := (s.refCounts sessionId).getD 0

/-- `acquire` counts one more, but not for the default session. -/
theorem count_acquire (s : State) (sessionId other : String) :
    (s.acquire sessionId).count other =
      s.count other + if other = sessionId ∧ s.isDefault sessionId = false then 1 else 0 := by
  unfold State.acquire
  by_cases hd : s.isDefault sessionId
  · simp [hd, State.count]
  · by_cases ho : other = sessionId
    · subst ho
      simp [hd, State.count]
    · simp [hd, ho, State.count]

/-- `release` of an acquired id counts one less. -/
theorem count_release (s : State) (sessionId other : String)
    (h : s.isDefault sessionId = false → 0 < s.count sessionId) :
    (s.release sessionId).count other =
      s.count other - if other = sessionId ∧ s.isDefault sessionId = false then 1 else 0 := by
  rw [State.release]
  by_cases hd : s.isDefault sessionId
  · simp [hd, State.count]
  · have hpos := h (by simpa using hd)
    cases hc : s.refCounts sessionId with
    | none => simp [State.count, hc] at hpos
    | some count =>
      have hcount : ((Function.update s.refCounts sessionId (some (count - 1))) other).getD 0 =
          s.count other - if other = sessionId ∧ s.isDefault sessionId = false then 1 else 0 := by
        by_cases ho : other = sessionId
        · subst ho
          simp [hd, State.count, hc]
        · simp [ho, State.count]
      rw [if_neg hd]
      dsimp only
      split
      · obtain ⟨_, _, he⟩ := enqueueClose_eq { s with
          uses := s.uses.eraseP (·.sessionId = sessionId)
          refCounts := Function.update s.refCounts sessionId (some (count - 1)) } sessionId
        rw [he]
        exact hcount
      · exact hcount

/-- Every interleaving. -/
def machine : Machine State Event where
  init s := ∃ defaultSessionId, s = State.start defaultSessionId
  step := State.step

end ScrapyCffi.Sessions
