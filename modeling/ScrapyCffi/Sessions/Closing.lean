import Mathlib.Data.List.Basic
import ScrapyCffi.Sessions.Manager

/-!
# Sessions that are closed while in use

The count of an id does not see the acquires of a group it belongs to, and `_safe_close` does not
look at the count again after the id has waited in the close queue
(`scrapy_cffi/core/sessions.py:829–898`). The guard `Undisturbed` excludes the calls that these
two gaps let through.
-/

namespace ScrapyCffi.Sessions

open ScrapyCffi.Base

/-- The ids whose close is decided and not begun. -/
def State.waiting (s : State) : List String :=
  s.closeQueue ++ match s.reaper with
    | .taken sessionId => [sessionId]
    | _ => []

/-- An acquire that is not released addresses a session when it did so at the time or does so
now. -/
def State.Addresses (s : State) (use : Use) (sessionId : String) : Prop :=
  sessionId ∈ use.addressed ∨ sessionId ∈ s.members (s.target use.sessionId)

instance (s : State) (use : Use) (sessionId : String) : Decidable (s.Addresses use sessionId) :=
  inferInstanceAs (Decidable (_ ∨ _))

/-- Some acquire that addresses the session is not released. -/
def State.InUse (s : State) (sessionId : String) : Prop :=
  ∃ use ∈ s.uses, s.Addresses use sessionId

/-- Some acquire that addresses the session under another id is not released. -/
def State.UsedByGroup (s : State) (sessionId : String) : Prop :=
  ∃ use ∈ s.uses, use.sessionId ≠ sessionId ∧ s.Addresses use sessionId

instance (s : State) (sessionId : String) : Decidable (s.InUse sessionId) :=
  inferInstanceAs (Decidable (∃ use ∈ s.uses, _))

instance (s : State) (sessionId : String) : Decidable (s.UsedByGroup sessionId) :=
  inferInstanceAs (Decidable (∃ use ∈ s.uses, _))

/-- The sessions that `mark_end` ends. -/
def State.ended (s : State) (sessionId : String) : List String :=
  (s.groupSessions.lookup sessionId).getD [sessionId]

/-- No session that waits to be closed is acquired or added to a group in use, no session that a
group uses is queued, and nothing is released that is not acquired. -/
def Undisturbed (s : State) : Event → Prop
  | .acquire sessionId => ∀ session ∈ s.waiting, session ∉ s.addressed sessionId
  | .release sessionId =>
    (s.refCounts sessionId = none ∨ ∃ use ∈ s.uses, use.sessionId = sessionId) ∧
    (sessionId ∈ s.endFlags ∧ (s.refCounts sessionId).getD 0 ≤ 1 → ¬ s.UsedByGroup sessionId)
  | .markEnd sessionId => ∀ session ∈ s.ended sessionId,
    (s.refCounts session).getD 0 ≤ 0 → ¬ s.UsedByGroup session
  | .registerSessionsBatch userIds groupId => ∀ session ∈ userIds, session ∈ s.waiting →
    ¬ ∃ use ∈ s.uses, s.target use.sessionId = groupId
  | _ => True

instance (s : State) : ∀ event, Decidable (Undisturbed s event)
  | .acquire _ => inferInstanceAs (Decidable (∀ session ∈ s.waiting, _))
  | .release _ => inferInstanceAs (Decidable (_ ∧ _))
  | .markEnd _ => inferInstanceAs (Decidable (∀ session ∈ s.ended _, _))
  | .registerSessionsBatch userIds _ => inferInstanceAs (Decidable (∀ session ∈ userIds, _))
  | .getOrCreateSession .. | .freeze | .take | .safeClose | .closed => .isTrue trivial

variable {s t : State} {sessionId groupId session : String}

/-- The counts are exact, and no session that waits to be closed is in use. -/
structure Idle (s : State) : Prop where
  counted : ∀ id, s.isDefault id = false →
    (s.refCounts id).getD 0 = (s.uses.countP (·.sessionId = id) : Int)
  idle : ∀ session ∈ s.waiting, s.isDefault session = false → ¬ s.InUse session

/-- A session that is used neither under its own id nor by a group is not in use. -/
theorem not_inUse (hown : ∀ use ∈ s.uses, use.sessionId ≠ session)
    (hgroup : ¬ s.UsedByGroup session) : ¬ s.InUse session := by
  rintro ⟨use, hu, ha⟩
  exact hgroup ⟨use, hu, hown use hu, ha⟩

/-- Without a count there is no acquire under the own id. -/
theorem Idle.unused (h : Idle s) (hd : s.isDefault session = false)
    (hc : (s.refCounts session).getD 0 ≤ 0) : ∀ use ∈ s.uses, use.sessionId ≠ session := by
  rw [h.counted session hd] at hc
  have hzero : s.uses.countP (·.sessionId = session) = 0 := by omega
  simpa using List.countP_eq_zero.mp hzero

/-- A session that is not in use may be queued. -/
theorem Idle.enqueueClose (h : Idle s) (hs : s.isDefault session = false → ¬ s.InUse session) :
    Idle (s.enqueueClose session) := by
  unfold State.enqueueClose
  split
  · exact h
  · refine ⟨h.counted, fun other ho hd ↦ ?_⟩
    by_cases he : other = session
    · subst he
      exact hs hd
    · refine h.idle other ?_ hd
      simpa [State.waiting, he] using ho

/-- `acquire` of an id that addresses no waiting session. -/
theorem Idle.acquire (h : Idle s) (hg : ∀ session ∈ s.waiting, session ∉ s.addressed sessionId) :
    Idle (s.acquire sessionId) := by
  have hidle : ∀ session ∈ s.waiting, s.isDefault session = false →
      ¬ ∃ use ∈ (⟨sessionId, s.addressed sessionId⟩ : Use) :: s.uses, s.Addresses use session := by
    rintro session hw hd ⟨use, hu, ha⟩
    rcases List.mem_cons.mp hu with rfl | hu
    · refine hg session hw ?_
      rcases ha with ha | ha
      · exact ha
      · exact List.mem_cons_of_mem _ ha
    · exact h.idle session hw hd ⟨use, hu, ha⟩
  unfold State.acquire
  split
  · next hdefault =>
    refine ⟨fun id hd ↦ ?_, hidle⟩
    have hne : sessionId ≠ id := by
      rintro rfl
      exact absurd hdefault (by simp [show s.isDefault sessionId = false from hd])
    rw [List.countP_cons_of_neg (by simpa using hne)]
    exact h.counted id hd
  · refine ⟨fun id hd ↦ ?_, hidle⟩
    have hcount := h.counted id hd
    by_cases hne : id = sessionId
    · subst hne
      simp only [Function.update_self, Option.getD_some, hcount]
      rw [List.countP_cons_of_pos (by simp)]
      omega
    · rw [List.countP_cons_of_neg (by simpa using Ne.symm hne)]
      simpa [Function.update_of_ne hne] using hcount

/-- The acquires of each id after one of them is released. -/
theorem countP_eraseP (uses : List Use) (released other : String) :
    (uses.eraseP (·.sessionId = released)).countP (·.sessionId = other) =
      if other = released then uses.countP (·.sessionId = released) - 1
      else uses.countP (·.sessionId = other) := by
  induction uses with
  | nil => simp
  | cons use uses ih =>
    by_cases hu : use.sessionId = released
    · rw [List.eraseP_cons_of_pos (by simpa using hu)]
      by_cases ho : other = released
      · subst ho
        simp [hu]
      · simp [hu, ho, Ne.symm ho]
    · rw [List.eraseP_cons_of_neg (by simpa using hu), List.countP_cons, ih]
      by_cases ho : other = released
      · subst ho
        simp [hu]
      · simp [ho, List.countP_cons]

/-- A smaller membership and fewer acquires use fewer sessions. -/
theorem State.InUse.mono (h : t.InUse session) (hd : t.defaultSessionId = s.defaultSessionId)
    (hm : ∀ id, t.members id ⊆ s.members id) (hu : t.uses ⊆ s.uses) : s.InUse session := by
  obtain ⟨use, hmem, ha⟩ := h
  refine ⟨use, hu hmem, ha.imp_right fun hs ↦ ?_⟩
  rw [State.target, hd] at hs
  exact hm _ hs

/-- `release` of an acquired id. -/
theorem Idle.release (h : Idle s)
    (hown : s.refCounts sessionId = none ∨ ∃ use ∈ s.uses, use.sessionId = sessionId)
    (hgroup : sessionId ∈ s.endFlags ∧ (s.refCounts sessionId).getD 0 ≤ 1 →
      ¬ s.UsedByGroup sessionId) : Idle (s.release sessionId) := by
  have hsub : s.uses.eraseP (·.sessionId = sessionId) ⊆ s.uses := List.eraseP_subset
  have hidle : ∀ session ∈ s.waiting, s.isDefault session = false →
      ¬ { s with uses := s.uses.eraseP (·.sessionId = sessionId) }.InUse session :=
    fun session hw hd hu ↦ h.idle session hw hd (hu.mono rfl (fun _ _ hm ↦ hm) hsub)
  unfold State.release
  split
  · next hdefault =>
    refine ⟨fun id hd ↦ ?_, hidle⟩
    have hne : id ≠ sessionId := by
      rintro rfl
      exact absurd hdefault (by simp [show s.isDefault id = false from hd])
    simp only [countP_eraseP, if_neg hne]
    exact h.counted id hd
  · next hdefault =>
    have hcount := h.counted sessionId (by simpa using hdefault)
    split
    · next hnone =>
      refine ⟨fun id hd ↦ ?_, hidle⟩
      simp only [countP_eraseP]
      split
      · next he =>
        subst he
        rw [hcount]
        simp only [hnone, Option.getD_none] at hcount
        omega
      · exact h.counted id hd
    · next count hsome =>
      obtain ⟨use, hu, he⟩ := hown.resolve_left (by simp [hsome])
      have hpos : 0 < s.uses.countP (·.sessionId = sessionId) :=
        List.countP_pos_iff.mpr ⟨use, hu, by simpa using he⟩
      simp only [hsome, Option.getD_some] at hcount hgroup
      have hreleased : Idle { s with
          uses := s.uses.eraseP (·.sessionId = sessionId)
          refCounts := Function.update s.refCounts sessionId (some (count - 1)) } := by
        refine ⟨fun id hd ↦ ?_, hidle⟩
        simp only [countP_eraseP]
        by_cases hid : id = sessionId
        · subst hid
          simp only [Function.update_self, Option.getD_some, if_true]
          omega
        · simpa [Function.update_of_ne hid, hid] using h.counted id hd
      split
      · next hend =>
        refine hreleased.enqueueClose fun hd ↦ not_inUse ?_ ?_
        · refine hreleased.unused hd ?_
          simpa using hend.2
        · rintro ⟨other, ho, hne, ha⟩
          exact hgroup ⟨hend.1, by omega⟩ ⟨other, hsub ho, hne, ha⟩
      · exact hreleased

/-- `mark_end_single` of a session that no group uses. -/
theorem Idle.markEndSingle (h : Idle s)
    (hg : (s.refCounts session).getD 0 ≤ 0 → ¬ s.UsedByGroup session) :
    Idle (s.markEndSingle session) := by
  have hflagged : Idle { s with endFlags := s.endFlags.insert session } := ⟨h.counted, h.idle⟩
  unfold State.markEndSingle
  split
  · next hc => exact hflagged.enqueueClose fun hd ↦ not_inUse (h.unused hd hc) (hg hc)
  · exact hflagged

/-- `mark_end_single` of every member. -/
theorem Idle.markAll {members : List String} (h : Idle s) (hg : ∀ session ∈ members,
    (s.refCounts session).getD 0 ≤ 0 → ¬ s.UsedByGroup session) :
    Idle (members.foldl State.markEndSingle s) := by
  induction members generalizing s with
  | nil => exact h
  | cons member members ih =>
    have hnext := h.markEndSingle (hg member List.mem_cons_self)
    rw [List.foldl_cons]
    obtain ⟨_, _, _, he⟩ := markEndSingle_eq s member
    rw [he] at hnext ⊢
    exact ih hnext fun session hm ↦ hg session (List.mem_cons_of_mem _ hm)

/-- A removal makes no group larger. -/
theorem removeMember_subset (groups : List (String × List String)) :
    ((removeMember sessionId groups).lookup groupId).getD [] ⊆
      (groups.lookup groupId).getD [] := by
  induction groups with
  | nil => simp [removeMember]
  | cons group groups ih =>
    obtain ⟨name, members⟩ := group
    unfold removeMember
    by_cases hn : groupId = name
    · subst hn
      split
      · simpa using List.erase_subset
      · simp
    · have hb : (groupId == name) = false := by simpa using hn
      split
      · simp [List.lookup_cons, hb]
      · simpa [List.lookup_cons, hb] using ih

/-- `mark_end` of sessions that no group uses. -/
theorem Idle.markEnd (h : Idle s) (hg : ∀ session ∈ s.ended sessionId,
    (s.refCounts session).getD 0 ≤ 0 → ¬ s.UsedByGroup session) : Idle (s.markEnd sessionId) := by
  unfold State.markEnd
  split
  · exact h
  · split
    · next members hl => exact h.markAll fun session hm ↦ hg session (by simpa [State.ended, hl])
    · next hl =>
      have hsub : ∀ id, { s with groupSessions := removeMember sessionId s.groupSessions }.members
          id ⊆ s.members id := fun id ↦ removeMember_subset s.groupSessions
      have hremoved : Idle { s with groupSessions := removeMember sessionId s.groupSessions } :=
        ⟨h.counted, fun session hw hd hu ↦
          h.idle session hw hd (hu.mono rfl hsub (List.Subset.refl _))⟩
      refine hremoved.markEndSingle fun hc ⟨use, hu, hne, ha⟩ ↦ ?_
      exact hg sessionId (by simp [State.ended, hl]) hc
        ⟨use, hu, hne, ha.imp_right fun hm ↦ hsub _ hm⟩

/-- A lookup after an assignment. -/
theorem lookup_assign (key : String) (value : List String) (groups : List (String × List String)) :
    (assign key value groups).lookup groupId =
      if groupId = key then some value else groups.lookup groupId := by
  induction groups with
  | nil =>
    by_cases hk : groupId = key
    · simp [assign, hk]
    · have hb : (groupId == key) = false := by simpa using hk
      simp [assign, List.lookup_cons, hb, hk]
  | cons group groups ih =>
    obtain ⟨name, members⟩ := group
    unfold assign
    by_cases hn : name = key
    · subst hn
      by_cases hk : groupId = name
      · simp [hk]
      · have hb : (groupId == name) = false := by simpa using hk
        simp [List.lookup_cons, hb, hk]
    · by_cases hg : groupId = name
      · subst hg
        simp [hn]
      · have hb : (groupId == name) = false := by simpa using hg
        simpa [hn, List.lookup_cons, hb] using ih

/-- Registering one id creates its wrapper, or does nothing. -/
theorem registerOne_eq (s : State) (ids : List String) (userId : String) :
    ∃ new sessions created, s.registerOne ids userId = (new, { s with sessions, created }) ∧
      (∀ id wrapper, s.sessions id = some wrapper → sessions id = some wrapper) ∧
      ∀ id ∈ new, id ∈ ids ∨ id = userId := by
  unfold State.registerOne
  split
  · exact ⟨_, _, _, rfl, fun _ _ ↦ id, fun _ hm ↦ .inl hm⟩
  · next hnone =>
    refine ⟨_, _, _, rfl, fun id wrapper hs ↦ ?_, fun id hm ↦ by simpa using hm⟩
    have hne : id ≠ userId := by
      rintro rfl
      exact hnone (.inr (by simp [hs]))
    simpa [Function.update_of_ne hne] using hs

/-- Registering creates wrappers for some of the ids. -/
theorem registerAll_eq (s : State) (ids userIds : List String) :
    ∃ new sessions created, s.registerAll ids userIds = (new, { s with sessions, created }) ∧
      (∀ id wrapper, s.sessions id = some wrapper → sessions id = some wrapper) ∧
      ∀ id ∈ new, id ∈ ids ∨ id ∈ userIds := by
  induction userIds generalizing s ids with
  | nil => exact ⟨_, _, _, rfl, fun _ _ ↦ id, fun _ hm ↦ .inl hm⟩
  | cons userId userIds ih =>
    obtain ⟨one, before, count, ho, hkept, hone⟩ := registerOne_eq s ids userId
    obtain ⟨new, sessions, created, he, hlater, hnew⟩ :=
      ih { s with sessions := before, created := count } one
    refine ⟨new, sessions, created, ?_, fun id wrapper hs ↦ hlater _ _ (hkept _ _ hs),
      fun id hm ↦ ?_⟩
    · rw [State.registerAll, ho]
      exact he
    · rcases hnew id hm with hi | hi
      · rcases hone id hi with hi | rfl
        · exact .inl hi
        · exact .inr List.mem_cons_self
      · exact .inr (List.mem_cons_of_mem _ hi)

/-- `register_sessions_batch` that adds no waiting session to a group in use. -/
theorem Idle.registerSessionsBatch (h : Idle s) {userIds : List String}
    (hg : ∀ session ∈ userIds, session ∈ s.waiting →
      ¬ ∃ use ∈ s.uses, s.target use.sessionId = groupId) :
    Idle (s.registerSessionsBatch userIds groupId) := by
  unfold State.registerSessionsBatch
  split
  · exact h
  · obtain ⟨new, sessions, created, he, _, hids⟩ := registerAll_eq s [] userIds
    simp only [he]
    refine ⟨h.counted, fun session hw hd ⟨use, hu, ha⟩ ↦ ?_⟩
    by_cases hm : session ∈ new ∧ s.target use.sessionId = groupId
    · have hnew := (hids session hm.1).resolve_left List.not_mem_nil
      exact hg session hnew hw ⟨use, hu, hm.2⟩
    · refine h.idle session hw hd ⟨use, hu, ha.imp_right fun hmember ↦ ?_⟩
      rw [State.members, lookup_assign] at hmember
      split at hmember
      · next hk => exact absurd ⟨hmember, hk⟩ hm
      · exact hmember

/-- Steps that touch neither the acquires nor the groups, and queue no session. -/
theorem Idle.of_waiting (h : Idle s) {t : State} (hd : t.defaultSessionId = s.defaultSessionId)
    (hg : t.groupSessions = s.groupSessions) (hu : t.uses = s.uses)
    (hr : t.refCounts = s.refCounts) (hw : t.waiting ⊆ s.waiting) : Idle t := by
  refine ⟨fun id hid ↦ ?_, fun session hs hid hin ↦ ?_⟩
  · rw [hr, hu]
    exact h.counted id (by simpa [State.isDefault, hd] using hid)
  · refine h.idle session (hw hs) (by simpa [State.isDefault, hd] using hid) ?_
    exact hin.mono hd (fun id ↦ by simp [State.members, hg]) (by simp [hu])

/-- One event. -/
theorem Idle.step {event : Event} (h : Idle s) (hg : Undisturbed s event)
    (hs : s.step event = some t) : Idle t := by
  cases event with
  | acquire sessionId =>
    cases hs
    exact h.acquire hg
  | release sessionId =>
    cases hs
    exact h.release hg.1 hg.2
  | markEnd sessionId =>
    cases hs
    exact h.markEnd hg
  | getOrCreateSession sessionId choice =>
    cases hs
    unfold State.getOrCreateSession
    split
    · exact h
    · split
      · exact h
      · exact ⟨h.counted, h.idle⟩
  | registerSessionsBatch userIds groupId =>
    cases hs
    exact h.registerSessionsBatch hg
  | freeze =>
    cases hs
    exact ⟨h.counted, h.idle⟩
  | take =>
    simp only [State.step, State.take] at hs
    split at hs
    · next sessionId closeQueue hr hq =>
      cases hs
      refine h.of_waiting rfl rfl rfl rfl ?_
      simp [State.waiting, hr, hq]
    · cases hs
  | safeClose =>
    simp only [State.step, State.safeClose] at hs
    split at hs
    · split at hs <;> cases hs
      · exact h.of_waiting rfl rfl rfl rfl (by simp [State.waiting])
      · exact h.of_waiting rfl rfl rfl rfl (by simp [State.waiting, State.discard])
    · cases hs
  | closed =>
    simp only [State.step, State.closed] at hs
    split at hs
    · cases hs
      exact h.of_waiting rfl rfl rfl rfl (by simp [State.waiting, State.discard])
    · cases hs

/-- As long as the calls leave the sessions that wait to be closed alone, the reaper closes no
session that an acquire still addresses. -/
theorem never_closed_in_use (h : machine.Reach Undisturbed s) {wrapper : Nat}
    (hc : s.closes = some (session, wrapper)) : ¬ s.InUse session := by
  have hidle : Idle s := by
    refine h.invariant ?_ fun _ _ _ _ ih hg hs ↦ ih.step hg hs
    rintro s ⟨defaultSessionId, rfl⟩
    exact ⟨fun _ _ ↦ rfl, nofun⟩
  unfold State.closes at hc
  split at hc
  · next sessionId hr =>
    split at hc
    · cases hc
    · next hd =>
      obtain ⟨_, _, he⟩ := Option.map_eq_some_iff.mp hc
      cases he
      rw [Bool.or_eq_true, not_or] at hd
      exact hidle.idle _ (by simp [State.waiting, hr]) (by simpa using hd.2)
  · cases hc

/-- A session that is ended while in use, closed after its release and then created again. -/
def endedTwice : List Event :=
  [.acquire "a", .getOrCreateSession "a" 0, .markEnd "a", .release "a", .take, .safeClose, .closed,
    .acquire "a", .getOrCreateSession "a" 0, .release "a", .take]

/-- Its second close finds it unused. -/
theorem never_closed_in_use_endedTwice :
    ¬ ((machine.runIf Undisturbed (State.start "0") endedTwice).getD (State.start "0")).InUse "a" :=
  never_closed_in_use (.runIf endedTwice (.init ⟨"0", rfl⟩) rfl)
    (show _ = some ("a", 1) by decide)

/-- A group whose sessions are ended while a request holds the group. -/
def endedGroup : List Event :=
  [.registerSessionsBatch ["a", "b"] "g", .acquire "g", .markEnd "g", .take]

/-- The reaper closes a member under the request. -/
theorem group_closed_in_use : ¬ ∀ s, machine.Reachable s → ∀ session wrapper,
    s.closes = some (session, wrapper) → ¬ s.InUse session := by
  intro h
  have hreached : machine.Reachable
      ((machine.run (State.start "0") endedGroup).getD (State.start "0")) :=
    .run endedGroup (.init ⟨"0", rfl⟩) rfl
  exact h _ hreached "a" 0 (by decide) (by decide)

end ScrapyCffi.Sessions
