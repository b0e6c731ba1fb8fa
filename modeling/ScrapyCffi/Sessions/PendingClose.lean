import Mathlib.Data.List.Perm.Basic
import ScrapyCffi.Sessions.Closing

/-!
# Sessions that are offered to the reaper

Every ended session without references waits in the close queue of the manager, unless its id is
created anew under its old end flag, or while its last wrapper is being closed
(`scrapy_cffi/core/sessions.py:730–758,829–898`).
-/

namespace ScrapyCffi.Sessions

open ScrapyCffi.Base

/-- An ordinary id that is flagged ended and has no reference. -/
structure State.Finished (s : State) (sessionId : String) : Prop where
  ordinary : s.isDefault sessionId = false
  ended : sessionId ∈ s.endFlags
  unreferenced : s.count sessionId ≤ 0

/-- Every live session that is finished is pending. -/
def State.Offered (s : State) : Prop :=
  ∀ sessionId, (s.sessions sessionId).isSome = true → s.Finished sessionId →
    sessionId ∈ s.pendingCloseSet

/-- Nothing that is to be closed is lost: the close queue holds the pending ids, each once. -/
structure State.NoCloseLost (s : State) : Prop where
  offered : s.Offered
  queue : s.closeQueue.Perm s.pendingCloseSet
  once : s.closeQueue.Nodup

/-- The id whose wrapper is being closed. -/
def State.closing (s : State) : Option String :=
  match s.reaper with
  | .closing sessionId _ => some sessionId
  | _ => none

/-- The ids for which an event may create a session. -/
def State.mayCreate (s : State) : Event → List String
  | .getOrCreateSession sessionId choice => (s.resolve sessionId choice).toList
  | .registerSessionsBatch userIds _ => userIds
  | _ => []

/-- No session is created for a finished id that is not pending, and when a close is over, its id
has not been created anew and finished. -/
structure NotRevived (s : State) (event : Event) : Prop where
  created : ∀ sessionId ∈ s.mayCreate event, s.sessions sessionId = none →
    s.Finished sessionId → sessionId ∈ s.pendingCloseSet
  closed : event = .closed → ∀ sessionId ∈ s.closing,
    (s.sessions sessionId).isSome = true → ¬ s.Finished sessionId

instance (s : State) (sessionId : String) : Decidable (s.Finished sessionId) :=
  decidable_of_iff (s.isDefault sessionId = false ∧ sessionId ∈ s.endFlags ∧ s.count sessionId ≤ 0)
    ⟨fun ⟨ho, he, hu⟩ ↦ ⟨ho, he, hu⟩, fun ⟨ho, he, hu⟩ ↦ ⟨ho, he, hu⟩⟩

instance (s : State) (event : Event) : Decidable (NotRevived s event) :=
  decidable_of_iff ((∀ sessionId ∈ s.mayCreate event, s.sessions sessionId = none →
      s.Finished sessionId → sessionId ∈ s.pendingCloseSet) ∧
      (event = .closed → ∀ sessionId ∈ s.closing.toList,
        (s.sessions sessionId).isSome = true → ¬ s.Finished sessionId))
    ⟨fun ⟨hc, hd⟩ ↦ ⟨hc, by simpa using hd⟩, fun ⟨hc, hd⟩ ↦ ⟨hc, by simpa using hd⟩⟩

/-! ## The close queue -/

/-- The id that the reaper has taken from the queue. -/
def State.inHand (s : State) : List String :=
  match s.reaper with
  | .waiting => []
  | .taken sessionId | .closing sessionId _ => [sessionId]

/-- What is pending is in the queue or in the hands of the reaper, once. -/
structure State.Queued (s : State) : Prop where
  perm : (s.inHand ++ s.closeQueue).Perm s.pendingCloseSet
  once : (s.inHand ++ s.closeQueue).Nodup

variable {s t : State} {sessionId other groupId : String}

/-- A pending id is not queued again. -/
theorem State.Queued.enqueueClose (h : s.Queued) (sessionId : String) :
    (s.enqueueClose sessionId).Queued := by
  rw [State.enqueueClose]
  split
  · exact h
  · next hpending =>
    have hnew : sessionId ∉ s.inHand ++ s.closeQueue := fun hm ↦ hpending (h.perm.mem_iff.mp hm)
    have hperm : (s.inHand ++ (s.closeQueue ++ [sessionId])).Perm
        (sessionId :: (s.inHand ++ s.closeQueue)) := by
      rw [← List.append_assoc]
      exact List.perm_append_singleton _ _
    exact ⟨hperm.trans (h.perm.cons sessionId),
      hperm.nodup_iff.mpr (List.nodup_cons.mpr ⟨hnew, h.once⟩)⟩

/-- What is pending after an id is queued. -/
theorem mem_enqueueClose : other ∈ (s.enqueueClose sessionId).pendingCloseSet ↔
    other = sessionId ∨ other ∈ s.pendingCloseSet := by
  rw [State.enqueueClose]
  split
  · next hpending =>
    refine ⟨.inr, fun ho ↦ ?_⟩
    rcases ho with rfl | ho
    · exact hpending
    · exact ho
  · exact List.mem_cons

/-- A round of the reaper ends. -/
theorem State.Queued.discard (h : s.Queued) (hhand : s.inHand = [sessionId]) :
    (s.discard sessionId).Queued := by
  have hperm := h.perm
  have honce := h.once
  rw [hhand] at hperm honce
  refine ⟨?_, (List.nodup_cons.mp honce).2⟩
  have herase := hperm.erase sessionId
  rwa [List.singleton_append, List.erase_cons_head] at herase

/-! ## What one call offers -/

/-- What is known between two events. -/
structure State.Tended (s : State) : Prop where
  queued : s.Queued
  offered : s.frozen = false → s.Offered

/-- A session is queued that has become finished. -/
theorem State.Tended.enqueueFinished (hqueued : s.Queued)
    (hoffered : s.frozen = false → ∀ other, other ≠ sessionId →
      (s.sessions other).isSome = true → s.Finished other → other ∈ s.pendingCloseSet) :
    (s.enqueueClose sessionId).Tended := by
  refine ⟨hqueued.enqueueClose sessionId, fun hfrozen other hlive hfinished ↦ ?_⟩
  rw [mem_enqueueClose]
  obtain ⟨_, _, he⟩ := enqueueClose_eq s sessionId
  rw [he] at hfrozen hlive hfinished
  by_cases ho : other = sessionId
  · exact .inl ho
  · exact .inr (hoffered hfrozen other ho hlive ⟨hfinished.1, hfinished.2, hfinished.3⟩)

/-- `acquire`. -/
theorem State.Tended.acquire (h : s.Tended) (sessionId : String) : (s.acquire sessionId).Tended := by
  have hcount := fun other ↦ count_acquire s sessionId other
  obtain ⟨_, _, he⟩ := acquire_eq s sessionId
  rw [he] at hcount ⊢
  refine ⟨⟨h.queued.perm, h.queued.once⟩, fun hfrozen other hlive hfinished ↦ ?_⟩
  refine h.offered hfrozen other hlive ⟨hfinished.1, hfinished.2, ?_⟩
  have hle := hfinished.unreferenced
  rw [hcount other] at hle
  split at hle <;> omega

/-- `release`. -/
theorem State.Tended.release (h : s.Tended) (sessionId : String) : (s.release sessionId).Tended := by
  rw [State.release]
  split
  · exact ⟨⟨h.queued.perm, h.queued.once⟩, fun hfrozen other hlive hfinished ↦
      h.offered hfrozen other hlive ⟨hfinished.1, hfinished.2, hfinished.3⟩⟩
  · split
    · exact ⟨⟨h.queued.perm, h.queued.once⟩, fun hfrozen other hlive hfinished ↦
        h.offered hfrozen other hlive ⟨hfinished.1, hfinished.2, hfinished.3⟩⟩
    · next count hcount =>
      -- the counts of the other ids are as before
      have hothers : s.frozen = false → ∀ other, other ≠ sessionId →
          (s.sessions other).isSome = true →
          State.Finished { s with
            uses := s.uses.eraseP (·.sessionId = sessionId)
            refCounts := Function.update s.refCounts sessionId (some (count - 1)) } other →
          other ∈ s.pendingCloseSet := by
        intro hfrozen other ho hlive hfinished
        refine h.offered hfrozen other hlive ⟨hfinished.1, hfinished.2, ?_⟩
        have hle : (Function.update s.refCounts sessionId (some (count - 1)) other).getD 0 ≤ 0 :=
          hfinished.unreferenced
        rwa [Function.update_of_ne ho] at hle
      dsimp only
      split
      · exact .enqueueFinished ⟨h.queued.perm, h.queued.once⟩ hothers
      · next hnot =>
        refine ⟨⟨h.queued.perm, h.queued.once⟩, fun hfrozen other hlive hfinished ↦ ?_⟩
        by_cases ho : other = sessionId
        · subst ho
          refine absurd ⟨hfinished.ended, ?_⟩ hnot
          have hle : (Function.update s.refCounts other (some (count - 1)) other).getD 0 ≤ 0 :=
            hfinished.unreferenced
          rwa [Function.update_self, Option.getD_some] at hle
        · exact hothers hfrozen other ho hlive hfinished

/-- `mark_end_single`. -/
theorem State.Tended.markEndSingle (h : s.Tended) (sessionId : String) :
    (s.markEndSingle sessionId).Tended := by
  -- the flags of the other ids are as before
  have hothers : s.frozen = false → ∀ other, other ≠ sessionId →
      (s.sessions other).isSome = true →
      State.Finished { s with endFlags := s.endFlags.insert sessionId } other →
      other ∈ s.pendingCloseSet := by
    intro hfrozen other ho hlive hfinished
    refine h.offered hfrozen other hlive ⟨hfinished.1, ?_, hfinished.3⟩
    exact (List.mem_insert_iff.mp hfinished.ended).resolve_left ho
  rw [State.markEndSingle]
  split
  · exact .enqueueFinished ⟨h.queued.perm, h.queued.once⟩ hothers
  · next hnot =>
    refine ⟨⟨h.queued.perm, h.queued.once⟩, fun hfrozen other hlive hfinished ↦ ?_⟩
    by_cases ho : other = sessionId
    · subst ho
      exact absurd hfinished.unreferenced hnot
    · exact hothers hfrozen other ho hlive hfinished

/-- `mark_end`. -/
theorem State.Tended.markEnd (h : s.Tended) (sessionId : String) : (s.markEnd sessionId).Tended := by
  rw [State.markEnd]
  split
  · exact h
  · split
    · next members _ =>
      clear * - h
      induction members generalizing s with
      | nil => exact h
      | cons member members ih => exact ih (h.markEndSingle member)
    · refine State.Tended.markEndSingle ?_ sessionId
      exact ⟨⟨h.queued.perm, h.queued.once⟩, fun hfrozen other hlive hfinished ↦
        h.offered hfrozen other hlive ⟨hfinished.1, hfinished.2, hfinished.3⟩⟩

/-! ## Sessions that are created -/

/-- `register_sessions_batch` creates the sessions that are not there. -/
theorem isSome_registerAll (s : State) (ids userIds : List String) (hd : s.isDefault other = false) :
    ((s.registerAll ids userIds).2.sessions other).isSome = true ↔
      (s.sessions other).isSome = true ∨ other ∈ userIds := by
  induction userIds generalizing s ids with
  | nil => simp [State.registerAll]
  | cons userId userIds ih =>
    have hone : ((s.registerOne ids userId).2.sessions other).isSome = true ↔
        (s.sessions other).isSome = true ∨ other = userId := by
      rw [State.registerOne]
      split
      · next hthere =>
        refine ⟨.inl, fun ho ↦ ?_⟩
        rcases ho with ho | rfl
        · exact ho
        · rcases hthere with rfl | hthere
          · simp [State.isDefault] at hd
          · exact hthere
      · by_cases ho : other = userId
        · simp [ho]
        · simp [ho]
    have hdefault : (s.registerOne ids userId).2.isDefault other = false := by
      rw [State.registerOne]
      split <;> exact hd
    rw [State.registerAll, ih _ _ hdefault, hone, List.mem_cons, or_assoc]

/-- `get_or_create_session` creates the session that is not there. -/
theorem isSome_getOrCreateSession (s : State) (sessionId : String) (choice : Nat) :
    ((s.getOrCreateSession sessionId choice).2.sessions other).isSome = true ↔
      (s.sessions other).isSome = true ∨ s.resolve sessionId choice = some other := by
  rw [State.getOrCreateSession]
  split
  · next hnone => simp [hnone]
  · next concrete hconcrete =>
    rw [hconcrete, Option.some.injEq]
    split
    · next wrapper hwrapper =>
      refine ⟨.inl, fun ho ↦ ?_⟩
      rcases ho with ho | rfl
      · exact ho
      · rw [hwrapper]
        rfl
    · by_cases ho : other = concrete
      · simp [ho]
      · simp [ho, Ne.symm ho]

/-- What the creation of sessions leaves as it is, and which sessions are there after it. -/
structure Creates (s t : State) (created : List String) : Prop where
  isDefault : t.isDefault = s.isDefault
  endFlags : t.endFlags = s.endFlags
  refCounts : t.refCounts = s.refCounts
  closeQueue : t.closeQueue = s.closeQueue
  pendingCloseSet : t.pendingCloseSet = s.pendingCloseSet
  reaper : t.reaper = s.reaper
  frozen : t.frozen = s.frozen
  sessions : ∀ other, s.isDefault other = false →
    ((t.sessions other).isSome = true ↔ (s.sessions other).isSome = true ∨ other ∈ created)

/-- `get_or_create_session`. -/
theorem creates_getOrCreateSession (s : State) (sessionId : String) (choice : Nat) :
    Creates s (s.getOrCreateSession sessionId choice).2
      (s.mayCreate (.getOrCreateSession sessionId choice)) := by
  have hsome : ∀ other, ((s.getOrCreateSession sessionId choice).2.sessions other).isSome = true ↔
      (s.sessions other).isSome = true ∨ s.resolve sessionId choice = some other :=
    fun other ↦ isSome_getOrCreateSession s sessionId choice
  have hsessions : ∀ other, s.isDefault other = false →
      (((s.getOrCreateSession sessionId choice).2.sessions other).isSome = true ↔
        (s.sessions other).isSome = true ∨
          other ∈ s.mayCreate (.getOrCreateSession sessionId choice)) := by
    intro other _
    rw [hsome, State.mayCreate, Option.mem_toList]
  rw [State.getOrCreateSession] at hsessions ⊢
  split at hsessions
  · exact ⟨rfl, rfl, rfl, rfl, rfl, rfl, rfl, hsessions⟩
  · split at hsessions <;> exact ⟨rfl, rfl, rfl, rfl, rfl, rfl, rfl, hsessions⟩

/-- `register_sessions_batch`. -/
theorem creates_registerSessionsBatch (s : State) (userIds : List String) (groupId : String) :
    Creates s (s.registerSessionsBatch userIds groupId) userIds := by
  rw [State.registerSessionsBatch]
  split
  · next hnil =>
    subst hnil
    exact ⟨rfl, rfl, rfl, rfl, rfl, rfl, rfl, fun other _ ↦ by simp⟩
  · have hsome := fun other (hd : s.isDefault other = false) ↦
      isSome_registerAll s [] userIds hd
    obtain ⟨new, sessions, created, he, -⟩ := registerAll_eq s [] userIds
    rw [he] at hsome ⊢
    exact ⟨rfl, rfl, rfl, rfl, rfl, rfl, rfl, hsome⟩

/-- Whether the sessions that are created are pending if they are finished. -/
theorem Creates.offered_iff {created : List String} (h : Creates s t created) (hs : s.Offered) :
    t.Offered ↔ ∀ sessionId ∈ created, s.sessions sessionId = none →
      s.Finished sessionId → sessionId ∈ s.pendingCloseSet := by
  have hfinished : ∀ other, t.Finished other ↔ s.Finished other := by
    intro other
    have hcount : t.count other = s.count other := by rw [State.count, h.refCounts, State.count]
    exact ⟨fun hf ↦ ⟨h.isDefault ▸ hf.1, h.endFlags ▸ hf.2, hcount ▸ hf.3⟩,
      fun hf ↦ ⟨h.isDefault ▸ hf.1, h.endFlags ▸ hf.2, hcount ▸ hf.3⟩⟩
  refine ⟨fun ht other hother _ hf ↦ ?_, fun hnew other hlive hf ↦ ?_⟩
  · rw [← h.pendingCloseSet]
    exact ht other ((h.sessions other hf.ordinary).mpr (.inr hother)) ((hfinished other).mpr hf)
  · have hf := (hfinished other).mp hf
    rw [h.pendingCloseSet]
    cases hbefore : s.sessions other with
    | some wrapper => exact hs other (by rw [hbefore]; rfl) hf
    | none =>
      have hmem := ((h.sessions other hf.ordinary).mp hlive).resolve_left (by simp [hbefore])
      exact hnew other hmem hbefore hf

/-- The queue after sessions are created. -/
theorem Creates.queued {created : List String} (h : Creates s t created) (hs : s.Queued) :
    t.Queued := by
  have hhand : t.inHand = s.inHand := by rw [State.inHand, h.reaper, State.inHand]
  refine ⟨?_, ?_⟩
  · rw [hhand, h.closeQueue, h.pendingCloseSet]
    exact hs.perm
  · rw [hhand, h.closeQueue]
    exact hs.once

/-! ## Steps and runs -/

/-- An id that is discarded must not be that of a live session that is finished. -/
theorem offered_discard_iff (hqueued : s.Queued) (hoffered : s.Offered)
    (hhand : s.inHand = [sessionId]) : (s.discard sessionId).Offered ↔
      ((s.sessions sessionId).isSome = true → ¬ s.Finished sessionId) := by
  have hnodup : s.pendingCloseSet.Nodup := hqueued.perm.nodup_iff.mp hqueued.once
  refine ⟨fun ht hlive hf ↦ ?_, fun hid other hlive hf ↦ ?_⟩
  · have hpending : sessionId ∈ s.pendingCloseSet.erase sessionId :=
      ht sessionId hlive ⟨hf.1, hf.2, hf.3⟩
    exact (hnodup.mem_erase_iff.mp hpending).1 rfl
  · have hbefore : s.Finished other := ⟨hf.1, hf.2, hf.3⟩
    have hne : other ≠ sessionId := by
      rintro rfl
      exact hid hlive hbefore
    exact (List.mem_erase_of_ne hne).mpr (hoffered other hlive hbefore)

/-- Other events create and discard nothing. -/
theorem notRevived_of_ne {event : Event} (hcreate : s.mayCreate event = [])
    (hclosed : event ≠ .closed) : NotRevived s event where
  created sessionId hm := by
    rw [hcreate] at hm
    cases hm
  closed h := absurd h hclosed

/-- Sessions that are there as long as before stay offered. -/
theorem State.Tended.of_offered {event : Event} (ht : t.Tended) (hcreate : s.mayCreate event = [])
    (hclosed : event ≠ .closed) :
    t.Queued ∧ (t.frozen = false → (t.Offered ↔ NotRevived s event)) :=
  ⟨ht.queued, fun hfrozen ↦
    ⟨fun _ ↦ notRevived_of_ne hcreate hclosed, fun _ ↦ ht.offered hfrozen⟩⟩

/-- Sessions are created. -/
theorem Creates.step {e : Event} (h : Creates s t (s.mayCreate e)) (hs : s.Tended)
    (hclosed : e ≠ .closed) : t.Queued ∧ (t.frozen = false → (t.Offered ↔ NotRevived s e)) := by
  refine ⟨h.queued hs.queued, fun hfrozen ↦ ?_⟩
  rw [h.offered_iff (hs.offered (h.frozen ▸ hfrozen))]
  exact ⟨fun hnew ↦ ⟨hnew, fun heq ↦ absurd heq hclosed⟩, fun hg ↦ hg.created⟩

/-- The reaper takes an id from the queue. -/
theorem State.Tended.take (h : s.Tended) (hs : s.take = some t) : t.Tended := by
  rw [State.take] at hs
  split at hs
  · next sessionId closeQueue hreaper hqueue =>
    cases hs
    have hperm := h.queued.perm
    have honce := h.queued.once
    rw [State.inHand, hreaper, hqueue] at hperm honce
    exact ⟨⟨hperm, honce⟩, fun hfrozen other hlive hf ↦
      h.offered hfrozen other hlive ⟨hf.1, hf.2, hf.3⟩⟩
  · cases hs

/-- `_safe_close` begins. -/
theorem State.Tended.safeClose (h : s.Tended) (hs : s.safeClose = some t) : t.Tended := by
  rw [State.safeClose] at hs
  split at hs
  · next sessionId hreaper =>
    have hhand : s.inHand = [sessionId] := by rw [State.inHand, hreaper]
    split at hs
    · next wrapper _ =>
      cases hs
      have hperm := h.queued.perm
      have honce := h.queued.once
      rw [hhand] at hperm honce
      refine ⟨⟨hperm, honce⟩, fun hfrozen other hlive hf ↦ ?_⟩
      have hlive : (Function.update s.sessions sessionId none other).isSome = true := hlive
      have hne : other ≠ sessionId := by
        rintro rfl
        rw [Function.update_self] at hlive
        cases hlive
      rw [Function.update_of_ne hne] at hlive
      exact h.offered hfrozen other hlive ⟨hf.1, hf.2, hf.3⟩
    · next hcloses =>
      cases hs
      refine ⟨h.queued.discard hhand, fun hfrozen ↦ ?_⟩
      have hfrozen : s.frozen = false := hfrozen
      refine (offered_discard_iff h.queued (h.offered hfrozen) hhand).mpr fun hlive hf ↦ ?_
      -- an ordinary id that is live would have been closed
      rw [State.closes, hreaper] at hcloses
      dsimp only at hcloses
      rw [hfrozen, hf.ordinary, Bool.or_self, if_neg (by decide), Option.map_eq_none_iff] at hcloses
      rw [hcloses] at hlive
      cases hlive
  · cases hs

/-- A close is over. -/
theorem State.Tended.closed (h : s.Tended) (hs : s.closed = some t) :
    t.Queued ∧ (t.frozen = false → (t.Offered ↔ NotRevived s .closed)) := by
  rw [State.closed] at hs
  split at hs
  · next sessionId wrapper hreaper =>
    cases hs
    have hhand : s.inHand = [sessionId] := by rw [State.inHand, hreaper]
    have hclosing : s.closing = some sessionId := by rw [State.closing, hreaper]
    refine ⟨h.queued.discard hhand, fun hfrozen ↦ ?_⟩
    rw [offered_discard_iff h.queued (h.offered hfrozen) hhand]
    refine ⟨fun hid ↦ ⟨fun other hm ↦ (by cases hm), fun _ other hm ↦ ?_⟩, fun hg ↦ ?_⟩
    · rw [hclosing] at hm
      cases hm
      exact hid
    · exact hg.closed rfl sessionId hclosing
  · cases hs

/-- What one event keeps, and when it loses no session. -/
theorem State.Tended.step {event : Event} (h : s.Tended) (hs : s.step event = some t) :
    t.Queued ∧ (t.frozen = false → (t.Offered ↔ NotRevived s event)) := by
  cases event with
  | acquire sessionId =>
    cases hs
    exact (h.acquire sessionId).of_offered rfl (by intro he; cases he)
  | release sessionId =>
    cases hs
    exact (h.release sessionId).of_offered rfl (by intro he; cases he)
  | markEnd sessionId =>
    cases hs
    exact (h.markEnd sessionId).of_offered rfl (by intro he; cases he)
  | getOrCreateSession sessionId choice =>
    cases hs
    exact (creates_getOrCreateSession s sessionId choice).step h (by intro he; cases he)
  | registerSessionsBatch userIds groupId =>
    cases hs
    exact (creates_registerSessionsBatch s userIds groupId).step
      (e := .registerSessionsBatch userIds groupId) h (by intro he; cases he)
  | freeze =>
    cases hs
    exact ⟨⟨h.queued.perm, h.queued.once⟩, fun hfrozen ↦ by cases hfrozen⟩
  | take => exact (h.take hs).of_offered rfl (by intro he; cases he)
  | safeClose => exact (h.safeClose hs).of_offered rfl (by intro he; cases he)
  | closed => exact h.closed hs

/-- At first nothing is ended. -/
theorem tended_start (defaultSessionId : String) : (State.start defaultSessionId).Tended where
  queued := ⟨.nil, .nil⟩
  offered _ _ hlive := by cases hlive

/-- In every run in which no session is created for a finished id that is not pending, nor stays
when the close of its id is over and is finished, no close is lost; and it is these steps after
which a session is not offered. -/
theorem no_close_lost (h : machine.Reach NotRevived s) (hfrozen : s.frozen = false) :
    (s.reaper = .waiting → s.NoCloseLost) ∧ ∀ event t, machine.step s event = some t →
      t.frozen = false → (t.Offered ↔ NotRevived s event) := by
  have htended : s.Tended := by
    refine h.invariant ?_ fun s event t _ ih hg hs ↦ ?_
    · rintro s ⟨defaultSessionId, rfl⟩
      exact tended_start defaultSessionId
    · have hstep := ih.step hs
      exact ⟨hstep.1, fun hfrozen ↦ (hstep.2 hfrozen).mpr hg⟩
  refine ⟨fun hreaper ↦ ?_, fun event t hs ↦ (htended.step hs).2⟩
  have hperm := htended.queued.perm
  have honce := htended.queued.once
  rw [State.inHand, hreaper] at hperm honce
  exact ⟨htended.offered hfrozen, hperm, honce⟩

/-- A session that is ended while in use, and created again and used while it is closed. -/
def revivedInUse : List Event :=
  [.acquire "a", .getOrCreateSession "a" 0, .markEnd "a", .release "a", .take, .safeClose,
    .acquire "a", .getOrCreateSession "a" 0, .markEnd "a", .closed, .release "a"]

theorem no_close_lost_revivedInUse :
    ((machine.runIf NotRevived (State.start "0") revivedInUse).getD (State.start "0")).NoCloseLost :=
  (no_close_lost (.runIf revivedInUse (.init ⟨"0", rfl⟩) rfl) rfl).1 rfl

/-- A session that is created and ended again while its last wrapper is closed. -/
def endedWhileClosed : List Event :=
  [.getOrCreateSession "a" 0, .markEnd "a", .take, .safeClose, .getOrCreateSession "a" 0,
    .markEnd "a", .closed]

/-- It is not offered to the reaper. -/
theorem ended_session_lost : ¬ ∀ s, machine.Reachable s → s.frozen = false →
    s.reaper = .waiting → s.NoCloseLost := by
  intro h
  have hreached : machine.Reachable
      ((machine.run (State.start "0") endedWhileClosed).getD (State.start "0")) :=
    .run endedWhileClosed (.init ⟨"0", rfl⟩) rfl
  have hpending := (h _ hreached rfl rfl).offered "a" rfl ⟨by decide, by decide, by decide⟩
  exact absurd hpending (by decide)

end ScrapyCffi.Sessions
