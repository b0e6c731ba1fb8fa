import ScrapyCffi.Kafka.Client

/-!
# Acknowledging again after a failed commit

`ack_request` takes the completed front off the pending deque before it awaits the commit
(`infra/kafka/client.py:354–389`, called by `KafkaQueueRepository.ack`,
`repo/queue.py:149–160`). When the commit raises, the front is gone.
-/

namespace ScrapyCffi.Kafka

open ScrapyCffi.Base

/-- The awaited commit raises or is cancelled, and the offset lock is released. -/
def Client.commitFails (s : Client) : Option Client :=
  s.committing.map fun _ ↦ { s with committing := none }

/-- `ack_request`, whose commit fails, and `ack_request` of the same message up to its return or
its commit. -/
def Client.ackAgain (s : Client) (key : PendingKey) (offset : Nat) : Option Client :=
  ((s.ackRequest key offset).bind Client.commitFails).bind (·.ackRequest key offset)

/-- When the commit of an acknowledgement fails, the repeated acknowledgement attempts one that
covers the message. -/
def Client.CommitSurvives (s : Client) (key : PendingKey) (offset : Nat) : Prop :=
  ∀ t, s.ackAgain key offset = some t → ∃ position, t.committing = some (key, position) ∧
    offset < position

/-- The first entry is neither completed nor for this offset, so that an acknowledgement attempts
no commit. -/
def behind (offset : Nat) : List Entry → Bool
  | entry :: _ => !entry.2 && decide (entry.1 ≠ offset)
  | [] => false

/-- These entries begin with a lease of the offset, and those completed behind it do not end below
the offset. -/
def beginsWith (offset : Nat) : List Entry → Bool
  | entry :: rest => decide (entry.1 = offset) &&
      (rest.takeWhile (·.2)).getLast?.all fun last ↦ decide (offset ≤ last.1)
  | [] => false

/-- The offset is leased once more directly behind the completed front. -/
def leasedAgain (offset : Nat) : List Entry → Bool
  | entry :: rest =>
    if entry.1 = offset then beginsWith offset (rest.dropWhile (·.2))
    else entry.2 && leasedAgain offset rest
  | [] => false

/-! ## One acknowledgement -/

variable {pending before after more rest : List Entry} {offset : Nat} {marked : Bool}

/-- The position that a commit of these entries reports. -/
def position (completed : List Entry) : Option Nat := completed.getLast?.map (·.1 + 1)

/-- The completed front is popped, and the position after its last entry is kept. -/
theorem popCompleted_eq (pending : List Entry) (commitOffset : Option Nat) :
    popCompleted commitOffset pending =
      ((position (pending.takeWhile (·.2))).or commitOffset, pending.dropWhile (·.2)) := by
  induction pending generalizing commitOffset with
  | nil => rfl
  | cons entry pending ih =>
    obtain ⟨offset, completed⟩ := entry
    cases completed with
    | false => rfl
    | true =>
      rw [popCompleted, if_pos rfl, ih]
      simp only [position, List.takeWhile_cons, List.dropWhile_cons, if_true, List.getLast?_cons]
      cases (pending.takeWhile (·.2)).getLast? <;> rfl

/-- An offset that is not leased is not found. -/
theorem markOffset_eq_none (h : ∀ entry ∈ pending, entry.1 ≠ offset) :
    markOffset offset pending = none := by
  induction pending with
  | nil => rfl
  | cons entry pending ih =>
    rw [markOffset, if_neg (h entry List.mem_cons_self),
      ih fun other ho ↦ h other (List.mem_cons_of_mem _ ho), Option.map_none]

/-- The first lease of an offset is marked. -/
theorem markOffset_append (h : ∀ entry ∈ before, entry.1 ≠ offset) :
    markOffset offset (before ++ (offset, marked) :: after) =
      some (before ++ (offset, true) :: after) := by
  induction before with
  | nil => rw [List.nil_append, markOffset, if_pos rfl, List.nil_append]
  | cons entry before ih =>
    rw [List.cons_append, markOffset, if_neg (h entry List.mem_cons_self),
      ih fun other ho ↦ h other (List.mem_cons_of_mem _ ho), Option.map_some, List.cons_append]

/-- A leased offset has a first lease. -/
theorem exists_first_lease (h : ∃ entry ∈ pending, entry.1 = offset) :
    ∃ before marked after, pending = before ++ (offset, marked) :: after ∧
      ∀ entry ∈ before, entry.1 ≠ offset := by
  induction pending with
  | nil =>
    obtain ⟨_, hm, -⟩ := h
    cases hm
  | cons entry pending ih =>
    by_cases he : entry.1 = offset
    · subst he
      exact ⟨[], entry.2, pending, rfl, fun _ hm ↦ by cases hm⟩
    · obtain ⟨found, hm, hf⟩ := h
      have hm : found ∈ pending := by
        rcases List.mem_cons.mp hm with rfl | hm
        · exact absurd hf he
        · exact hm
      obtain ⟨before, marked, after, rfl, hbefore⟩ := ih ⟨found, hm, hf⟩
      refine ⟨entry :: before, marked, after, rfl, fun other ho ↦ ?_⟩
      rcases List.mem_cons.mp ho with rfl | ho
      · exact he
      · exact hbefore other ho

/-- What an acknowledgement commits, and what it leaves in the deque. -/
structure Acknowledges (pendingOffsets : PendingOffsets) (key : PendingKey) (offset : Nat)
    (popped rest : List Entry) : Prop where
  commit : (ackPending pendingOffsets key offset).commitOffset = position popped
  pending : ((ackPending pendingOffsets key offset).pendingOffsets key).getD [] = rest

/-- An acknowledgement of a leased offset. -/
theorem acknowledges_append {pendingOffsets : PendingOffsets} {key : PendingKey}
    (hpending : (pendingOffsets key).getD [] = before ++ (offset, marked) :: after)
    (hbefore : ∀ entry ∈ before, entry.1 ≠ offset) :
    Acknowledges pendingOffsets key offset
      ((before ++ (offset, true) :: after).takeWhile (·.2))
      ((before ++ (offset, true) :: after).dropWhile (·.2)) := by
  have hack : ackPending pendingOffsets key offset =
      ⟨true, Function.update pendingOffsets key
        (if (before ++ (offset, true) :: after).dropWhile (·.2) = [] then none
          else some ((before ++ (offset, true) :: after).dropWhile (·.2))),
        position ((before ++ (offset, true) :: after).takeWhile (·.2))⟩ := by
    rw [ackPending, hpending]
    split
    · next hnil => simp at hnil
    · rw [markOffset_append hbefore]
      simp only [popCompleted_eq, Option.or_none]
  refine ⟨?_, ?_⟩
  · rw [hack]
  · rw [hack]
    simp only [Function.update_self]
    split
    · next hnil =>
      rw [hnil]
      rfl
    · rfl

/-- An acknowledgement of an offset that is not leased. -/
theorem acknowledges_missing {pendingOffsets : PendingOffsets} {key : PendingKey}
    (h : ∀ entry ∈ (pendingOffsets key).getD [], entry.1 ≠ offset) :
    Acknowledges pendingOffsets key offset [] ((pendingOffsets key).getD []) := by
  have hack : ackPending pendingOffsets key offset = ⟨false, pendingOffsets, none⟩ := by
    rw [ackPending]
    split
    · rfl
    · rw [markOffset_eq_none h]
  refine ⟨?_, ?_⟩
  · rw [hack]
    rfl
  · rw [hack]

/-! ## The repeated acknowledgement -/

variable {s : Client} {key : PendingKey} {popped popped' : List Entry}

/-- A commit is attempted by the repeated acknowledgement for what it pops. -/
theorem commitSurvives_iff_popped (hconsumer : s.consumers key.toConsumerKey = true)
    (hidle : s.committing = none)
    (hfirst : Acknowledges s.pendingOffsets key offset popped rest)
    (hsecond : Acknowledges (ackPending s.pendingOffsets key offset).pendingOffsets key offset
      popped' after) :
    s.CommitSurvives key offset ↔ popped = [] ∨ ∃ last ∈ popped'.getLast?, offset ≤ last.1 := by
  have hrequest : ∀ u : Client, u.consumers key.toConsumerKey = true → u.committing = none →
      ∃ acked, u.ackRequest key offset = some { u with
        pendingOffsets := (ackPending u.pendingOffsets key offset).pendingOffsets
        committing := (ackPending u.pendingOffsets key offset).commitOffset.map (key, ·)
        acked } := by
    intro u hu hfree
    refine ⟨if offset ∈ u.leased key then record u.acked key offset else u.acked, ?_⟩
    rw [Client.ackRequest, if_neg (by rw [hu]; decide), if_neg (not_not.mpr hfree)]
  obtain ⟨acked, ht⟩ := hrequest s hconsumer hidle
  rw [Client.CommitSurvives, Client.ackAgain, ht, Option.bind_some, Client.commitFails,
    hfirst.commit]
  cases hpopped : popped.getLast? with
  | none =>
    have hnil : popped = [] := List.getLast?_eq_none_iff.mp hpopped
    simp [position, hnil]
  | some last =>
    have hne : popped ≠ [] := by
      rintro rfl
      cases hpopped
    simp only [position, hpopped, Option.map_some, Option.bind_some, hne, false_or]
    obtain ⟨acked', hu⟩ := hrequest { s with
      pendingOffsets := (ackPending s.pendingOffsets key offset).pendingOffsets
      committing := none
      acked } hconsumer rfl
    rw [hu]
    dsimp only
    rw [hsecond.commit]
    constructor
    · intro h
      obtain ⟨reported, hcommitting, hlt⟩ := h _ rfl
      cases hpopped' : popped'.getLast? with
      | none =>
        simp [position, hpopped'] at hcommitting
      | some last' =>
        simp only [position, hpopped', Option.map_some, Option.some.injEq, Prod.mk.injEq,
          true_and] at hcommitting
        exact ⟨last', rfl, by omega⟩
    · rintro ⟨last', hlast', hle⟩ _ ⟨rfl⟩
      have hlast' : popped'.getLast? = some last' := hlast'
      refine ⟨last'.1 + 1, ?_, Nat.lt_succ_of_le hle⟩
      simp only [position, hlast', Option.map_some]

/-- Behind the first lease of the offset. -/
theorem leasedAgain_append (hbefore : ∀ entry ∈ before, entry.1 ≠ offset) :
    leasedAgain offset (before ++ (offset, marked) :: after) =
      (before.all (·.2) && beginsWith offset (after.dropWhile (·.2))) := by
  induction before with
  | nil => rw [List.nil_append, leasedAgain, if_pos rfl, List.all_nil, Bool.true_and]
  | cons entry before ih =>
    rw [List.cons_append, leasedAgain, if_neg (hbefore entry List.mem_cons_self),
      ih fun other ho ↦ hbefore other (List.mem_cons_of_mem _ ho), List.all_cons, Bool.and_assoc]

/-- The first entry that is left is not completed. -/
theorem not_completed_of_dropWhile {entry : Entry}
    (h : pending.dropWhile (·.2) = entry :: rest) : entry.2 = false := by
  have hhead := List.head?_dropWhile_not (·.2) pending
  rw [h] at hhead
  simpa using hhead

/-- The last of the entries that begin with a completed one. -/
theorem last_cons (entry : Entry) (rest : List Entry) (offset : Nat) (he : entry.1 = offset) :
    (∃ last ∈ (entry :: rest).getLast?, offset ≤ last.1) ↔
      (rest.getLast?.all fun last ↦ decide (offset ≤ last.1)) = true := by
  rw [List.getLast?_cons]
  cases rest.getLast? with
  | none => simp [he]
  | some last => simp

variable (offset) in
/-- What the repeated acknowledgement pops of the entries that are left. -/
theorem popped_again_iff {pendingOffsets : PendingOffsets}
    (hrest : (pendingOffsets key).getD [] = rest) (hfirst : ∀ entry ∈ rest.head?, entry.2 = false) :
    ∃ popped after, Acknowledges pendingOffsets key offset popped after ∧
      ((∃ last ∈ popped.getLast?, offset ≤ last.1) ↔ beginsWith offset rest = true) := by
  by_cases hleased : ∃ entry ∈ rest, entry.1 = offset
  · obtain ⟨before, marked, after, rfl, hbefore⟩ := exists_first_lease hleased
    refine ⟨_, _, acknowledges_append hrest hbefore, ?_⟩
    cases before with
    | nil =>
      rw [List.nil_append, List.nil_append, List.takeWhile_cons, if_pos rfl,
        last_cons (offset, true) _ offset rfl, beginsWith]
      simp
    | cons entry before =>
      have hne := hbefore entry List.mem_cons_self
      have hcompleted : entry.2 = false := hfirst entry rfl
      simp [beginsWith, hne, hcompleted]
  · have hmissing : ∀ entry ∈ rest, entry.1 ≠ offset := fun entry hm he ↦ hleased ⟨entry, hm, he⟩
    refine ⟨[], _, acknowledges_missing (hrest ▸ hmissing), ?_⟩
    cases rest with
    | nil => simp [beginsWith]
    | cons entry rest =>
      have hne := hmissing entry List.mem_cons_self
      simp [beginsWith, hne]

variable (after) in
/-- What is left begins with the first entry that is not completed. -/
theorem dropWhile_append_of_not_all (h : before.all (·.2) = false) :
    ∃ entry rest, entry ∈ before ∧ (before ++ after).dropWhile (·.2) = entry :: rest := by
  induction before with
  | nil => cases h
  | cons entry before ih =>
    rw [List.cons_append, List.dropWhile_cons]
    cases hcompleted : entry.2 with
    | false => exact ⟨entry, before ++ after, List.mem_cons_self, by simp⟩
    | true =>
      rw [List.all_cons, hcompleted, Bool.true_and] at h
      obtain ⟨first, rest, hm, hdrop⟩ := ih h
      exact ⟨first, rest, List.mem_cons_of_mem _ hm, by simpa using hdrop⟩

/-- An acknowledgement pops nothing when it stands behind an entry that is not completed. -/
theorem takeWhile_eq_nil_iff_behind (hbefore : ∀ entry ∈ before, entry.1 ≠ offset) :
    (before ++ (offset, true) :: after).takeWhile (·.2) = [] ↔
      behind offset (before ++ (offset, marked) :: after) = true := by
  cases before with
  | nil => simp [behind]
  | cons entry before =>
    have hne := hbefore entry List.mem_cons_self
    cases hcompleted : entry.2 <;> simp [behind, hcompleted, hne]

/-- A deque that holds each offset once never does. -/
theorem leasedAgain_eq_false (h : (pending.map Prod.fst).Nodup) :
    leasedAgain offset pending = false := by
  induction pending with
  | nil => rfl
  | cons entry pending ih =>
    obtain ⟨hnew, hrest⟩ := List.nodup_cons.mp h
    rw [leasedAgain]
    split
    · next he =>
      subst he
      cases hdrop : pending.dropWhile (·.2) with
      | nil => rfl
      | cons first rest =>
        have hm : first ∈ pending := List.dropWhile_sublist _ |>.subset (hdrop ▸ List.mem_cons_self)
        have hne : first.1 ≠ entry.1 := fun he ↦ hnew (he ▸ List.mem_map_of_mem hm)
        simp [beginsWith, hne]
    · rw [ih hrest, Bool.and_false]

/-- An acknowledgement whose commit fails can be repeated exactly when it attempts no commit, or
when the same offset is leased again directly behind what it completes. -/
theorem commit_survives_iff (hconsumer : s.consumers key.toConsumerKey = true)
    (hidle : s.committing = none)
    (hleased : ∃ entry ∈ (s.pendingOffsets key).getD [], entry.1 = offset) :
    s.CommitSurvives key offset ↔ behind offset ((s.pendingOffsets key).getD []) = true ∨
      leasedAgain offset ((s.pendingOffsets key).getD []) = true := by
  obtain ⟨before, marked, after, hpending, hbefore⟩ := exists_first_lease hleased
  have hfirst := acknowledges_append hpending hbefore
  obtain ⟨popped', after', hsecond, hagain⟩ := popped_again_iff offset hfirst.pending
    fun entry hentry ↦ by
      obtain ⟨rest, hrest⟩ := List.head?_eq_some_iff.mp hentry
      exact not_completed_of_dropWhile hrest
  rw [commitSurvives_iff_popped hconsumer hidle hfirst hsecond, hagain, hpending,
    leasedAgain_append hbefore, takeWhile_eq_nil_iff_behind hbefore]
  refine or_congr_right ?_
  cases hall : before.all (·.2) with
  | true =>
    rw [List.dropWhile_append_of_pos (by simpa using hall), Bool.true_and]
    simp
  | false =>
    obtain ⟨entry, rest, hm, hdrop⟩ := dropWhile_append_of_not_all ((offset, true) :: after)
      hall
    rw [hdrop, beginsWith]
    simp [hbefore entry hm]

/-- Partition 0 of a topic. -/
def firstPartition : PendingKey := ⟨⟨"requests", "crawler"⟩, 0⟩

/-- A client whose consumer was given the offset 5 twice. -/
def deliveredTwice : Client :=
  { Client.start with
    consumers := fun _ ↦ true
    pendingOffsets := fun _ ↦ some [(5, false), (5, false)] }

theorem commit_survives_deliveredTwice : deliveredTwice.CommitSurvives firstPartition 5 ↔
    behind 5 [(5, false), (5, false)] = true ∨ leasedAgain 5 [(5, false), (5, false)] = true :=
  commit_survives_iff (s := deliveredTwice) rfl rfl
    ⟨(5, false), List.mem_cons_self, rfl⟩

/-- One offset is delivered and leased. -/
def oneLease : List Event :=
  [.consumer firstPartition.toConsumerKey, .getone firstPartition.toConsumerKey 0 5,
    .lease firstPartition.toConsumerKey]

/-- After its commit has failed, the repeated acknowledgement finds nothing pending. -/
theorem failed_commit_lost : ¬ ∀ (s : Client) (key : PendingKey) (offset : Nat),
    machine.Reachable s → s.consumers key.toConsumerKey = true → s.committing = none →
    (∃ entry ∈ (s.pendingOffsets key).getD [], entry.1 = offset) →
    s.CommitSurvives key offset := by
  intro h
  have hreached : machine.Reachable ((machine.run Client.start oneLease).getD Client.start) :=
    .run oneLease (.init rfl) rfl
  obtain ⟨position, hcommitting, -⟩ := h _ firstPartition 5 hreached rfl rfl
    ⟨(5, false), List.mem_cons_self, rfl⟩ _ rfl
  cases hcommitting

end ScrapyCffi.Kafka
