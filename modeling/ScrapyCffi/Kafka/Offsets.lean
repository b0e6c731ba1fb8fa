import ScrapyCffi.Base.AckWindow
import ScrapyCffi.Kafka.Client

/-!
# Kafka commits are safe

The pending deque of a partition is the acknowledgement window of its leased offsets, so the
commit positions are those of its settled prefix. `Accounts` states this for every key at
once; each event of the client has one lemma saying what it does to the accounts.
-/

namespace ScrapyCffi.Kafka

open ScrapyCffi.Base

/-! ### The deque is a window -/

/-- Marking an offset of a duplicate-free deque completes exactly that entry. -/
theorem markOffset_map (done : Nat → Bool) (offset : Nat) {pending : List Nat}
    (hn : pending.Nodup) :
    markOffset offset (pending.map fun o ↦ (o, done o)) =
      if offset ∈ pending then some (pending.map fun o ↦ (o, done o || o == offset)) else none := by
  induction pending with
  | nil => rfl
  | cons first rest ih =>
    obtain ⟨hfirst, hrest⟩ := List.nodup_cons.mp hn
    simp only [List.map_cons, markOffset, List.mem_cons]
    by_cases he : first = offset
    · subst he
      have hother : ∀ o ∈ rest, (o == first) = false := by
        intro o ho
        simpa using fun h : o = first ↦ hfirst (h ▸ ho)
      simp only [↓reduceIte, true_or, Option.some.injEq, List.cons.injEq, beq_self_eq_true,
        Bool.or_true, true_and]
      exact List.map_congr_left fun o ho ↦ by simp [hother o ho]
    · have hne : ¬offset = first := fun h ↦ he h.symm
      rw [ih hrest]
      by_cases hm : offset ∈ rest <;> simp [he, hne, hm]

/-- Popping takes the completed front and keeps the position after its last offset. -/
theorem popCompleted_map (done : Nat → Bool) (pending : List Nat) (commitOffset : Option Nat) :
    popCompleted commitOffset (pending.map fun o ↦ (o, done o)) =
      (((pending.takeWhile done).getLast?.map (· + 1)).or commitOffset,
        (pending.dropWhile done).map fun o ↦ (o, done o)) := by
  induction pending generalizing commitOffset with
  | nil => rfl
  | cons first rest ih =>
    simp only [List.map_cons, popCompleted, List.takeWhile_cons, List.dropWhile_cons]
    by_cases hd : done first = true
    · simp only [hd, ↓reduceIte, ih, List.getLast?_cons]
      cases (rest.takeWhile done).getLast? <;> simp
    · simp [hd]

/-- Only the acknowledged key's deque is written. -/
theorem ackPending_of_ne (pendingOffsets : PendingOffsets) {key other : PendingKey}
    (h : other ≠ key) (offset : Nat) :
    (ackPending pendingOffsets key offset).pendingOffsets other = pendingOffsets other := by
  unfold ackPending
  split
  · rfl
  · split
    · rfl
    · exact Function.update_of_ne h _ _

/-- An offset outside the pending deque changes nothing. -/
theorem ackPending_absent (done : Nat → Bool) {pending : List Nat} (hn : pending.Nodup)
    (pendingOffsets : PendingOffsets) (key : PendingKey) {offset : Nat}
    (hp : (pendingOffsets key).getD [] = pending.map fun o ↦ (o, done o)) (hm : offset ∉ pending) :
    ackPending pendingOffsets key offset = ⟨false, pendingOffsets, none⟩ := by
  have hmark := markOffset_map done offset hn
  rw [if_neg hm] at hmark
  unfold ackPending
  rw [hp]
  split
  · rfl
  · rw [hmark]

/-- A pending offset is marked, and the completed front of the deque is popped. -/
theorem ackPending_present (done : Nat → Bool) {pending : List Nat} (hn : pending.Nodup)
    (pendingOffsets : PendingOffsets) (key : PendingKey) {offset : Nat}
    (hp : (pendingOffsets key).getD [] = pending.map fun o ↦ (o, done o)) (hm : offset ∈ pending) :
    let done' := fun o ↦ done o || o == offset
    let result := ackPending pendingOffsets key offset
    (result.pendingOffsets key).getD [] = (pending.dropWhile done').map (fun o ↦ (o, done' o)) ∧
      result.commitOffset = (pending.takeWhile done').getLast?.map (· + 1) := by
  intro done' result
  have hmark := markOffset_map done offset hn
  rw [if_pos hm] at hmark
  have hpop := popCompleted_map done' pending none
  have hresult : result = ackPending pendingOffsets key offset := rfl
  unfold ackPending at hresult
  rw [hp] at hresult
  split at hresult
  · next hnil =>
    rw [List.map_eq_nil_iff.mp hnil] at hm
    cases hm
  · rw [hmark] at hresult
    change popCompleted none (pending.map fun o ↦ (o, done o || o == offset)) = _ at hpop
    simp only [hpop, Option.or_none] at hresult
    rw [hresult]
    refine ⟨?_, rfl⟩
    simp only [Function.update_self]
    split
    · next hnil => simp [hnil]
    · rfl

/-- On the window of the leased offsets, an acknowledgement moves the window to the enlarged
completed set, and commits the position after the last offset this settles. -/
theorem ackPending_window (done : Nat → Bool) {leased : List Nat} (hn : leased.Nodup)
    (pendingOffsets : PendingOffsets) (key : PendingKey) (offset : Nat)
    (hp : (pendingOffsets key).getD [] = window done leased) :
    let done' := fun o ↦ done o || (o == offset && decide (offset ∈ leased))
    let result := ackPending pendingOffsets key offset
    (result.pendingOffsets key).getD [] = window done' leased ∧
      ∃ popped, settled done' leased = settled done leased ++ popped ∧
        result.commitOffset = popped.getLast?.map (· + 1) := by
  intro done' result
  have hnodup : (leased.dropWhile done).Nodup := hn.sublist (List.dropWhile_sublist done)
  by_cases hm : offset ∈ leased.dropWhile done
  · have hleased : offset ∈ leased := (List.dropWhile_sublist done).subset hm
    have hdone : done' = fun o ↦ done o || o == offset := by
      funext o
      simp [done', hleased]
    have hle : ∀ o, done o = true → done' o = true := fun o ho ↦ by simp [done', ho]
    obtain ⟨hpending, hcommit⟩ :=
      ackPending_present done hnodup pendingOffsets key hp hm
    rw [← hdone] at hpending hcommit
    refine ⟨?_, _, settled_of_le hle leased, hcommit⟩
    rw [hpending, dropWhile_of_le hle, window]
  · have hdone : done' = done := by
      funext o
      by_cases ho : o = offset
      · subst ho
        by_cases hleased : o ∈ leased
        · have hsettled : o ∈ settled done leased :=
            (mem_settled_or_window done hleased).resolve_right fun hw ↦ by
              simp only [window, List.mem_map, Prod.mk.injEq] at hw
              obtain ⟨o', ho', rfl, -⟩ := hw
              exact hm ho'
          simp [done', done_of_mem_settled hsettled]
        · simp [done', hleased]
      · simp [done', ho]
    have hresult : result = ⟨false, pendingOffsets, none⟩ :=
      ackPending_absent done hnodup pendingOffsets key hp hm
    rw [hresult, hdone]
    exact ⟨hp, [], by simp, rfl⟩

/-! ### The account of one partition -/

/-- Membership of an acknowledged offset. -/
def completed (acked : List Nat) (offset : Nat) : Bool := decide (offset ∈ acked)

/-- What holds of one key: `positions` are its committed positions in order, with the one
being committed last. -/
structure Account (pending : List Entry) (leased unleased delivered acked positions : List Nat) :
    Prop where
  deque : pending = window (completed acked) leased
  history : delivered = leased ++ unleased
  increasing : delivered.Pairwise (· < ·)
  leases : ∀ o ∈ acked, o ∈ leased
  last : positions.getLast? =
    (settled (completed acked) leased).getLast?.map (· + 1)
  rising : positions.Pairwise (· < ·)
  covered : ∀ c ∈ positions, ∃ o ∈ settled (completed acked) leased, c = o + 1

section

variable {pending : List Entry} {leased unleased delivered acked positions : List Nat}

/-- No history. -/
theorem Account.nil : Account [] [] [] [] [] [] := by
  constructor <;> simp [window, settled]

/-- Leased offsets increase. -/
theorem Account.leased_increasing
    (h : Account pending leased unleased delivered acked positions) : leased.Pairwise (· < ·) := by
  have := h.increasing
  rw [h.history] at this
  exact (List.pairwise_append.mp this).1

/-- A delivered record is held back until it is leased. -/
theorem Account.getone (h : Account pending leased [] delivered acked positions) {offset : Nat}
    (ho : ∀ earlier ∈ delivered, earlier < offset) :
    Account pending leased [offset] (delivered ++ [offset]) acked positions where
  deque := h.deque
  history := by simp [h.history]
  increasing := List.pairwise_append.mpr
    ⟨h.increasing, List.pairwise_singleton _ _, fun e he _ ho' ↦ by simp_all⟩
  leases := h.leases
  last := h.last
  rising := h.rising
  covered := h.covered

/-- A fresh lease enters the window unmarked. -/
theorem Account.lease {offset : Nat}
    (h : Account pending leased [offset] delivered acked positions) :
    Account (pending ++ [(offset, false)]) (leased ++ [offset]) [] delivered acked positions := by
  have hfresh : completed acked offset = false := by
    have hsorted := h.increasing
    rw [h.history] at hsorted
    have hlt := (List.pairwise_append.mp hsorted).2.2
    rw [completed, decide_eq_false_iff_not]
    exact fun hm ↦ Nat.lt_irrefl offset (hlt offset (h.leases offset hm) offset (by simp))
  exact
    { deque := by rw [h.deque, window_concat hfresh]
      history := by simp [h.history]
      increasing := h.increasing
      leases := fun o ho ↦ List.mem_append_left _ (h.leases o ho)
      last := by rw [settled_concat hfresh, h.last]
      rising := h.rising
      covered := by simpa only [settled_concat hfresh] using h.covered }

/-- Newly settled offsets are reported by one position past all earlier ones. -/
theorem Account.settle (h : Account pending leased unleased delivered acked positions)
    {acked' popped : List Nat} (ha : ∀ o ∈ acked', o ∈ leased)
    (hs : settled (completed acked') leased =
      settled (completed acked) leased ++ popped) :
    Account (window (completed acked') leased) leased unleased delivered acked'
      (positions ++ (popped.getLast?.map (· + 1)).toList) := by
  have hsorted : (settled (completed acked) leased ++ popped).Pairwise (· < ·) := by
    rw [← hs]
    exact h.leased_increasing.sublist (settled_initial _ _).sublist
  cases hl : popped.getLast? with
  | none =>
    have hnil : popped = [] := List.getLast?_eq_none_iff.mp hl
    subst hnil
    rw [List.append_nil] at hs
    simp only [Option.map_none, Option.toList_none, List.append_nil]
    exact { h with deque := rfl, leases := ha, last := by rw [hs, h.last],
                   covered := by simpa only [hs] using h.covered }
  | some newest =>
    have hnewest : newest ∈ popped := List.mem_of_getLast? hl
    have hpast : ∀ c ∈ positions, c < newest + 1 := by
      intro c hc
      obtain ⟨o, ho, rfl⟩ := h.covered c hc
      have := (List.pairwise_append.mp hsorted).2.2 o ho newest hnewest
      omega
    simp only [Option.map_some, Option.toList_some]
    exact
      { deque := rfl
        history := h.history
        increasing := h.increasing
        leases := ha
        last := by simp [hs, List.getLast?_append, hl]
        rising := List.pairwise_append.mpr
          ⟨h.rising, List.pairwise_singleton _ _, fun c hc _ hn ↦ by simp_all⟩
        covered := by
          intro c hc
          rw [hs]
          rcases List.mem_append.mp hc with hold | hnew
          · obtain ⟨o, ho, he⟩ := h.covered c hold
            exact ⟨o, List.mem_append_left _ ho, he⟩
          · exact ⟨newest, List.mem_append_right _ hnewest, by simpa using hnew⟩ }

/-- Below a position everything leased is acknowledged. -/
theorem Account.acked_of_lt (h : Account pending leased unleased delivered acked positions)
    {c o : Nat} (hc : c ∈ positions) (ho : o ∈ leased) (hlt : o < c) : o ∈ acked := by
  obtain ⟨newest, hn, rfl⟩ := h.covered c hc
  obtain hs | hw := mem_settled_or_window (completed acked) ho
  · simpa [completed] using done_of_mem_settled hs
  · simp only [window, List.mem_map, Prod.mk.injEq] at hw
    obtain ⟨o', ho', rfl, -⟩ := hw
    have hsplit := h.leased_increasing
    rw [← List.takeWhile_append_dropWhile (p := completed acked) (l := leased)]
      at hsplit
    have := (List.pairwise_append.mp hsplit).2.2 newest hn o' ho'
    omega

/-- Once everything leased is acknowledged, the last position is past the largest. -/
theorem Account.last_of_all_acked (h : Account pending leased unleased delivered acked positions)
    (hall : ∀ o ∈ leased, o ∈ acked) {largest : Nat} (hm : largest ∈ leased)
    (hmax : ∀ o ∈ leased, o ≤ largest) : positions.getLast? = some (largest + 1) := by
  have hsettled : settled (completed acked) leased = leased :=
    window_eq_nil_iff.mp (window_eq_nil_iff_forall.mpr fun o ho ↦ by simpa [completed] using hall o ho)
  rw [h.last, hsettled]
  obtain ⟨before, after, rfl⟩ := List.append_of_mem hm
  have hnil : after = [] := by
    refine List.eq_nil_iff_forall_not_mem.mpr fun o ho ↦ ?_
    have hsorted := (List.pairwise_append.mp h.leased_increasing).2.1
    have hlt := (List.pairwise_cons.mp hsorted).1 o ho
    have hle := hmax o (by simp [ho])
    omega
  simp [hnil]

end

/-! ### The accounts of a client -/

/-- Committed positions of a key, the one being committed last. -/
def Client.positions (s : Client) (key : PendingKey) : List Nat := s.commits key ++ s.inFlight key

/-- The account of one key of a client. -/
def Client.Accounted (s : Client) (key : PendingKey) : Prop :=
  Account ((s.pendingOffsets key).getD []) (s.leased key) (s.unleased key) (s.delivered key)
    (s.acked key) (s.positions key)

theorem record_self (history : PendingKey → List Nat) (key : PendingKey) (offset : Nat) :
    record history key offset key = history key ++ [offset] := Function.update_self ..

theorem record_of_ne (history : PendingKey → List Nat) {key other : PendingKey} (offset : Nat)
    (h : other ≠ key) : record history key offset other = history other :=
  Function.update_of_ne h ..

/-- Only the fetched key's account grows by the delivered record. -/
theorem Client.Accounted.getone {s t : Client} (h : ∀ key, s.Accounted key) {key : ConsumerKey}
    {partition offset : Nat} (hs : s.getone key partition offset = some t) :
    ∀ other, t.Accounted other := by
  simp only [Client.getone] at hs
  split at hs
  · next hg =>
    obtain ⟨-, hfree, hnew⟩ := hg
    cases hs
    intro other
    have hother := h other
    by_cases hk : other.toConsumerKey = key
    · have hidle : s.unleased other = [] := by simp [Client.unleased, hk, hfree]
      unfold Client.Accounted at hother ⊢
      rw [hidle] at hother
      by_cases hp : other.partition = partition
      · obtain rfl : other = ⟨key, partition⟩ := by
          obtain ⟨c, p⟩ := other
          simp_all
        simpa [Client.unleased, record_self, Client.positions, Client.inFlight]
          using hother.getone hnew
      · have hne : other ≠ ⟨key, partition⟩ := fun he ↦ hp (congrArg PendingKey.partition he)
        simpa [Client.unleased, record_of_ne _ _ hne, hk, Ne.symm hp, Client.positions,
          Client.inFlight] using hother
    · have hne : other ≠ ⟨key, partition⟩ := fun he ↦ hk (congrArg PendingKey.toConsumerKey he)
      simpa [Client.Accounted, Client.unleased, record_of_ne _ _ hne, Function.update_of_ne hk,
        Client.positions, Client.inFlight] using hother
  · cases hs

/-- The lease moves the fetched record into its key's window. -/
theorem Client.Accounted.lease {s t : Client} (h : ∀ key, s.Accounted key) {key : ConsumerKey}
    (hs : s.lease key = some t) : ∀ other, t.Accounted other := by
  unfold Client.lease at hs
  split at hs
  · next partition offset hfetched hfree =>
    cases hs
    intro other
    have hother := h other
    by_cases hk : other.toConsumerKey = key
    · by_cases hp : other.partition = partition
      · obtain rfl : other = ⟨key, partition⟩ := by
          obtain ⟨c, p⟩ := other
          simp_all
        have hheld : s.unleased ⟨key, partition⟩ = [offset] := by
          simp [Client.unleased, hfetched]
        unfold Client.Accounted at hother ⊢
        rw [hheld] at hother
        simpa [Client.unleased, record_self, Client.positions, Client.inFlight]
          using hother.lease
      · have hne : other ≠ ⟨key, partition⟩ := fun he ↦ hp (congrArg PendingKey.partition he)
        have hidle : s.unleased other = [] := by
          simp [Client.unleased, hk, hfetched, Ne.symm hp]
        unfold Client.Accounted at hother ⊢
        rw [hidle] at hother
        simpa [Client.unleased, record_of_ne _ _ hne, hk, Function.update_of_ne hne,
          Client.positions, Client.inFlight] using hother
    · have hne : other ≠ ⟨key, partition⟩ := fun he ↦ hk (congrArg PendingKey.toConsumerKey he)
      simpa [Client.Accounted, Client.unleased, record_of_ne _ _ hne, Function.update_of_ne hk,
        Function.update_of_ne hne, Client.positions, Client.inFlight] using hother
  · cases hs

/-- An acknowledgement settles what it completes and starts the commit this allows. -/
theorem Client.Accounted.ackRequest {s t : Client} (h : ∀ key, s.Accounted key)
    {key : PendingKey} {offset : Nat} (hs : s.ackRequest key offset = some t) :
    ∀ other, t.Accounted other := by
  unfold Client.ackRequest at hs
  split at hs
  · cases hs
    exact h
  · split at hs
    · cases hs
    · next hfree =>
      have hidle : s.committing = none := not_not.mp hfree
      cases hs
      intro other
      have hother := h other
      have hquiet : s.inFlight other = [] := by simp [Client.inFlight, hidle]
      unfold Client.Accounted at hother ⊢
      simp only [Client.positions, hquiet, List.append_nil] at hother ⊢
      by_cases hk : other = key
      · subst hk
        obtain ⟨hpending, popped, hsettled, hcommit⟩ := ackPending_window
          (completed (s.acked other)) (hother.leased_increasing.imp Nat.ne_of_lt)
          s.pendingOffsets other offset hother.deque
        have hacked : ∀ acked', acked' = (if offset ∈ s.leased other then
              record s.acked other offset else s.acked) other →
            (completed acked' = fun o ↦ completed (s.acked other) o ||
              (o == offset && decide (offset ∈ s.leased other))) ∧
            ∀ o ∈ acked', o ∈ s.leased other := by
          rintro acked' rfl
          by_cases hm : offset ∈ s.leased other
          · simp only [hm, ↓reduceIte, record_self]
            refine ⟨funext fun o ↦ by by_cases ho : o = offset <;> simp [completed, ho], ?_⟩
            intro o ho
            rcases List.mem_append.mp ho with hold | hnew
            · exact hother.leases o hold
            · exact List.mem_singleton.mp hnew ▸ hm
          · simp only [hm, ↓reduceIte]
            exact ⟨funext fun o ↦ by simp, hother.leases⟩
        obtain ⟨hcompleted, hleases⟩ := hacked _ rfl
        rw [← hcompleted] at hpending hsettled
        rw [hpending]
        have hsettle := hother.settle hleases hsettled
        rw [← hcommit] at hsettle
        cases hc : (ackPending s.pendingOffsets other offset).commitOffset <;>
          simpa [Client.inFlight, hc, Client.unleased] using hsettle
      · have hsame : (if offset ∈ s.leased key then record s.acked key offset else s.acked) other =
            s.acked other := by
          split
          · exact record_of_ne _ _ hk
          · rfl
        have hpending := ackPending_of_ne s.pendingOffsets hk offset
        cases hc : (ackPending s.pendingOffsets key offset).commitOffset <;>
          simpa [Client.inFlight, hc, hsame, hpending, Client.unleased, Ne.symm hk] using hother

/-- A finished commit moves its position to the committed ones. -/
theorem Client.Accounted.committed {s t : Client} (h : ∀ key, s.Accounted key)
    (hs : s.committed = some t) : ∀ other, t.Accounted other := by
  unfold Client.committed at hs
  obtain ⟨⟨key, commitOffset⟩, hc, rfl⟩ := Option.map_eq_some_iff.mp hs
  intro other
  have hother := h other
  unfold Client.Accounted at hother ⊢
  by_cases hk : other = key
  · subst hk
    simpa [Client.positions, Client.inFlight, hc, record_self, Client.unleased] using hother
  · simpa [Client.positions, Client.inFlight, hc, record_of_ne _ _ hk, Client.unleased,
      Ne.symm hk] using hother

/-- Every reachable client's accounts hold. -/
theorem accounted_of_reachable {s : Client} (h : machine.Reachable s) :
    ∀ key, s.Accounted key := by
  refine Machine.Reach.invariant (I := fun s ↦ ∀ key, s.Accounted key) ?_ ?_ h
  · rintro s rfl key
    exact .nil
  · intro s e t _ hs _ ht
    cases e with
    | consumer key =>
      cases ht
      exact hs
    | getone key partition offset => exact Client.Accounted.getone hs ht
    | lease key => exact Client.Accounted.lease hs ht
    | ackRequest key offset => exact Client.Accounted.ackRequest hs ht
    | committed => exact Client.Accounted.committed hs ht

/-- In every reachable state each committed position covers only acknowledged leases, each
partition's positions strictly increase, a partition whose leases are all acknowledged and
none is being committed is committed past its largest lease, and neither an acknowledgement
nor its commit touches another partition. -/
theorem offset_commit_safety {s : Client} (h : machine.Reachable s) :
    (∀ key, ∀ c ∈ s.commits key, ∀ o ∈ s.leased key, o < c → o ∈ s.acked key) ∧
    (∀ key, (s.commits key).Pairwise (· < ·)) ∧
    (∀ key, ∀ largest ∈ s.leased key, (∀ o ∈ s.leased key, o ≤ largest ∧ o ∈ s.acked key) →
      s.inFlight key = [] → (s.commits key).getLast? = some (largest + 1)) ∧
    (∀ key offset t, s.step (.ackRequest key offset) = some t → ∀ other, other ≠ key →
      t.pendingOffsets other = s.pendingOffsets other ∧ t.commits other = s.commits other) ∧
    (∀ key c t, s.committing = some (key, c) → s.step .committed = some t →
      ∀ other, other ≠ key →
        t.pendingOffsets other = s.pendingOffsets other ∧ t.commits other = s.commits other) := by
  have haccounts := accounted_of_reachable h
  refine ⟨?_, ?_, ?_, ?_, ?_⟩
  · intro key c hc o ho hlt
    exact (haccounts key).acked_of_lt (List.mem_append_left _ hc) ho hlt
  · intro key
    exact (List.pairwise_append.mp (haccounts key).rising).1
  · intro key largest hm hall hquiet
    have hlast := (haccounts key).last_of_all_acked (fun o ho ↦ (hall o ho).2) hm
      fun o ho ↦ (hall o ho).1
    simpa [Client.positions, hquiet] using hlast
  · intro key offset t ht other hne
    simp only [Client.step, Client.ackRequest] at ht
    split at ht
    · cases ht
      exact ⟨rfl, rfl⟩
    · split at ht
      · cases ht
      · cases ht
        exact ⟨ackPending_of_ne _ hne _, rfl⟩
  · intro key c t hc ht other hne
    simp only [Client.step, Client.committed, hc, Option.map_some, Option.some.injEq] at ht
    subst ht
    exact ⟨rfl, record_of_ne _ _ hne⟩

/-- The two leases of one partition are acknowledged in reverse order, around the commit of
another partition: one commit covers both. -/
theorem offset_commit_safety_out_of_order :
    let consumer : ConsumerKey := ⟨"work", "group"⟩
    let key : PendingKey := ⟨consumer, 0⟩
    ∃ s, machine.run Client.start [.consumer consumer, .getone consumer 0 10, .lease consumer,
        .getone consumer 1 7, .lease consumer, .getone consumer 0 12, .lease consumer,
        .ackRequest key 12, .ackRequest ⟨consumer, 1⟩ 7, .committed, .ackRequest key 12,
        .ackRequest key 10, .committed] = some s ∧
      (s.commits key).getLast? = some 13 := by
  intro consumer key
  obtain ⟨s, hs⟩ : ∃ s, machine.run Client.start [.consumer consumer, .getone consumer 0 10,
      .lease consumer, .getone consumer 1 7, .lease consumer, .getone consumer 0 12,
      .lease consumer, .ackRequest key 12, .ackRequest ⟨consumer, 1⟩ 7, .committed,
      .ackRequest key 12, .ackRequest key 10, .committed] = some s := ⟨_, rfl⟩
  have h := offset_commit_safety (Machine.Reachable.run _ (.init rfl) hs)
  refine ⟨s, hs, h.2.2.1 key 12 ?_ ?_ ?_⟩ <;> cases hs <;> decide

end ScrapyCffi.Kafka
