import ScrapyCffi.Extensions.Signals

/-!
# Signals that are dispatched before `stop` returns

What was enqueued, or is in a put task, when `stop` is called stays ahead of the sentinel, so the
consumer dispatches it before it returns. A callback is waited for when its task is pending; the
awaitable that a plain callable returns is not.
-/

namespace ScrapyCffi.Extensions

open ScrapyCffi.Base

variable {σ δ : Type} [DecidableEq σ] [DecidableEq δ]

/-- The calls of the first listeners of a signal. -/
def callsOf (item : Item σ δ) (count : Nat) : List (Call σ δ) :=
  (List.range count).map fun position ↦ ⟨item, position⟩

/-- The signals in the queue before a sentinel. -/
def beforeSentinel : List (Option (Item σ δ)) → List (Item σ δ)
  | some item :: rest => item :: beforeSentinel rest
  | _ => []

/-- The signal that is being dispatched. -/
def Consumer.current : Consumer σ δ → List (Item σ δ)
  | .dispatching item _ => [item]
  | _ => []

/-- The calls that have been made for it. -/
def Consumer.currentCalls : Consumer σ δ → List (Call σ δ)
  | .dispatching item next => callsOf item next
  | _ => []

namespace Manager

/-- Every signal owed to its listeners that was not dropped is dispatched once to each of them, in
the order of the queue, and every callback has ended. -/
structure Drained (s : Manager σ δ) : Prop where
  calls : s.calls = s.handled.flatMap fun p ↦ callsOf p.1 p.2
  order : s.handled.map Prod.fst <+: s.enqueued
  once : s.enqueued.Nodup
  listeners : ∀ p ∈ s.handled,
    p.1.registered ≤ p.2 ∧ p.2 ≤ (s.listeners p.1.signal).length
  dispatched : ∀ item ∈ s.owed, item ∈ s.dropped ∨ item ∈ s.handled.map Prod.fst
  ended : s.running = []

/-- Nothing subscribes to `None`, and no listener but a coroutine function returns an awaitable or
raises what is not an `Exception`. -/
def Observed (_ : Manager σ δ) : Event σ δ → Prop
  | .connect signal _ => signal ≠ none
  | .call answer => answer ≠ .awaitable ∧ answer ≠ .interrupted
  | _ => True

instance (s : Manager σ δ) : ∀ e, Decidable (s.Observed e)
  | .connect signal _ => inferInstanceAs (Decidable (signal ≠ none))
  | .call answer => inferInstanceAs (Decidable (answer ≠ .awaitable ∧ answer ≠ .interrupted))
  | .setStopEvent => isTrue trivial
  | .send _ _ => isTrue trivial
  | .safePut _ _ => isTrue trivial
  | .enqueue _ => isTrue trivial
  | .wait _ => isTrue trivial
  | .drop _ => isTrue trivial
  | .get => isTrue trivial
  | .start => isTrue trivial
  | .dispatched => isTrue trivial
  | .ended _ => isTrue trivial
  | .cancelled => isTrue trivial
  | .stop => isTrue trivial
  | .proceed => isTrue trivial

/-- The signals that the consumer has, or will have, before it returns. -/
def ahead (s : Manager σ δ) : List (Item σ δ) :=
  s.handled.map Prod.fst ++ s.consumer.current ++
    if s.consumer = .returned then [] else beforeSentinel s.queue

/-- A signal was dropped, or will be dispatched. -/
def Settled (s : Manager σ δ) (item : Item σ δ) : Prop := item ∈ s.dropped ∨ item ∈ s.ahead

/-- What holds at each await of `stop`. -/
def Phase (s : Manager σ δ) : Prop :=
  match s.stop with
  | .notCalled => none ∉ s.queue ∧ s.consumer ≠ .returned
  | .gathering items => (none ∉ s.queue ∧ s.consumer ≠ .returned) ∧
      ∀ item ∈ s.owed, s.Settled item ∨ item ∈ items ∧ item ∈ s.putting
  | .sentinel => (none ∉ s.queue ∧ s.consumer ≠ .returned) ∧ ∀ item ∈ s.owed, s.Settled item
  | .joining => ∀ item ∈ s.owed, s.Settled item
  | .callbacks awaited => s.consumer = .returned ∧ (∀ item ∈ s.owed, s.Settled item) ∧
      ∀ call ∈ s.pending, call ∈ awaited
  | .returned => s.consumer = .returned ∧ (∀ item ∈ s.owed, s.Settled item) ∧ s.pending = []
  | .raised => False

/-- The items of the manager: those that are put and those that were enqueued. -/
structure Itemised (s : Manager σ δ) : Prop where
  fresh : ∀ item ∈ s.enqueued ++ s.putting, item.serial < s.sent
  nodup : (s.enqueued ++ s.putting).Nodup
  registered : ∀ item ∈ s.enqueued ++ s.putting,
    item.registered ≤ (s.listeners item.signal).length
  named : ∀ item ∈ s.enqueued ++ s.putting, item.signal ≠ none
  unnamed : s.listeners none = []

/-- The signals go through the queue and the consumer in one order. -/
structure Flow (s : Manager σ δ) : Prop where
  enqueued : s.enqueued =
    s.handled.map Prod.fst ++ s.consumer.current ++ s.queue.filterMap id
  calls : s.calls = (s.handled.flatMap fun p ↦ callsOf p.1 p.2) ++ s.consumer.currentCalls
  listeners : ∀ p ∈ s.handled,
    p.1.registered ≤ p.2 ∧ p.2 ≤ (s.listeners p.1.signal).length
  next : ∀ item next, s.consumer = .dispatching item next →
    next ≤ (s.listeners item.signal).length
  pending : s.running = s.pending
  calm : s.consumer ≠ .cancelling ∧ s.consumer ≠ .raised

/-- The invariant of the runs in which callbacks are observed. -/
structure Running (s : Manager σ δ) : Prop extends s.Itemised, s.Flow where
  phase : s.Phase

variable {s t : Manager σ δ}

/-! ## The signals ahead of the sentinel -/

omit [DecidableEq σ] [DecidableEq δ] in
theorem callsOf_succ (item : Item σ δ) (count : Nat) :
    callsOf item (count + 1) = callsOf item count ++ [⟨item, count⟩] := by
  rw [callsOf, List.range_succ, List.map_append]
  rfl

omit [DecidableEq σ] [DecidableEq δ] in
theorem beforeSentinel_eq {queue : List (Option (Item σ δ))} (h : none ∉ queue) :
    beforeSentinel queue = queue.filterMap id := by
  induction queue with
  | nil => rfl
  | cons head rest ih =>
    rw [List.mem_cons, not_or] at h
    cases head with
    | none => exact absurd rfl h.1
    | some item =>
      rw [beforeSentinel, ih h.2]
      rfl

omit [DecidableEq σ] [DecidableEq δ] in
theorem mem_beforeSentinel_append {queue : List (Option (Item σ δ))} {item : Item σ δ}
    (h : item ∈ beforeSentinel queue) (more : List (Option (Item σ δ))) :
    item ∈ beforeSentinel (queue ++ more) := by
  induction queue with
  | nil => cases h
  | cons head rest ih =>
    cases head with
    | none => cases h
    | some first =>
      rcases List.mem_cons.mp h with rfl | hrest
      · exact List.mem_cons_self
      · exact List.mem_cons_of_mem _ (ih hrest)

/-- Without a sentinel, everything that was enqueued is ahead. -/
theorem Flow.ahead_eq (h : s.Flow) (hqueue : none ∉ s.queue) (hopen : s.consumer ≠ .returned) :
    s.ahead = s.enqueued := by
  rw [ahead, if_neg hopen, beforeSentinel_eq hqueue, h.enqueued]

/-- A step that does not belong to `stop`. -/
structure Later (s t : Manager σ δ) : Prop where
  stop : t.stop = s.stop
  owed : t.owed = s.owed
  settled : ∀ item, s.Settled item → t.Settled item
  putting : none ∉ s.queue → s.consumer ≠ .returned →
    ∀ item ∈ s.putting, t.Settled item ∨ item ∈ t.putting
  unclosed : none ∉ s.queue → s.consumer ≠ .returned →
    none ∉ t.queue ∧ t.consumer ≠ .returned
  returned : s.consumer = .returned →
    t.consumer = .returned ∧ ∀ call ∈ t.pending, call ∈ s.pending

/-- What holds at an await of `stop` holds after the steps of the others. -/
theorem Phase.later (h : s.Phase) (hl : s.Later t) : t.Phase := by
  rw [Phase] at h ⊢
  rw [hl.stop, hl.owed]
  split at h
  · exact hl.unclosed h.1 h.2
  · obtain ⟨⟨hqueue, hopen⟩, howed⟩ := h
    refine ⟨hl.unclosed hqueue hopen, fun item hitem ↦ ?_⟩
    rcases howed item hitem with hsettled | ⟨hitems, hputting⟩
    · exact .inl (hl.settled item hsettled)
    · exact (hl.putting hqueue hopen item hputting).imp_right fun hput ↦ ⟨hitems, hput⟩
  · obtain ⟨⟨hqueue, hopen⟩, howed⟩ := h
    exact ⟨hl.unclosed hqueue hopen, fun item hitem ↦ hl.settled item (howed item hitem)⟩
  · exact fun item hitem ↦ hl.settled item (h item hitem)
  · obtain ⟨hreturned, howed, hpending⟩ := h
    obtain ⟨hreturned', hsub⟩ := hl.returned hreturned
    exact ⟨hreturned', fun item hitem ↦ hl.settled item (howed item hitem),
      fun call hcall ↦ hpending call (hsub call hcall)⟩
  · obtain ⟨hreturned, howed, hpending⟩ := h
    obtain ⟨hreturned', hsub⟩ := hl.returned hreturned
    refine ⟨hreturned', fun item hitem ↦ hl.settled item (howed item hitem), ?_⟩
    rw [hpending] at hsub
    exact List.eq_nil_iff_forall_not_mem.mpr fun call hcall ↦ by cases hsub call hcall
  · exact h

/-! ## Listeners and enqueues -/

omit [DecidableEq δ] in
theorem length_listeners_update (listeners : Option σ → List Listener) (signal : Option σ)
    (listener : Listener) (other : Option σ) : (listeners other).length ≤
      (Function.update listeners signal (listeners signal ++ [listener]) other).length := by
  by_cases hsame : other = signal
  · subst hsame
    rw [Function.update_self, List.length_append]
    exact Nat.le_add_right _ _
  · exact Nat.le_of_eq (by rw [Function.update_of_ne hsame])

theorem Running.connect (h : s.Running) {signal : Option σ} (hsignal : signal ≠ none)
    (listener : Listener) : Running { s with
      listeners := Function.update s.listeners signal (s.listeners signal ++ [listener]) } := by
  have hle := length_listeners_update s.listeners signal listener
  refine ⟨⟨h.fresh, h.nodup, fun item hitem ↦ Nat.le_trans (h.registered item hitem) (hle _),
    h.named, ?_⟩, ⟨h.enqueued, h.calls, fun p hp ↦ ?_,
    fun item next hnext ↦ Nat.le_trans (h.next item next hnext) (hle _), h.pending, h.calm⟩, h.phase⟩
  · show Function.update s.listeners signal _ none = []
    rw [Function.update_of_ne hsignal.symm]
    exact h.unnamed
  · exact ⟨(h.listeners p hp).1, Nat.le_trans (h.listeners p hp).2 (hle _)⟩

/-- A signal with listeners is put. -/
theorem Running.put (h : s.Running) {signal : Option σ} (hlisteners : s.listeners signal ≠ [])
    (data : δ) (owned : Bool) : (s.put signal data owned).Running := by
  have hputting : (s.put signal data owned).putting =
      s.putting ++ [⟨s.sent, signal, data, (s.listeners signal).length⟩] := by
    rw [putting, Manager.put, List.map_append]
    rfl
  have hitems : ∀ item ∈ s.enqueued ++ (s.put signal data owned).putting,
      item ∈ s.enqueued ++ s.putting ∨
        item = ⟨s.sent, signal, data, (s.listeners signal).length⟩ := by
    intro item hitem
    rw [hputting, ← List.append_assoc] at hitem
    exact (List.mem_append.mp hitem).imp_right List.mem_singleton.mp
  refine ⟨⟨fun item hitem ↦ ?_, ?_, fun item hitem ↦ ?_, fun item hitem ↦ ?_, h.unnamed⟩,
    ⟨h.enqueued, h.calls, h.listeners, h.next, h.pending, h.calm⟩, ?_⟩
  · rcases hitems item hitem with hold | rfl
    · exact Nat.lt_trans (h.fresh item hold) (Nat.lt_succ_self _)
    · exact Nat.lt_succ_self _
  · show (s.enqueued ++ (s.put signal data owned).putting).Nodup
    rw [hputting, ← List.append_assoc]
    refine List.nodup_append.mpr ⟨h.nodup, List.nodup_singleton _, fun item hitem other hother ↦ ?_⟩
    rintro rfl
    rw [List.mem_singleton.mp hother] at hitem
    exact absurd (h.fresh _ hitem) (Nat.lt_irrefl _)
  · rcases hitems item hitem with hold | rfl
    · exact h.registered item hold
    · exact Nat.le_refl _
  · rcases hitems item hitem with hold | rfl
    · exact h.named item hold
    · rintro rfl
      exact hlisteners h.unnamed
  · refine h.phase.later ⟨rfl, rfl, fun _ hsettled ↦ hsettled, fun _ _ item hitem ↦ .inr ?_,
      fun hqueue hopen ↦ ⟨hqueue, hopen⟩, fun hreturned ↦ ⟨hreturned, fun _ hcall ↦ hcall⟩⟩
    rw [hputting]
    exact List.mem_append_left _ hitem

theorem putting_erase {put : Put σ δ} (h : put ∈ s.puts) :
    s.putting.Perm (put.item :: (s.puts.erase put).map (·.item)) :=
  (List.perm_cons_erase h).map _

/-- A put task has ended: its signal was enqueued or dropped. -/
theorem Running.enqueue (h : s.Running) {put : Put σ δ} (hput : put ∈ s.puts) :
    Running { s with
      puts := s.puts.erase put
      queue := s.queue ++ [some put.item]
      enqueued := s.enqueued ++ [put.item] } := by
  have hperm : (s.enqueued ++ [put.item] ++ (s.puts.erase put).map (·.item)).Perm
      (s.enqueued ++ s.putting) := by
    rw [List.append_assoc]
    exact (putting_erase hput).symm.append_left s.enqueued
  have hahead : ∀ item ∈ s.ahead, item ∈ s.handled.map Prod.fst ++ s.consumer.current ++
      if s.consumer = .returned then [] else beforeSentinel (s.queue ++ [some put.item]) := by
    intro item hitem
    rw [ahead] at hitem
    rcases List.mem_append.mp hitem with hfirst | hqueue
    · exact List.mem_append_left _ hfirst
    · apply List.mem_append_right
      split
      · next hreturned => rwa [if_pos hreturned] at hqueue
      · next hopen =>
        rw [if_neg hopen] at hqueue
        exact mem_beforeSentinel_append hqueue _
  refine ⟨⟨fun item hitem ↦ h.fresh item (hperm.mem_iff.mp hitem), hperm.nodup_iff.mpr h.nodup,
    fun item hitem ↦ h.registered item (hperm.mem_iff.mp hitem),
    fun item hitem ↦ h.named item (hperm.mem_iff.mp hitem), h.unnamed⟩,
    ⟨?_, h.calls, h.listeners, h.next, h.pending, h.calm⟩, h.phase.later ⟨rfl, rfl, ?_, ?_, ?_, ?_⟩⟩
  · rw [List.filterMap_append, ← List.append_assoc, ← h.enqueued]
    rfl
  · exact fun item hsettled ↦ hsettled.imp_right (hahead item)
  · intro hqueue hopen item hitem
    rcases List.mem_cons.mp ((putting_erase hput).mem_iff.mp hitem) with rfl | hrest
    · refine .inl (.inr ?_)
      rw [ahead, if_neg hopen]
      apply List.mem_append_right
      rw [beforeSentinel_eq (by simpa using hqueue)]
      simp
    · exact .inr hrest
  · exact fun hqueue hopen ↦ ⟨by simpa using hqueue, hopen⟩
  · exact fun hreturned ↦ ⟨hreturned, fun _ hcall ↦ hcall⟩

theorem Running.drop (h : s.Running) {put : Put σ δ} (hput : put ∈ s.puts) :
    Running { s with
      puts := s.puts.erase put
      dropped := s.dropped ++ [put.item] } := by
  have hsub : (s.enqueued ++ (s.puts.erase put).map (·.item)).Sublist (s.enqueued ++ s.putting) :=
    (List.erase_sublist.map _).append_left s.enqueued
  refine ⟨⟨fun item hitem ↦ h.fresh item (hsub.subset hitem), h.nodup.sublist hsub,
    fun item hitem ↦ h.registered item (hsub.subset hitem),
    fun item hitem ↦ h.named item (hsub.subset hitem), h.unnamed⟩,
    ⟨h.enqueued, h.calls, h.listeners, h.next, h.pending, h.calm⟩,
    h.phase.later ⟨rfl, rfl, ?_, ?_, fun hqueue hopen ↦ ⟨hqueue, hopen⟩,
      fun hreturned ↦ ⟨hreturned, fun _ hcall ↦ hcall⟩⟩⟩
  · exact fun item hsettled ↦ hsettled.imp_left (List.mem_append_left _)
  · intro _ _ item hitem
    rcases List.mem_cons.mp ((putting_erase hput).mem_iff.mp hitem) with rfl | hrest
    · exact .inl (.inl (List.mem_append_right _ List.mem_cons_self))
    · exact .inr hrest

/-- A put that waits for room is still put. -/
theorem Running.wait (h : s.Running) (put : Put σ δ) : Running { s with
    puts := s.puts.map fun p ↦ if p = put then { p with waiting := true } else p } := by
  have hsame : putting { s with
      puts := s.puts.map fun p ↦ if p = put then { p with waiting := true } else p } =
      s.putting := by
    rw [putting, List.map_map, putting]
    apply List.map_congr_left
    intro p _
    rw [Function.comp_apply]
    split <;> rfl
  refine ⟨⟨?_, ?_, ?_, ?_, h.unnamed⟩,
    ⟨h.enqueued, h.calls, h.listeners, h.next, h.pending, h.calm⟩,
    h.phase.later ⟨rfl, rfl, fun _ hsettled ↦ hsettled, fun _ _ item hitem ↦ .inr ?_,
      fun hqueue hopen ↦ ⟨hqueue, hopen⟩, fun hreturned ↦ ⟨hreturned, fun _ hcall ↦ hcall⟩⟩⟩
  · rw [hsame]
    exact h.fresh
  · rw [hsame]
    exact h.nodup
  · rw [hsame]
    exact h.registered
  · rw [hsame]
    exact h.named
  · rw [hsame]
    exact hitem

/-! ## The consumer -/

omit [DecidableEq σ] [DecidableEq δ] in
/-- A step that leaves the puts and what was enqueued as they are. -/
theorem Itemised.same (h : s.Itemised) (hlisteners : t.listeners = s.listeners)
    (hsent : t.sent = s.sent) (hputs : t.puts = s.puts) (henqueued : t.enqueued = s.enqueued) :
    t.Itemised := by
  have hputting : t.putting = s.putting := by rw [putting, hputs, putting]
  constructor
  · rw [henqueued, hputting, hsent]
    exact h.fresh
  · rw [henqueued, hputting]
    exact h.nodup
  · rw [henqueued, hputting, hlisteners]
    exact h.registered
  · rw [henqueued, hputting]
    exact h.named
  · rw [hlisteners]
    exact h.unnamed

/-- A step of the consumer that leaves the queue, the puts and `stop` as they are. -/
theorem Later.consume {consumer : Consumer σ δ} {handled : List (Item σ δ × Nat)}
    {calls running pending : List (Call σ δ)} (hopen : s.consumer ≠ .returned)
    (hopen' : consumer ≠ .returned)
    (hahead : handled.map Prod.fst ++ consumer.current =
      s.handled.map Prod.fst ++ s.consumer.current) :
    s.Later { s with
      consumer, handled, calls, running, pending } := by
  have hsame : ahead { s with consumer, handled, calls, running, pending } = s.ahead := by
    rw [ahead, ahead, if_neg hopen]
    show handled.map Prod.fst ++ consumer.current ++ _ = _
    rw [hahead, if_neg hopen']
  refine ⟨rfl, rfl, fun item hsettled ↦ ?_, fun _ _ item hitem ↦ .inr hitem,
    fun hqueue _ ↦ ⟨hqueue, hopen'⟩, fun hreturned ↦ absurd hreturned hopen⟩
  rw [Settled, hsame]
  exact hsettled

/-- A listener has been called, in a pending task or to its end. -/
theorem Running.called (h : s.Running) {item : Item σ δ} {next : Nat}
    (hconsumer : s.consumer = .dispatching item next)
    (hnext : next < (s.listeners item.signal).length) : (s.called item next).Running := by
  refine ⟨h.toItemised.same rfl rfl rfl rfl, ⟨?_, ?_, h.listeners, ?_, h.pending, by simp [Manager.called]⟩,
    h.phase.later (.consume (by simp [hconsumer]) (by simp) (by rw [hconsumer]; rfl))⟩
  · have henqueued := h.enqueued
    rw [hconsumer] at henqueued
    exact henqueued
  · have hcalls := h.calls
    rw [hconsumer] at hcalls
    show s.calls ++ [⟨item, next⟩] = _ ++ callsOf item (next + 1)
    rw [hcalls, callsOf_succ, ← List.append_assoc]
    rfl
  · intro other count hother
    cases hother
    exact hnext

theorem Running.startCallback (h : s.Running) {item : Item σ δ} {next : Nat}
    (hconsumer : s.consumer = .dispatching item next)
    (hnext : next < (s.listeners item.signal).length) : (s.startCallback item next).Running := by
  have hcalled := h.called hconsumer hnext
  refine ⟨h.toItemised.same rfl rfl rfl rfl, ⟨hcalled.enqueued, hcalled.calls, hcalled.listeners, hcalled.next, ?_,
    hcalled.calm⟩, h.phase.later
      (.consume (by simp [hconsumer]) (by simp [Manager.called]) (by rw [hconsumer]; rfl))⟩
  show s.running ++ _ = s.pending ++ _
  rw [h.pending]

/-- All listeners have been called. -/
theorem Running.dispatched (h : s.Running) {item : Item σ δ} {next : Nat}
    (hconsumer : s.consumer = .dispatching item next)
    (hnext : (s.listeners item.signal).length ≤ next) : Running { s with
      consumer := .getting
      handled := s.handled ++ [(item, next)] } := by
  have henqueued := h.enqueued
  have hcalls := h.calls
  rw [hconsumer] at henqueued hcalls
  have hitem : item ∈ s.enqueued ++ s.putting := by
    rw [henqueued]
    simp [Consumer.current]
  refine ⟨h.toItemised.same rfl rfl rfl rfl, ⟨?_, ?_, ?_, fun _ _ hother ↦ (by cases hother), h.pending, by simp⟩,
    h.phase.later (.consume (by simp [hconsumer]) (by simp) ?_)⟩
  · rw [henqueued, List.map_append]
    show _ = _ ++ [item] ++ [] ++ _
    rw [List.append_nil]
    rfl
  · rw [hcalls, List.flatMap_append]
    show _ ++ callsOf item next = _ ++ (callsOf item next ++ []) ++ []
    rw [List.append_nil, List.append_nil]
  · intro p hp
    rcases List.mem_append.mp hp with hold | hnew
    · exact h.listeners p hold
    · rw [List.mem_singleton.mp hnew]
      exact ⟨Nat.le_trans (h.registered item hitem) hnext, h.next item next hconsumer⟩
  · rw [hconsumer, List.map_append]
    show _ ++ [item] ++ [] = _ ++ [item]
    rw [List.append_nil]

/-- The consumer gets a signal. -/
theorem Running.getItem (h : s.Running) (hconsumer : s.consumer = .getting) {item : Item σ δ}
    {rest : List (Option (Item σ δ))} (hqueue : s.queue = some item :: rest) : Running { s with
      queue := rest
      consumer := .dispatching item 0 } := by
  have henqueued := h.enqueued
  have hcalls := h.calls
  rw [hconsumer] at henqueued hcalls
  rw [hqueue] at henqueued
  have hahead : ahead { s with queue := rest, consumer := .dispatching item 0 } = s.ahead := by
    rw [ahead, ahead, hconsumer, hqueue]
    show _ ++ [item] ++ _ = _ ++ [] ++ _
    rw [if_neg (by simp), if_neg (by simp), List.append_nil, List.append_assoc]
    rfl
  refine ⟨h.toItemised.same rfl rfl rfl rfl, ⟨?_, ?_, h.listeners, ?_, h.pending, by simp⟩, h.phase.later
    ⟨rfl, rfl, fun other hsettled ↦ ?_, fun _ _ other hother ↦ .inr hother, fun hnone _ ↦ ?_,
      fun hreturned ↦ ?_⟩⟩
  · rw [henqueued]
    show _ ++ [] ++ _ = _ ++ [item] ++ _
    rw [List.append_nil, List.append_assoc]
    rfl
  · rw [hcalls]
    rfl
  · intro other next hother
    cases hother
    exact Nat.zero_le _
  · rw [Settled, hahead]
    exact hsettled
  · rw [hqueue, List.mem_cons, not_or] at hnone
    exact ⟨hnone.2, by simp⟩
  · rw [hconsumer] at hreturned
    cases hreturned

/-- The consumer gets the sentinel. -/
theorem Running.getSentinel (h : s.Running) (hconsumer : s.consumer = .getting)
    {rest : List (Option (Item σ δ))} (hqueue : s.queue = none :: rest) : Running { s with
      queue := rest
      consumer := .returned } := by
  have henqueued := h.enqueued
  have hcalls := h.calls
  rw [hconsumer] at henqueued hcalls
  rw [hqueue] at henqueued
  have hahead : ahead { s with queue := rest, consumer := .returned } = s.ahead := by
    rw [ahead, ahead, hconsumer, hqueue]
    rfl
  have hphase := h.phase
  have hmem : none ∈ s.queue := hqueue ▸ List.mem_cons_self
  refine ⟨h.toItemised.same rfl rfl rfl rfl, ⟨henqueued, hcalls, h.listeners, fun _ _ hother ↦ (by cases hother),
    h.pending, by simp⟩, ?_⟩
  rw [Phase] at hphase ⊢
  simp only [Settled, hahead] at hphase ⊢
  rw [hconsumer] at hphase
  revert hphase
  cases s.stop with
  | notCalled => exact fun hphase ↦ absurd hmem hphase.1
  | gathering items => exact fun hphase ↦ absurd hmem hphase.1.1
  | sentinel => exact fun hphase ↦ absurd hmem hphase.1.1
  | joining => exact id
  | callbacks awaited => exact fun hphase ↦ nomatch hphase.1
  | returned => exact fun hphase ↦ nomatch hphase.1
  | raised => exact id

/-- A callback has ended. -/
theorem Running.ended (h : s.Running) (call : Call σ δ) : Running { s with
    running := s.running.filter (· ≠ call)
    pending := s.pending.filter (· ≠ call) } := by
  refine ⟨h.toItemised.same rfl rfl rfl rfl,
    ⟨h.enqueued, h.calls, h.listeners, h.next, congrArg _ h.pending, h.calm⟩,
    h.phase.later ⟨rfl, rfl, fun _ hsettled ↦ hsettled, fun _ _ item hitem ↦ .inr hitem,
      fun hqueue hopen ↦ ⟨hqueue, hopen⟩, fun hreturned ↦ ⟨hreturned, fun other hother ↦ ?_⟩⟩⟩
  exact List.mem_of_mem_filter hother

/-! ## `stop` -/

/-- `stop` owes what was enqueued and what is in its put tasks. -/
theorem Running.stop (h : s.Running) (hstop : s.stop = .notCalled) {items : List (Item σ δ)}
    (hitems : ∀ item ∈ items, item ∈ s.putting) : Running { s with
      stop := .gathering items
      owed := s.enqueued ++ items } := by
  have hphase := h.phase
  rw [Phase, hstop] at hphase
  obtain ⟨hqueue, hopen⟩ := hphase
  refine ⟨h.toItemised.same rfl rfl rfl rfl,
    ⟨h.enqueued, h.calls, h.listeners, h.next, h.pending, h.calm⟩, ⟨hqueue, hopen⟩, ?_⟩
  intro item hitem
  rcases List.mem_append.mp hitem with henqueued | hput
  · refine .inl (.inr ?_)
    rw [← h.toFlow.ahead_eq hqueue hopen] at henqueued
    exact henqueued
  · exact .inr ⟨hput, hitems item hput⟩

/-- Each await of `stop` leads to the next. -/
theorem Running.proceed (h : s.Running) {maxsize : Nat} (hstep : s.proceed maxsize = some t) :
    t.Running := by
  have hphase := h.phase
  have hflow : ∀ (queue : List (Option (Item σ δ))) (stop : Stop σ δ),
      queue.filterMap id = s.queue.filterMap id → Flow { s with queue, stop } := by
    intro queue stop hqueue
    refine ⟨?_, h.calls, h.listeners, h.next, h.pending, h.calm⟩
    rw [hqueue]
    exact h.enqueued
  rw [Phase] at hphase
  unfold Manager.proceed at hstep
  split at hstep
  · next items hstop =>
    rw [hstop] at hphase
    obtain ⟨⟨hqueue, hopen⟩, howed⟩ := hphase
    split at hstep
    · cases hstep
    · next hdone =>
      have hsettled : ∀ item ∈ s.owed, s.Settled item := by
        intro item hitem
        refine (howed item hitem).resolve_right fun hput ↦ hdone ?_
        rw [List.any_eq_true]
        exact ⟨item, hput.1, List.contains_iff_mem.mpr hput.2⟩
      split at hstep
      · next hreturned => exact absurd hreturned hopen
      · next hraised => exact absurd hraised h.calm.2
      · cases hstep
        exact ⟨h.toItemised.same rfl rfl rfl rfl, hflow _ _ rfl, ⟨hqueue, hopen⟩, hsettled⟩
  · next hstop =>
    rw [hstop] at hphase
    obtain ⟨⟨hqueue, hopen⟩, howed⟩ := hphase
    split at hstep
    · cases hstep
    · cases hstep
      refine ⟨h.toItemised.same rfl rfl rfl rfl, hflow _ _ (by simp), fun item hitem ↦ ?_⟩
      refine (howed item hitem).imp_right fun hahead ↦ ?_
      rw [ahead, if_neg hopen] at hahead ⊢
      rcases List.mem_append.mp hahead with hfirst | hrest
      · exact List.mem_append_left _ hfirst
      · exact List.mem_append_right _ (mem_beforeSentinel_append hrest _)
  · next hstop =>
    rw [hstop] at hphase
    split at hstep
    · next hreturned =>
      cases hstep
      exact ⟨h.toItemised.same rfl rfl rfl rfl, hflow _ _ rfl, hreturned, hphase,
        fun _ hcall ↦ hcall⟩
    · next hraised => exact absurd hraised h.calm.2
    · cases hstep
  · next awaited hstop =>
    rw [hstop] at hphase
    obtain ⟨hreturned, howed, hpending⟩ := hphase
    split at hstep
    · cases hstep
    · next hdone =>
      cases hstep
      refine ⟨h.toItemised.same rfl rfl rfl rfl, hflow _ _ rfl, hreturned, howed, ?_⟩
      refine List.eq_nil_iff_forall_not_mem.mpr fun call hcall ↦ hdone ?_
      rw [List.any_eq_true]
      exact ⟨call, hpending call hcall, List.contains_iff_mem.mpr hcall⟩
  · cases hstep

/-- A step keeps the invariant as long as callbacks are observed. -/
theorem Running.step (h : s.Running) {maxsize : Nat} {e : Event σ δ} (hguard : s.Observed e)
    (hstep : s.step maxsize e = some t) : t.Running := by
  cases e with
  | connect signal listener =>
    cases hstep
    exact h.connect hguard listener
  | setStopEvent =>
    cases hstep
    exact ⟨h.toItemised.same rfl rfl rfl rfl,
      ⟨h.enqueued, h.calls, h.listeners, h.next, h.pending, h.calm⟩, h.phase⟩
  | send signal data =>
    simp only [Manager.step] at hstep
    split at hstep
    · cases hstep
      exact h
    · next hsends =>
      cases hstep
      exact h.put (fun hnone ↦ hsends (.inr hnone)) data true
  | safePut signal data =>
    simp only [Manager.step] at hstep
    split at hstep
    · cases hstep
      exact h
    · next hlisteners =>
      cases hstep
      exact h.put hlisteners data false
  | enqueue put =>
    simp only [Manager.step] at hstep
    split at hstep
    · next hput =>
      cases hstep
      exact h.enqueue (List.contains_iff_mem.mp hput.1)
    · cases hstep
  | wait put =>
    simp only [Manager.step] at hstep
    split at hstep
    · cases hstep
      exact h.wait put
    · cases hstep
  | drop put =>
    simp only [Manager.step] at hstep
    split at hstep
    · next hput =>
      cases hstep
      exact h.drop (List.contains_iff_mem.mp hput.1)
    · cases hstep
  | get =>
    simp only [Manager.step] at hstep
    split at hstep
    · next head rest hconsumer hqueue =>
      cases hstep
      cases head with
      | none => exact h.getSentinel hconsumer hqueue
      | some item =>
        have hitem : item ∈ s.enqueued ++ s.putting := by
          rw [h.enqueued, hqueue]
          simp
        rw [take, if_neg (h.named item hitem)]
        exact h.getItem hconsumer hqueue
    · cases hstep
  | start =>
    simp only [Manager.step] at hstep
    split at hstep
    · next item next hconsumer =>
      split at hstep
      · next hlistener =>
        cases hstep
        exact h.startCallback hconsumer (List.getElem?_eq_some_iff.mp hlistener).1
      · cases hstep
    · cases hstep
  | call answer =>
    simp only [Manager.step] at hstep
    split at hstep
    · next item next hconsumer =>
      split at hstep
      · next hlistener =>
        cases hstep
        have hcalled := h.called hconsumer (List.getElem?_eq_some_iff.mp hlistener).1
        cases answer with
        | returned => exact hcalled
        | raised => exact hcalled
        | awaitable => exact absurd rfl hguard.1
        | interrupted => exact absurd rfl hguard.2
      · cases hstep
    · cases hstep
  | dispatched =>
    simp only [Manager.step] at hstep
    split at hstep
    · next item next hconsumer =>
      split at hstep
      · next hlistener =>
        cases hstep
        exact h.dispatched hconsumer (List.getElem?_eq_none_iff.mp hlistener)
      · cases hstep
    · cases hstep
  | ended call =>
    simp only [Manager.step] at hstep
    split at hstep
    · cases hstep
      exact h.ended call
    · cases hstep
  | cancelled =>
    simp only [Manager.step] at hstep
    split at hstep
    · next hcancelling _ => exact absurd hcancelling h.calm.1
    · cases hstep
  | stop =>
    simp only [Manager.step] at hstep
    split at hstep
    · next hstop =>
      cases hstep
      refine h.stop hstop fun item hitem ↦ ?_
      obtain ⟨put, hput, rfl⟩ := List.mem_map.mp hitem
      exact List.mem_map_of_mem (List.mem_of_mem_filter hput)
    · cases hstep
  | proceed => exact h.proceed hstep

end Manager

/-- In every run in which callbacks are observed, all signals are drained when `stop` returns. -/
theorem signals_drained {maxsize : Nat} {s : Manager σ δ}
    (h : (machine σ δ maxsize).Reach Manager.Observed s) (hstop : s.stop = .returned) :
    s.Drained := by
  have hinv : s.Running := by
    refine h.invariant (I := Manager.Running) (fun u hinit ↦ ?_)
      fun u e t _ ih hguard hstep ↦ ih.step hguard hstep
    cases hinit
    exact ⟨⟨by simp [Manager.init, Manager.putting], by simp [Manager.init, Manager.putting],
        by simp [Manager.init, Manager.putting], by simp [Manager.init, Manager.putting], rfl⟩,
      ⟨rfl, rfl, by simp [Manager.init], by simp [Manager.init], rfl, by simp [Manager.init]⟩,
      by simp [Manager.init], by simp [Manager.init]⟩
  have hphase := hinv.phase
  rw [Manager.Phase, hstop] at hphase
  obtain ⟨hreturned, howed, hpending⟩ := hphase
  have henqueued := hinv.enqueued
  have hcalls := hinv.calls
  rw [hreturned] at henqueued hcalls
  refine ⟨hcalls.trans (List.append_nil _), ?_, (List.nodup_append.mp hinv.nodup).1, hinv.listeners,
    fun item hitem ↦ (howed item hitem).imp_right fun hahead ↦ ?_, hinv.pending.trans hpending⟩
  · rw [henqueued, List.append_assoc]
    exact List.prefix_append _ _
  · rw [Manager.ahead, hreturned, if_pos rfl, List.append_nil] at hahead
    simpa [Consumer.current] using hahead

/-- The first signal sent to two listeners. -/
def openedItem : Item String Nat := ⟨0, some "spider_opened", 1, 2⟩

/-- A signal is sent to a coroutine function and to a function, and the manager stops. -/
def openedRun : List (Event String Nat) :=
  [.connect (some "spider_opened") .coroutineFunction, .connect (some "spider_opened") .callable,
    .send (some "spider_opened") 1, .stop, .enqueue ⟨openedItem, true, false⟩, .get, .proceed,
    .start, .call .returned, .dispatched, .proceed, .get, .proceed, .ended ⟨openedItem, 0⟩,
    .proceed]

theorem signals_drained_openedRun : ∃ s : Manager String Nat,
    (machine String Nat 1000).run .init openedRun = some s ∧ s.stop = .returned ∧ s.Drained := by
  have hreach : ∀ s, (machine String Nat 1000).runIf Manager.Observed .init openedRun = some s →
      (machine String Nat 1000).Reach Manager.Observed s :=
    fun s hs ↦ .runIf openedRun (.init rfl) hs
  exact ⟨_, rfl, rfl, signals_drained (hreach _ rfl) rfl⟩

/-- A signal is sent to a callable that returns a coroutine. -/
def unawaitedRun : List (Event String Nat) :=
  [.connect (some "spider_opened") .callable, .send (some "spider_opened") 1,
    .enqueue ⟨⟨0, some "spider_opened", 1, 1⟩, true, false⟩, .stop, .proceed, .proceed, .get,
    .call .awaitable, .dispatched, .get, .proceed, .proceed]

/-- `stop` returns and the coroutine has not run. -/
theorem unawaited_callback : ¬ ∀ s : Manager String Nat,
    (machine String Nat 1000).Reachable s → s.stop = .returned → s.Drained := by
  intro h
  have hrun : ∃ s, (machine String Nat 1000).run .init unawaitedRun = some s ∧
      s.stop = .returned ∧ s.running ≠ [] := ⟨_, rfl, rfl, List.cons_ne_nil _ _⟩
  obtain ⟨s, hs, hstop, hrunning⟩ := hrun
  exact hrunning (h s (Machine.Reachable.run unawaitedRun (.init rfl) hs) hstop).ended

end ScrapyCffi.Extensions
