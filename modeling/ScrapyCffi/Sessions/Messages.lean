import ScrapyCffi.Sessions.SoleListener

/-!
# Messages of WebSocket requests

A request that completes without a reported error has sent its messages once and in order on a
connection of its place, as long as none of them meets an entry without a connection and no entry
is closed under a listener that has messages left.
-/

namespace ScrapyCffi.Sessions.Listeners

open ScrapyCffi.Base ScrapyCffi.Sessions.WebSockets

/-- The messages that were sent for a request, in order. -/
def State.sentBy (s : State) (n : Nat) : List String := (s.sent.filter (·.1 = n)).map (·.2.2)

/-- A request that is completed without a reported error has sent its messages, and messages go to
connections of their request's place. -/
structure State.Delivered (s : State) : Prop where
  completed : ∀ n task, s.tasks n = some task → task.phase = .completed →
    task.reported = false → s.sentBy n = task.request.sendMessage
  connection : ∀ n k message, (n, k, message) ∈ s.sent → ∃ task l, s.tasks n = some task ∧
    s.listeners k = some l ∧ l.place = task.place

/-- A step sends nothing, or one message on a connection that is open. -/
def State.SendsLive (s t : State) : Prop :=
  t.sent = s.sent ∨ ∃ n k message, s.live k = true ∧ t.sent = s.sent ++ [(n, k, message)]

/-- A listener that has not come to the messages of the server. -/
def Listening.early : Listening → Bool
  | .connecting | .sending _ => true
  | .receiving | .closing .. | .ended => false

/-- The listener that made an entry has messages left, and no error was reported. -/
def State.Unsent (s : State) (entry : Nat) : Prop :=
  (s.listeners entry).any (·.phase.early) ∧
    (s.tasks entry).any fun task ↦ task.request.sendMessage ≠ [] ∧ task.reported = false

instance (s : State) (entry : Nat) : Decidable (s.Unsent entry) :=
  inferInstanceAs (Decidable (_ ∧ _))

variable (key : String → Digest)

/-- A request with messages for a URL does not find an entry without a connection, and no entry is
closed while the listener that made it has messages left, unless it fails itself. -/
def Undisturbed (s : State) : Event → Prop
  | .process wrapper request => request.sendMessage ≠ [] → request.websocketId = "" →
    (s.found key wrapper request).all (·.websocket.isSome)
  | .connected n stopping => (s.listeners n).all fun l ↦
    if s.pool l.place = none then l.entry = n ∨ ¬ s.Unsent l.entry
    else stopping ∨ (s.entries l.entry).any (·.stopEvent) → ¬ s.Unsent l.entry
  | .failed n => (s.listeners n).all fun l ↦ l.entry = n ∨ ¬ s.Unsent l.entry
  | .stopped n => (s.listeners n).all fun l ↦ ¬ s.Unsent l.entry
  | .resume n => (s.tasks n).all fun task ↦ (s.pool task.place).all fun e ↦ ¬ s.Unsent e
  | .reap place => (s.pool place).all fun e ↦ ¬ s.Unsent e
  | _ => True

instance (s : State) : ∀ e, Decidable (Undisturbed key s e)
  | .process .. => inferInstanceAs (Decidable (_ → _ → _ = _))
  | .connected .. | .failed _ | .stopped _ | .resume _ | .reap _ =>
    inferInstanceAs (Decidable (_ = true))
  | .send _ | .sendRaises _ | .listenerSend _ | .closed _ | .unwound _ | .resumed _ | .acquire _
  | .endWebsocket _ | .requestStop _ | .dropped _ | .pop _ | .reaped _ | .cleared _ =>
    .isTrue trivial

/-- What a listener has sent of its request's messages. -/
def Progress (messages sent : List String) : Listening → Prop
  | .connecting => sent = []
  | .sending rest => sent ++ rest = messages
  | .receiving | .closing .. | .ended => sent = messages

/-- Whether an entry is closed. -/
def State.Closed (s : State) (e : Nat) : Prop := ∃ hd, s.entries e = some hd ∧ hd.closed = true

/-- Where an entry is. -/
def State.At (s : State) (e : Nat) (place : Place) : Prop :=
  ∃ hd, s.entries e = some hd ∧ hd.place = place

/-- A listener with its task and its entry. -/
structure Following (s : State) (n : Nat) (l : Listener) (task : Task) : Prop where
  place : task.place = l.place
  entry : l.entry = n ∨ task.request.sendMessage = []
  progress : task.reported = true ∨ Progress task.request.sendMessage (s.sentBy n) l.phase
  made : ∃ hd, s.entries l.entry = some hd
  cancelled : l.cancelled = true → s.Closed l.entry
  closing : ∀ socket other, l.phase = .closing socket other → s.Closed l.entry

/-- What a task has sent of its messages. -/
structure Sending (s : State) (n : Nat) (task : Task) : Prop where
  waiting : ∀ e, task.phase = .waiting e → ∃ l, s.listeners n = some l ∧ l.entry = e
  sending : ∀ e rest, task.phase = .sending e rest → s.listeners n = none ∧ s.At e task.place ∧
    s.sentBy n ++ rest = task.request.sendMessage
  closing : ∀ e socket other, task.phase = .closing e socket other → s.Closed e
  sentAll : task.phase = .completed ∨ (∃ e socket other, task.phase = .closing e socket other) →
    task.reported = true ∨ s.sentBy n = task.request.sendMessage

/-- The invariant of the runs. -/
structure Tracked (s : State) : Prop where
  fresh : ∀ n, s.next ≤ n → s.tasks n = none ∧ s.listeners n = none ∧ s.entries n = none
  pooled : ∀ place e, s.pool place = some e → s.At e place
  websocket : ∀ e hd k, s.entries e = some hd → hd.websocket = some k →
    ∃ l, s.listeners k = some l ∧ l.place = hd.place
  task : ∀ e hd m, s.entries e = some hd → hd.task = some m →
    ∃ l, s.listeners m = some l ∧ l.entry = e
  closed : ∀ e, s.Closed e → ¬ s.Unsent e
  closedEvent : ∀ e hd, s.entries e = some hd → hd.closedEvent = true → hd.closed = true
  reaping : ∀ e, s.reaping e ≠ none → s.Closed e
  following : ∀ n l, s.listeners n = some l → ∃ task, s.tasks n = some task ∧ Following s n l task
  sending : ∀ n task, s.tasks n = some task → Sending s n task
  sent : ∀ n k message, (n, k, message) ∈ s.sent → ∃ task l, s.tasks n = some task ∧
    s.listeners k = some l ∧ l.place = task.place

variable {key} {s t : State}

/-- The invariant is enough. -/
theorem Tracked.delivered (h : Tracked s) : s.Delivered where
  completed n task htask hphase hreported :=
    ((h.sending n task htask).sentAll (.inl hphase)).resolve_left (by simp [hreported])
  connection := h.sent

/-- A listener that is past its messages, or that has none, has sent them. -/
theorem Progress.sent {messages sent : List String} {phase : Listening}
    (h : Progress messages sent phase) (hearly : phase.early = true → messages = []) :
    sent = messages := by
  cases phase with
  | connecting => exact h.trans (hearly rfl).symm
  | sending rest =>
    have hnil := hearly rfl
    rw [Progress, hnil, List.append_eq_nil_iff] at h
    rw [h.1, hnil]
  | receiving => exact h
  | closing socket other => exact h
  | ended => exact h

/-- A listener whose entry's maker has nothing left has nothing left itself. -/
theorem Following.sentAll {n : Nat} {l : Listener} {task : Task} (h : Following s n l task)
    (hl : s.listeners n = some l) (ht : s.tasks n = some task) (hover : ¬ s.Unsent l.entry) :
    task.reported = true ∨ s.sentBy n = task.request.sendMessage := by
  cases hreported : task.reported with
  | true => exact .inl rfl
  | false =>
    refine .inr ((h.progress.resolve_left (by simp [hreported])).sent fun hearly ↦ ?_)
    obtain hentry | hnil := h.entry
    · by_contra hne
      rw [hentry] at hover
      exact hover ⟨by simp [hl, hearly], by simp [ht, hne, hreported]⟩
    · exact hnil

/-! ## Parts of a step -/

/-- A change of an entry that closes it only when its maker has nothing left. -/
structure Admits (s : State) (e : Nat) (hd hd' : Handle) : Prop where
  place : hd'.place = hd.place
  task : hd'.task = hd.task
  websocket : ∀ k, hd'.websocket = some k →
    hd.websocket = some k ∨ ∃ l, s.listeners k = some l ∧ l.place = hd.place
  stays : hd.closed = true → hd'.closed = true
  closed : hd'.closed = true → hd.closed = true ∨ ¬ s.Unsent e
  closedEvent : hd'.closedEvent = true → hd'.closed = true

/-- What entries are after a change of one. -/
theorem entries_modifyEntry {e m : Nat} {f : Handle → Handle} {hd : Handle}
    (h : (s.modifyEntry e f).entries m = some hd) :
    s.entries m = some hd ∨ m = e ∧ ∃ before, s.entries e = some before ∧ hd = f before := by
  by_cases hm : m = e
  · subst hm
    simp only [State.modifyEntry, Function.update_self] at h
    obtain ⟨before, hbefore, rfl⟩ := Option.map_eq_some_iff.mp h
    exact .inr ⟨rfl, before, hbefore, rfl⟩
  · simp only [State.modifyEntry, Function.update_of_ne hm] at h
    exact .inl h

/-- A property that a change of an entry keeps. -/
theorem exists_modifyEntry {P : Handle → Prop} {e m : Nat} {f : Handle → Handle}
    (hf : ∀ hd, s.entries e = some hd → P hd → P (f hd))
    (h : ∃ hd, s.entries m = some hd ∧ P hd) :
    ∃ hd, (s.modifyEntry e f).entries m = some hd ∧ P hd := by
  obtain ⟨hd, hm, hp⟩ := h
  by_cases hme : m = e
  · subst hme
    exact ⟨f hd, by simp [State.modifyEntry, hm], hf hd hm hp⟩
  · exact ⟨hd, by simp [State.modifyEntry, Function.update_of_ne hme, hm], hp⟩

/-- A change of an entry. -/
theorem Tracked.modifyEntry (h : Tracked s) (e : Nat) (f : Handle → Handle)
    (hf : ∀ hd, s.entries e = some hd → Admits s e hd (f hd)) : Tracked (s.modifyEntry e f) := by
  have hat : ∀ m place, s.At m place → (s.modifyEntry e f).At m place := fun m place ↦
    exists_modifyEntry fun hd he hplace ↦ (hf hd he).place.trans hplace
  have hclosed : ∀ m, s.Closed m → (s.modifyEntry e f).Closed m := fun m ↦
    exists_modifyEntry fun hd he ↦ (hf hd he).stays
  refine ⟨fun n hn ↦ ?_, fun place m hm ↦ hat m place (h.pooled place m hm), fun m hd k hm hk ↦ ?_,
    fun m hd k hm hk ↦ ?_, fun m hm ↦ ?_, fun m hd hm hevent ↦ ?_,
    fun m hm ↦ hclosed m (h.reaping m hm), fun n l hl ↦ ?_, fun n task ht ↦ ?_, h.sent⟩
  · obtain ⟨ht, hl, he⟩ := h.fresh n hn
    refine ⟨ht, hl, ?_⟩
    by_cases hne : n = e
    · subst hne
      simp [State.modifyEntry, he]
    · simp [State.modifyEntry, Function.update_of_ne hne, he]
  · obtain hm | ⟨rfl, before, hbefore, rfl⟩ := entries_modifyEntry hm
    · exact h.websocket m hd k hm hk
    · rw [(hf before hbefore).place]
      obtain hk | hk := (hf before hbefore).websocket k hk
      · exact h.websocket m before k hbefore hk
      · exact hk
  · obtain hm | ⟨rfl, before, hbefore, rfl⟩ := entries_modifyEntry hm
    · exact h.task m hd k hm hk
    · rw [(hf before hbefore).task] at hk
      exact h.task m before k hbefore hk
  · obtain ⟨hd, hm, hcl⟩ := hm
    obtain hm | ⟨rfl, before, hbefore, rfl⟩ := entries_modifyEntry hm
    · exact h.closed m ⟨hd, hm, hcl⟩
    · obtain hcl | hover := (hf before hbefore).closed hcl
      · exact h.closed m ⟨before, hbefore, hcl⟩
      · exact hover
  · obtain hm | ⟨rfl, before, hbefore, rfl⟩ := entries_modifyEntry hm
    · exact h.closedEvent m hd hm hevent
    · exact (hf before hbefore).closedEvent hevent
  · obtain ⟨task, ht, hfollowing⟩ := h.following n l hl
    obtain ⟨hd, hmade⟩ := hfollowing.made
    obtain ⟨hd', hmade', -⟩ := exists_modifyEntry (P := fun _ ↦ True) (fun _ _ _ ↦ trivial)
      ⟨hd, hmade, trivial⟩
    exact ⟨task, ht, hfollowing.place, hfollowing.entry, hfollowing.progress, ⟨hd', hmade'⟩,
      fun hc ↦ hclosed _ (hfollowing.cancelled hc),
      fun socket other hp ↦ hclosed _ (hfollowing.closing socket other hp)⟩
  · obtain ⟨hwaiting, hsending, hclosing, hover⟩ := h.sending n task ht
    exact ⟨hwaiting, fun m rest hp ↦ (hsending m rest hp).imp_right (And.imp_left (hat m task.place)),
      fun m socket other hp ↦ hclosed m (hclosing m socket other hp), hover⟩

/-- The references of an entry are not part of the invariant. -/
theorem Tracked.refer (h : Tracked s) (e : Nat) (f : Entry → Entry) (hf : Keeps f) :
    Tracked (s.refer e f) := by
  refine h.modifyEntry e _ fun hd he ↦ ⟨rfl, rfl, fun k hk ↦ .inl ?_, fun hc ↦ ?_, fun hc ↦ .inl ?_,
    fun hevent ↦ ?_⟩
  · exact (hf hd.toEntry).1.symm.trans hk
  · exact (hf hd.toEntry).2.trans hc
  · exact (hf hd.toEntry).2.symm.trans hc
  · exact (hf hd.toEntry).2.trans (h.closedEvent e hd he hevent)

/-- `closed_event.set()` on a closed entry. -/
theorem Tracked.setClosed (h : Tracked s) {e : Nat} (he : s.Closed e) : Tracked (s.setClosed e) := by
  refine h.modifyEntry e _ fun hd hhd ↦ ⟨rfl, rfl, fun _ ↦ .inl, id, .inl, fun _ ↦ ?_⟩
  obtain ⟨hd', hhd', hclosed⟩ := he
  rw [hhd] at hhd'
  cases hhd'
  exact hclosed

/-- An entry is closed while its maker has nothing left. -/
theorem Tracked.lockClosed (h : Tracked s) {e : Nat} (he : ¬ s.Unsent e) :
    Tracked (s.lockClosed e) :=
  h.modifyEntry e _ fun _ _ ↦ ⟨rfl, rfl, fun _ ↦ .inl, fun _ ↦ rfl, fun _ ↦ .inr he, fun _ ↦ rfl⟩

/-- A state that differs in the listener, the task and the messages of one request only. -/
structure Alters (s t : State) (n : Nat) : Prop where
  entries : t.entries = s.entries
  pool : t.pool = s.pool
  next : t.next = s.next
  reaping : t.reaping = s.reaping
  listeners : ∀ m, m ≠ n → t.listeners m = s.listeners m
  tasks : ∀ m, m ≠ n → t.tasks m = s.tasks m
  listener : (t.listeners n).map (fun l ↦ (l.place, l.entry)) =
    (s.listeners n).map fun l ↦ (l.place, l.entry)
  task : (t.tasks n).map (·.place) = (s.tasks n).map (·.place)
  sentBy : ∀ m, m ≠ n → t.sentBy m = s.sentBy m
  sent : ∀ m k message, (m, k, message) ∈ t.sent → (m, k, message) ∈ s.sent ∨
    m = n ∧ ∃ task l, s.tasks n = some task ∧ s.listeners k = some l ∧ l.place = task.place
  unsent : t.Unsent n → s.Unsent n

/-- The listeners of before, with their places and entries. -/
theorem Alters.listener_of {n m : Nat} {l : Listener} (h : Alters s t n)
    (hl : s.listeners m = some l) :
    ∃ k, t.listeners m = some k ∧ k.place = l.place ∧ k.entry = l.entry := by
  by_cases hm : m = n
  · subst hm
    have hmap := h.listener
    rw [hl, Option.map_some, Option.map_eq_some_iff] at hmap
    obtain ⟨k, hk, hpair⟩ := hmap
    exact ⟨k, hk, congrArg Prod.fst hpair, congrArg Prod.snd hpair⟩
  · exact ⟨l, (h.listeners m hm).trans hl, rfl, rfl⟩

/-- The tasks of before, with their places. -/
theorem Alters.task_of {n m : Nat} {task : Task} (h : Alters s t n) (ht : s.tasks m = some task) :
    ∃ after, t.tasks m = some after ∧ after.place = task.place := by
  by_cases hm : m = n
  · subst hm
    have hmap := h.task
    rw [ht, Option.map_some, Option.map_eq_some_iff] at hmap
    exact hmap
  · exact ⟨task, (h.tasks m hm).trans ht, rfl⟩

/-- A task that has sent the same as before. -/
theorem Alters.sending {n m : Nat} {task : Task} (ha : Alters s t n) (h : Sending s m task)
    (hsent : t.sentBy m = s.sentBy m) : Sending t m task where
  waiting e hp := by
    obtain ⟨l, hl, hentry⟩ := h.waiting e hp
    obtain ⟨l', hl', -, hentry'⟩ := ha.listener_of hl
    exact ⟨l', hl', hentry'.trans hentry⟩
  sending e rest hp := by
    obtain ⟨hnone, hat, hrest⟩ := h.sending e rest hp
    refine ⟨?_, ?_, by rw [hsent]; exact hrest⟩
    · by_cases hm : m = n
      · subst hm
        have hmap := ha.listener
        rw [hnone, Option.map_none, Option.map_eq_none_iff] at hmap
        exact hmap
      · exact (ha.listeners m hm).trans hnone
    · rw [State.At, ha.entries]
      exact hat
  closing e socket other hp := by
    rw [State.Closed, ha.entries]
    exact h.closing e socket other hp
  sentAll hp := by
    rw [hsent]
    exact h.sentAll hp

/-- A listener that has sent the same as before. -/
theorem Alters.following {n m : Nat} {l : Listener} {task : Task} (ha : Alters s t n)
    (h : Following s m l task) (hsent : t.sentBy m = s.sentBy m) : Following t m l task where
  place := h.place
  entry := h.entry
  progress := by
    rw [hsent]
    exact h.progress
  made := by
    rw [ha.entries]
    exact h.made
  cancelled hc := by
    rw [State.Closed, ha.entries]
    exact h.cancelled hc
  closing socket other hp := by
    rw [State.Closed, ha.entries]
    exact h.closing socket other hp

/-- A change of what belongs to one request. -/
theorem Tracked.change {n : Nat} (h : Tracked s) (ha : Alters s t n)
    (hfollowing : ∀ l, t.listeners n = some l → ∃ task, t.tasks n = some task ∧ Following t n l task)
    (hsending : ∀ task, t.tasks n = some task → Sending t n task) : Tracked t := by
  have hclosed : ∀ e, t.Closed e ↔ s.Closed e := fun e ↦ by
    rw [State.Closed, ha.entries, State.Closed]
  have hat : ∀ e place, t.At e place ↔ s.At e place := fun e place ↦ by
    rw [State.At, ha.entries, State.At]
  refine ⟨fun m hm ↦ ?_, fun place e he ↦ ?_, fun e hd k he hk ↦ ?_, fun e hd m he hm ↦ ?_,
    fun e he hu ↦ ?_, fun e hd he ↦ ?_, fun e he ↦ ?_, fun m l hl ↦ ?_, fun m task ht ↦ ?_,
    fun m k message hm ↦ ?_⟩
  · rw [ha.next] at hm
    rw [ha.entries]
    obtain ⟨ht, hl, he⟩ := h.fresh m hm
    by_cases hmn : m = n
    · subst hmn
      have hlm := ha.listener
      have htm := ha.task
      rw [hl, Option.map_none, Option.map_eq_none_iff] at hlm
      rw [ht, Option.map_none, Option.map_eq_none_iff] at htm
      exact ⟨htm, hlm, he⟩
    · exact ⟨(ha.tasks m hmn).trans ht, (ha.listeners m hmn).trans hl, he⟩
  · rw [ha.pool] at he
    exact (hat e place).mpr (h.pooled place e he)
  · rw [ha.entries] at he
    obtain ⟨l, hl, hplace⟩ := h.websocket e hd k he hk
    obtain ⟨l', hl', hplace', -⟩ := ha.listener_of hl
    exact ⟨l', hl', hplace'.trans hplace⟩
  · rw [ha.entries] at he
    obtain ⟨l, hl, hentry⟩ := h.task e hd m he hm
    obtain ⟨l', hl', -, hentry'⟩ := ha.listener_of hl
    exact ⟨l', hl', hentry'.trans hentry⟩
  · refine h.closed e ((hclosed e).mp he) ?_
    by_cases hen : e = n
    · subst hen
      exact ha.unsent hu
    · rw [State.Unsent, ha.listeners e hen, ha.tasks e hen] at hu
      exact hu
  · rw [ha.entries] at he
    exact h.closedEvent e hd he
  · rw [ha.reaping] at he
    exact (hclosed e).mpr (h.reaping e he)
  · by_cases hmn : m = n
    · subst hmn
      exact hfollowing l hl
    · rw [ha.listeners m hmn] at hl
      obtain ⟨task, ht, hf⟩ := h.following m l hl
      exact ⟨task, (ha.tasks m hmn).trans ht, ha.following hf (ha.sentBy m hmn)⟩
  · by_cases hmn : m = n
    · subst hmn
      exact hsending task ht
    · rw [ha.tasks m hmn] at ht
      exact ha.sending (h.sending m task ht) (ha.sentBy m hmn)
  · obtain hm | ⟨rfl, task, l, ht, hl, hplace⟩ := ha.sent m k message hm
    · obtain ⟨task, l, ht, hl, hplace⟩ := h.sent m k message hm
      obtain ⟨task', ht', htplace⟩ := ha.task_of ht
      obtain ⟨l', hl', hlplace, -⟩ := ha.listener_of hl
      exact ⟨task', l', ht', hl', hlplace.trans (hplace.trans htplace.symm)⟩
    · obtain ⟨task', ht', htplace⟩ := ha.task_of ht
      obtain ⟨l', hl', hlplace, -⟩ := ha.listener_of hl
      exact ⟨task', l', ht', hl', hlplace.trans (hplace.trans htplace.symm)⟩

/-- A change of a listener at its place and its entry, that does not go back to its messages. -/
theorem Tracked.modifyListener (h : Tracked s) (n : Nat) (f : Listener → Listener)
    (hf : ∀ l, s.listeners n = some l → (f l).place = l.place ∧ (f l).entry = l.entry ∧
      ((f l).phase.early = true → l.phase.early = true))
    (hfollowing : ∀ l task, s.listeners n = some l → s.tasks n = some task →
      Following s n l task → Following s n (f l) task) : Tracked (s.modifyListener n f) := by
  have ha : Alters s (s.modifyListener n f) n := by
    refine ⟨rfl, rfl, rfl, rfl, fun m hm ↦ Function.update_of_ne hm _ _, fun _ _ ↦ rfl, ?_, rfl,
      fun _ _ ↦ rfl, fun _ _ _ ↦ .inl, ?_⟩
    · cases hl : s.listeners n with
      | none => simp [State.modifyListener, hl]
      | some l =>
        obtain ⟨hplace, hentry, -⟩ := hf l hl
        simp [State.modifyListener, hl, hplace, hentry]
    · intro hu
      obtain ⟨hearly, htask⟩ := hu
      refine ⟨?_, htask⟩
      cases hl : s.listeners n with
      | none => simp [State.modifyListener, hl] at hearly
      | some l =>
        simp only [State.modifyListener, Function.update_self, hl, Option.map_some,
          Option.any_some] at hearly ⊢
        exact (hf l hl).2.2 hearly
  refine h.change ha (fun k hk ↦ ?_) fun task ht ↦ ha.sending (h.sending n task ht) rfl
  simp only [State.modifyListener, Function.update_self] at hk
  obtain ⟨l, hl, rfl⟩ := Option.map_eq_some_iff.mp hk
  obtain ⟨task, ht, hfollow⟩ := h.following n l hl
  exact ⟨task, ht, ha.following (hfollowing l task hl ht hfollow) rfl⟩

/-- A change of a task with its request, at its place. -/
theorem Tracked.modifyTask (h : Tracked s) (n : Nat) (f : Task → Task)
    (hf : ∀ task, s.tasks n = some task → (f task).request = task.request ∧
      (f task).place = task.place ∧ (task.reported = true → (f task).reported = true))
    (hsending : ∀ task, s.tasks n = some task → Sending s n task → Sending s n (f task)) :
    Tracked (s.modifyTask n f) := by
  have ha : Alters s (s.modifyTask n f) n := by
    refine ⟨rfl, rfl, rfl, rfl, fun _ _ ↦ rfl, fun m hm ↦ Function.update_of_ne hm _ _, rfl, ?_,
      fun _ _ ↦ rfl, fun _ _ _ ↦ .inl, ?_⟩
    · cases ht : s.tasks n with
      | none => simp [State.modifyTask, ht]
      | some task => simp [State.modifyTask, ht, (hf task ht).2.1]
    · intro hu
      obtain ⟨hearly, htask⟩ := hu
      refine ⟨hearly, ?_⟩
      cases ht : s.tasks n with
      | none => simp [State.modifyTask, ht] at htask
      | some task =>
        obtain ⟨hrequest, -, hreported⟩ := hf task ht
        simp only [State.modifyTask, Function.update_self, ht, Option.map_some, Option.any_some,
          decide_eq_true_eq, hrequest] at htask ⊢
        refine ⟨htask.1, Bool.eq_false_iff.mpr fun hr ↦ ?_⟩
        rw [hreported hr] at htask
        cases htask.2
  refine h.change ha (fun l hl ↦ ?_) fun task ht ↦ ?_
  · obtain ⟨task, ht, hfollow⟩ := h.following n l hl
    obtain ⟨hrequest, hplace, hreported⟩ := hf task ht
    refine ⟨f task, by simp [State.modifyTask, ht], hplace.trans hfollow.place, ?_, ?_,
      hfollow.made, hfollow.cancelled, hfollow.closing⟩
    · rw [hrequest]
      exact hfollow.entry
    · rw [hrequest]
      exact hfollow.progress.imp_left hreported
  · simp only [State.modifyTask, Function.update_self] at ht
    obtain ⟨before, hbefore, rfl⟩ := Option.map_eq_some_iff.mp ht
    exact ha.sending (hsending before hbefore (h.sending n before hbefore)) rfl

/-- An entry leaves its pool. -/
theorem Tracked.remove (h : Tracked s) (place : Place) : Tracked (s.remove place) := by
  refine ⟨h.fresh, fun p e he ↦ ?_, h.websocket, h.task, h.closed, h.closedEvent, h.reaping,
    fun n l hl ↦ ?_, fun n task ht ↦ ?_, h.sent⟩
  · exact h.pooled p e (entry_of_remove he).2
  · obtain ⟨task, ht, hf⟩ := h.following n l hl
    exact ⟨task, ht, hf.place, hf.entry, hf.progress, hf.made, hf.cancelled, hf.closing⟩
  · obtain ⟨hwaiting, hsending, hclosing, hover⟩ := h.sending n task ht
    exact ⟨hwaiting, hsending, hclosing, hover⟩

/-- Connections and wrappers are not part of the invariant. -/
theorem Tracked.environment (h : Tracked s) (live popped : Nat → Bool) :
    Tracked { s with live, popped } := by
  refine ⟨h.fresh, h.pooled, h.websocket, h.task, h.closed, h.closedEvent, h.reaping,
    fun n l hl ↦ ?_, fun n task ht ↦ ?_, h.sent⟩
  · obtain ⟨task, ht, hf⟩ := h.following n l hl
    exact ⟨task, ht, hf.place, hf.entry, hf.progress, hf.made, hf.cancelled, hf.closing⟩
  · obtain ⟨hwaiting, hsending, hclosing, hover⟩ := h.sending n task ht
    exact ⟨hwaiting, hsending, hclosing, hover⟩

/-- A connection is closed. -/
theorem Tracked.closeSocket (h : Tracked s) (socket : Option Nat) :
    Tracked (s.closeSocket socket) := by
  cases socket with
  | none => exact h
  | some k => exact h.environment (Function.update s.live k false) s.popped

/-- The closers that await. -/
theorem Tracked.setReaping (h : Tracked s) (e : Nat) (reaping : Option Reaping)
    (he : reaping ≠ none → s.Closed e) :
    Tracked { s with reaping := Function.update s.reaping e reaping } := by
  refine ⟨h.fresh, h.pooled, h.websocket, h.task, h.closed, h.closedEvent, fun m hm ↦ ?_,
    fun n l hl ↦ ?_, fun n task ht ↦ ?_, h.sent⟩
  · by_cases hme : m = e
    · subst hme
      simp only [Function.update_self] at hm
      exact he hm
    · simp only [Function.update_of_ne hme] at hm
      exact h.reaping m hm
  · obtain ⟨task, ht, hf⟩ := h.following n l hl
    exact ⟨task, ht, hf.place, hf.entry, hf.progress, hf.made, hf.cancelled, hf.closing⟩
  · obtain ⟨hwaiting, hsending, hclosing, hover⟩ := h.sending n task ht
    exact ⟨hwaiting, hsending, hclosing, hover⟩

/-! ## Steps -/

/-- An error goes to the interceptor chain. -/
theorem Tracked.report (h : Tracked s) (n : Nat) : Tracked (s.report n) := by
  refine h.modifyTask n _ (fun _ _ ↦ ⟨rfl, rfl, fun _ ↦ rfl⟩) fun task _ hsending ↦ ?_
  exact ⟨hsending.waiting, hsending.sending, hsending.closing, fun _ ↦ .inl rfl⟩

/-- The listener of a closed entry is cancelled. -/
theorem Tracked.cancel (h : Tracked s) {e : Nat} {hd : Handle} (hhd : s.entries e = some hd)
    (he : s.Closed e) (listener : Option Nat) (hlistener : ∀ m, listener = some m → hd.task = some m) :
    Tracked (s.cancel listener) := by
  cases listener with
  | none => exact h
  | some m =>
    obtain ⟨l, hl, hentry⟩ := h.task e hd m hhd (hlistener m rfl)
    refine h.modifyListener m _ (fun _ _ ↦ ⟨rfl, rfl, id⟩) fun k task hk _ hf ↦ ?_
    obtain rfl : l = k := Option.some.inj (hl.symm.trans hk)
    exact ⟨hf.place, hf.entry, hf.progress, hf.made, fun _ ↦ by rw [hentry]; exact he, hf.closing⟩

/-- The entries of listeners stay. -/
theorem listener_cancel {n : Nat} {listener : Option Nat} {l : Listener}
    (h : (s.cancel listener).listeners n = some l) :
    ∃ before, s.listeners n = some before ∧ l.entry = before.entry := by
  cases listener with
  | none => exact ⟨l, h, rfl⟩
  | some m =>
    rw [State.cancel] at h
    obtain ⟨rfl, h⟩ | ⟨-, h⟩ := entry_of_update h
    · obtain ⟨before, hbefore, rfl⟩ := Option.map_eq_some_iff.mp h
      exact ⟨before, hbefore, rfl⟩
    · exact ⟨l, h, rfl⟩

/-- A listener leaves its loop once its entry is closed. -/
theorem Tracked.leave (h : Tracked s) (n : Nat) (phase : Listening)
    (hphase : phase.early = false)
    (hclosed : ∀ l, s.listeners n = some l → s.Closed l.entry) :
    Tracked (s.modifyListener n fun l ↦ { l with phase }) := by
  refine h.modifyListener n _ (fun l hl ↦ ⟨rfl, rfl, fun hearly ↦ ?_⟩) fun l task hl ht hf ↦ ?_
  · rw [hphase] at hearly
    cases hearly
  · refine ⟨hf.place, hf.entry, ?_, hf.made, hf.cancelled, fun _ _ _ ↦ hclosed l hl⟩
    refine (hf.sentAll hl ht (h.closed _ (hclosed l hl))).imp_right fun hsent ↦ ?_
    cases phase with
    | connecting => cases hphase
    | sending rest => cases hphase
    | receiving => exact hsent
    | closing socket other => exact hsent
    | ended => exact hsent

/-- The `finally` of a listener whose entry's maker has nothing left. -/
theorem Tracked.finally {n : Nat} {l : Listener} (h : Tracked s) (hl : s.listeners n = some l)
    (hover : ¬ s.Unsent l.entry) : Tracked (s.finally n l.entry) := by
  rw [State.finally]
  split
  · exact h
  · next handle hhandle =>
    split
    · next hclosed =>
      have he : s.Closed l.entry := ⟨handle, hhandle, hclosed⟩
      refine (h.setClosed he).leave n .ended rfl fun k hk ↦ ?_
      obtain rfl : l = k := Option.some.inj (hl.symm.trans hk)
      exact exists_modifyEntry (fun _ _ hc ↦ hc) he
    · have hlock := h.lockClosed hover
      have hhandle' : (s.lockClosed l.entry).entries l.entry =
          some { handle with stopEvent := true, closed := true } := by
        simp [State.lockClosed, State.modifyEntry, hhandle]
      have he : (s.lockClosed l.entry).Closed l.entry := ⟨_, hhandle', rfl⟩
      dsimp only
      refine (hlock.cancel hhandle' he _ fun m hm ↦ ?_).leave n (.closing handle.websocket _) rfl
        fun k hk ↦ ?_
      · split at hm
        · cases hm
        · exact hm
      · obtain ⟨before, hbefore, hentry⟩ := listener_cancel hk
        obtain rfl : l = before := Option.some.inj (hl.symm.trans hbefore)
        rw [hentry, State.Closed]
        split
        · exact he
        · cases htask : handle.task with
          | none => exact he
          | some m => exact he

/-- A listener whose loop ends. -/
theorem Tracked.stopped {n : Nat} (h : Tracked s) (hg : Undisturbed key s (.stopped n))
    (hs : s.stopped n = some t) : Tracked t := by
  rw [State.stopped] at hs
  split at hs
  · next place entry hl =>
    cases hs
    rw [Undisturbed, hl] at hg
    exact h.finally hl (by simpa using hg)
  · cases hs

/-- The errors of other requests do not matter to an entry, and those of its maker settle it. -/
theorem unsent_report {n e : Nat} (hover : e = n ∨ ¬ s.Unsent e) : ¬ (s.report n).Unsent e := by
  intro hu
  obtain ⟨hearly, htask⟩ := hu
  rw [State.report, State.modifyTask] at htask
  by_cases hen : e = n
  · subst hen
    cases ht : s.tasks e <;> simp [ht] at htask
  · simp only [Function.update_of_ne hen] at htask
    exact hover.elim hen fun hover ↦ hover ⟨hearly, htask⟩

/-- A listener that fails. -/
theorem Tracked.failed {n : Nat} (h : Tracked s) (hg : Undisturbed key s (.failed n))
    (hs : s.failed n = some t) : Tracked t := by
  have hleave : ∀ {l : Listener}, s.listeners n = some l →
      Tracked ((s.report n).finally n l.entry) := by
    intro l hl
    rw [Undisturbed, hl] at hg
    have hl' : (s.report n).listeners n = some l := hl
    exact (h.report n).finally hl' (unsent_report (by simpa using hg))
  rw [State.failed] at hs
  split at hs
  · next hl =>
    cases hs
    exact hleave hl
  · next hl =>
    cases hs
    exact hleave hl
  · next hl =>
    cases hs
    exact hleave hl
  · cases hs

/-- A listener whose connection is made. -/
theorem Tracked.connected {n : Nat} {stopping : Bool} (h : Tracked s)
    (hg : Undisturbed key s (.connected n stopping)) (hs : s.connected n stopping = some t) :
    Tracked t := by
  rw [State.connected] at hs
  split at hs
  · next place entry task hl ht =>
    rw [Undisturbed, hl] at hg
    dsimp only at hs
    have hlive := h.environment (Function.update s.live n true) s.popped
    split at hs
    · next hnone =>
      cases hs
      simp only [Option.all_some, hnone, decide_eq_true_eq, if_true] at hg
      exact (hlive.report n).finally (l := ⟨place, entry, .connecting, false⟩) hl (unsent_report hg)
    · next registered hregistered =>
      -- the registered entry is at the listener's place
      have hentry := hlive.modifyEntry registered (fun handle ↦ { handle with websocket := some n })
        fun hd hhd ↦ by
          obtain ⟨hd', hhd', hplace⟩ := h.pooled place registered hregistered
          obtain rfl : hd = hd' := Option.some.inj (hhd.symm.trans hhd')
          refine ⟨rfl, rfl, fun k hk ↦ .inr ?_, id, .inl, h.closedEvent registered hd hhd⟩
          cases hk
          exact ⟨_, hl, hplace.symm⟩
      split at hs
      · next hstop =>
        cases hs
        refine hentry.finally (l := ⟨place, entry, .connecting, false⟩) hl ?_
        simp only [Option.all_some, hregistered, decide_eq_true_eq, reduceCtorEq, if_false] at hg
        refine hg (hstop.imp_right fun hstop ↦ ?_)
        rw [Option.any_eq_true] at hstop ⊢
        obtain ⟨hd, hhd, hset⟩ := hstop
        obtain hhd | ⟨rfl, before, hbefore, rfl⟩ := entries_modifyEntry hhd
        · exact ⟨hd, hhd, hset⟩
        · exact ⟨before, hbefore, hset⟩
      · cases hs
        refine hentry.modifyListener n _ (fun l hk ↦ ⟨rfl, rfl, fun _ ↦ ?_⟩)
          fun l task' hk htask hf ↦ ?_
        · obtain rfl := Option.some.inj (hl.symm.trans hk)
          rfl
        · obtain rfl := Option.some.inj (hl.symm.trans hk)
          obtain rfl := Option.some.inj (ht.symm.trans htask)
          refine ⟨hf.place, hf.entry, hf.progress.imp_right fun hp ↦ ?_, hf.made, hf.cancelled,
            fun socket other hphase ↦ ?_⟩
          · rw [Progress] at hp
            dsimp only
            split
            · next hnil =>
              rw [Progress, hnil]
              exact hp
            · rw [Progress, hp, List.nil_append]
          · dsimp only at hphase
            split at hphase <;> cases hphase
  · cases hs

/-- A listener whose `close` is through. -/
theorem Tracked.closing {n : Nat} (h : Tracked s) (hs : s.closed n = some t) : Tracked t := by
  rw [State.closed] at hs
  split at hs
  · next place entry socket listener hl =>
    obtain ⟨task, ht, hf⟩ := h.following n _ hl
    have he : s.Closed entry := hf.closing socket listener rfl
    split at hs
    · cases hs
      have he' : (s.closeSocket socket).Closed entry := by
        rw [State.Closed, entries_closeSocket]
        exact he
      refine ((h.closeSocket socket).setClosed he').leave n .ended rfl fun k hk ↦ ?_
      have hk : (s.closeSocket socket).listeners n = some k := hk
      rw [listeners_closeSocket] at hk
      obtain rfl := Option.some.inj (hl.symm.trans hk)
      exact exists_modifyEntry (fun _ _ hc ↦ hc) he'
    · cases hs
  · cases hs

/-- A cancelled listener that unwinds. -/
theorem Tracked.unwound {n : Nat} (h : Tracked s) (hs : s.unwound n = some t) : Tracked t := by
  rw [State.unwound] at hs
  split at hs
  · cases hs
  · next place entry phase _ hl =>
    cases hs
    obtain ⟨task, ht, hf⟩ := h.following n _ hl
    have he : s.Closed entry := hf.cancelled rfl
    refine (h.setClosed he).leave n .ended rfl fun k hk ↦ ?_
    obtain rfl := Option.some.inj (hl.symm.trans hk)
    exact exists_modifyEntry (fun _ _ hc ↦ hc) he
  · cases hs

/-- The reaper comes to an entry. -/
theorem Tracked.reap {place : Place} (h : Tracked s) (hg : Undisturbed key s (.reap place))
    (hs : s.reap place = some t) : Tracked t := by
  rw [State.reap] at hs
  split at hs
  · split at hs
    · cases hs
    · next entry hd hfound =>
      obtain ⟨e, hpool, hfound⟩ := Option.bind_eq_some_iff.mp hfound
      obtain ⟨hd', hh, hpair⟩ := Option.map_eq_some_iff.mp hfound
      cases hpair
      rw [Undisturbed, hpool] at hg
      split at hs
      · next hclosed =>
        cases hs
        exact h.setClosed ⟨hd, hh, hclosed⟩
      · cases hs
        have hhandle : (s.lockClosed entry).entries entry =
            some { hd with stopEvent := true, closed := true } := by
          simp [State.lockClosed, State.modifyEntry, hh]
        have he : (s.lockClosed entry).Closed entry := ⟨_, hhandle, rfl⟩
        refine ((h.lockClosed (by simpa using hg)).cancel hhandle he hd.task
          fun _ hm ↦ hm).setReaping entry _ fun _ ↦ ?_
        rw [State.Closed]
        cases hd.task <;> exact he
  · cases hs

/-- `close` of the reaper is through. -/
theorem Tracked.reaped {entry : Nat} (h : Tracked s) (hs : s.reaped entry = some t) :
    Tracked t := by
  rw [State.reaped] at hs
  split at hs
  · cases hs
  · next socket listener hr =>
    split at hs
    · cases hs
      have he : (s.closeSocket socket).Closed entry := by
        rw [State.Closed, entries_closeSocket]
        exact h.reaping entry (by simp [hr])
      exact ((h.closeSocket socket).setClosed he).setReaping entry none fun hne ↦ absurd rfl hne
    · cases hs

/-- A request that is over has sent its messages, or its error was reported. -/
theorem Tracked.finishTask (h : Tracked s) (n : Nat) (phase : Processing)
    (hphase : phase = .completed ∨ ∃ e socket other, phase = .closing e socket other)
    (hclosed : ∀ e socket other, phase = .closing e socket other → s.Closed e)
    (hover : ∀ task, s.tasks n = some task →
      task.reported = true ∨ s.sentBy n = task.request.sendMessage) :
    Tracked (s.modifyTask n fun task ↦ { task with phase }) := by
  refine h.modifyTask n _ (fun _ _ ↦ ⟨rfl, rfl, id⟩) fun task ht _ ↦
    ⟨fun e hp ↦ ?_, fun e rest hp ↦ ?_, hclosed, fun _ ↦ hover task ht⟩
  · have hp : phase = .waiting e := hp
    obtain rfl | ⟨_, _, _, rfl⟩ := hphase <;> cases hp
  · have hp : phase = .sending e rest := hp
    obtain rfl | ⟨_, _, _, rfl⟩ := hphase <;> cases hp

/-- A request that waited for its listener. -/
theorem Tracked.resume {n : Nat} (h : Tracked s) (hg : Undisturbed key s (.resume n))
    (hs : s.resume n = some t) : Tracked t := by
  rw [State.resume] at hs
  split at hs
  · next request place entry reported ht =>
    obtain ⟨l, hl, rfl⟩ := (h.sending n _ ht).waiting entry rfl
    obtain ⟨task, ht', hf⟩ := h.following n l hl
    obtain rfl := Option.some.inj (ht.symm.trans ht')
    rw [Undisturbed, ht] at hg
    split at hs
    · next hset =>
      -- the entry is closed: its maker, and so this request, has nothing left
      rw [Option.any_eq_true] at hset
      obtain ⟨hd, hhd, hevent⟩ := hset
      have hover := hf.sentAll hl ht (h.closed _ ⟨hd, hhd, h.closedEvent _ hd hhd hevent⟩)
      have hsent : ∀ task, s.tasks n = some task →
          task.reported = true ∨ s.sentBy n = task.request.sendMessage := by
        intro task htask
        obtain rfl := Option.some.inj (ht.symm.trans htask)
        exact hover
      split at hs
      · cases hs
        exact h.finishTask n .completed (.inl rfl) (fun _ _ _ hp ↦ by cases hp) hsent
      · next registered handle hfound =>
        obtain ⟨e, hregistered, hfound⟩ := Option.bind_eq_some_iff.mp hfound
        obtain ⟨handle', hhandle, hpair⟩ := Option.map_eq_some_iff.mp hfound
        cases hpair
        split at hs
        · next hclosed =>
          cases hs
          exact ((h.setClosed ⟨handle, hhandle, hclosed⟩).remove place).finishTask n .completed
            (.inl rfl) (fun _ _ _ hp ↦ by cases hp) hsent
        · cases hs
          simp only [Option.all_some, hregistered, decide_eq_true_eq] at hg
          have hhandle' : (s.lockClosed registered).entries registered =
              some { handle with stopEvent := true, closed := true } := by
            simp [State.lockClosed, State.modifyEntry, hhandle]
          have he : (s.lockClosed registered).Closed registered := ⟨_, hhandle', rfl⟩
          have hcancel := (h.lockClosed hg).cancel hhandle' he handle.task fun _ hm ↦ hm
          refine hcancel.finishTask n _ (.inr ⟨_, _, _, rfl⟩) (fun e socket other hp ↦ ?_) ?_
          · cases hp
            rw [State.Closed]
            cases handle.task <;> exact he
          · cases handle.task <;> exact hsent
    · cases hs
  · cases hs

/-- A request that closed the entry itself. -/
theorem Tracked.resumed {n : Nat} (h : Tracked s) (hs : s.resumed n = some t) : Tracked t := by
  rw [State.resumed] at hs
  split at hs
  · next request place entry socket listener reported ht =>
    split at hs
    · cases hs
      have hsending := h.sending n _ ht
      have he : (s.closeSocket socket).Closed entry := by
        rw [State.Closed, entries_closeSocket]
        exact hsending.closing entry socket listener rfl
      refine (((h.closeSocket socket).setClosed he).remove place).finishTask n .completed (.inl rfl)
        (fun _ _ _ hp ↦ by cases hp) fun task htask ↦ ?_
      have htask : (s.closeSocket socket).tasks n = some task := htask
      rw [tasks_closeSocket] at htask
      obtain rfl := Option.some.inj (ht.symm.trans htask)
      have hover := hsending.sentAll (.inr ⟨_, _, _, rfl⟩)
      cases socket <;> exact hover
    · cases hs
  · cases hs

/-- A request whose sending raises. -/
theorem Tracked.sendRaises {n : Nat} (h : Tracked s) (hs : s.sendRaises n = some t) :
    Tracked t := by
  rw [State.sendRaises] at hs
  split at hs
  · cases hs
    refine h.modifyTask n _ (fun _ _ ↦ ⟨rfl, rfl, id⟩) fun task _ _ ↦
      ⟨fun e hp ↦ ?_, fun e rest hp ↦ ?_, fun e socket other hp ↦ ?_, fun hp ↦ ?_⟩
    · cases hp
    · cases hp
    · cases hp
    · obtain hp | ⟨_, _, _, hp⟩ := hp <;> cases hp
  · cases hs

/-- What was sent after one more message. -/
theorem sentBy_append (s : State) (n k m : Nat) (message : String) :
    State.sentBy { s with sent := s.sent ++ [(n, k, message)] } m =
      s.sentBy m ++ if n = m then [message] else [] := by
  rw [State.sentBy, State.sentBy, List.filter_append, List.map_append]
  split
  · next hnm => simp [hnm]
  · next hnm => simp [hnm]

/-- A request that sends the next message. -/
theorem Tracked.sendNext {n entry socket : Nat} {task : Task} {hd : Handle} {message : String}
    {rest : List String} (h : Tracked s) (ht : s.tasks n = some task)
    (hphase : task.phase = .sending entry (message :: rest)) (hhd : s.entries entry = some hd)
    (hsocket : hd.websocket = some socket) (phase : Processing)
    (hnext : phase = .completed ∧ rest = [] ∨ phase = .sending entry rest) :
    Tracked ({ s with sent := s.sent ++ [(n, socket, message)] }.modifyTask n
      fun task ↦ { task with phase }) := by
  obtain ⟨hnone, ⟨hd', hhd', hplace⟩, hmessages⟩ := (h.sending n task ht).sending _ _ hphase
  obtain rfl := Option.some.inj (hhd.symm.trans hhd')
  obtain ⟨l, hl, hlplace⟩ := h.websocket entry hd socket hhd hsocket
  have ha : Alters s ({ s with sent := s.sent ++ [(n, socket, message)] }.modifyTask n
      fun task ↦ { task with phase }) n := by
    refine ⟨rfl, rfl, rfl, rfl, fun _ _ ↦ rfl, fun m hm ↦ Function.update_of_ne hm _ _, rfl, ?_,
      fun m hm ↦ ?_, fun m k text hm ↦ ?_, fun hu ↦ ?_⟩
    · simp [State.modifyTask, ht]
    · refine (sentBy_append s n socket m message).trans ?_
      rw [if_neg (Ne.symm hm), List.append_nil]
    · obtain hm | hm := List.mem_append.mp hm
      · exact .inl hm
      · cases List.mem_singleton.mp hm
        exact .inr ⟨rfl, task, l, ht, hl, hlplace.trans hplace⟩
    · obtain ⟨hearly, -⟩ := hu
      simp [State.modifyTask, hnone] at hearly
  refine h.change ha (fun k hk ↦ ?_) fun after hafter ↦ ?_
  · have hk : s.listeners n = some k := hk
    rw [hnone] at hk
    cases hk
  · simp only [State.modifyTask, Function.update_self, ht, Option.map_some,
      Option.some.injEq] at hafter
    subst hafter
    have hsent : State.sentBy ({ s with sent := s.sent ++ [(n, socket, message)] }.modifyTask n
        fun task ↦ { task with phase }) n ++ rest = task.request.sendMessage := by
      refine .trans (congrArg (· ++ rest) (sentBy_append s n socket n message)) ?_
      rw [if_pos rfl, List.append_assoc, List.singleton_append]
      exact hmessages
    obtain ⟨rfl, rfl⟩ | rfl := hnext
    · refine ⟨fun e hp ↦ ?_, fun e rest hp ↦ ?_, fun e socket other hp ↦ ?_, fun _ ↦ .inr ?_⟩
      · cases hp
      · cases hp
      · cases hp
      · rw [List.append_nil] at hsent
        exact hsent
    · refine ⟨fun e hp ↦ ?_, fun e rest hp ↦ ?_, fun e socket other hp ↦ ?_, fun hp ↦ ?_⟩
      · cases hp
      · cases hp
        exact ⟨hnone, ⟨hd, hhd, hplace⟩, hsent⟩
      · cases hp
      · obtain hp | ⟨_, _, _, hp⟩ := hp <;> cases hp

/-- A request that sends a message. -/
theorem Tracked.send {n : Nat} (h : Tracked s) (hs : s.send n = some t) : Tracked t := by
  rw [State.send] at hs
  split at hs
  · next request place entry message rest reported ht =>
    split at hs
    · cases hs
    · next socket hfound =>
      obtain ⟨hd, hhd, hsocket⟩ := Option.bind_eq_some_iff.mp hfound
      split at hs
      · dsimp only at hs
        split at hs
        · next hrest =>
          cases hs
          exact (h.sendNext ht rfl hhd hsocket .completed (.inl ⟨rfl, hrest⟩)).refer entry _
            keeps_release
        · cases hs
          exact h.sendNext ht rfl hhd hsocket (.sending entry rest) (.inr rfl)
      · cases hs
  · cases hs

/-- A listener that sends a message of its request. -/
theorem Tracked.listenerSend {n : Nat} (h : Tracked s) (hs : s.listenerSend n = some t) :
    Tracked t := by
  rw [State.listenerSend] at hs
  split at hs
  · next place entry message rest hl =>
    split at hs
    · cases hs
      obtain ⟨task, ht, hf⟩ := h.following n _ hl
      have ha : Alters s ({ s with sent := s.sent ++ [(n, n, message)] }.modifyListener n fun l ↦
          { l with phase := if rest = [] then Listening.receiving else .sending rest }) n := by
        refine ⟨rfl, rfl, rfl, rfl, fun m hm ↦ Function.update_of_ne hm _ _, fun _ _ ↦ rfl, ?_,
          rfl, fun m hm ↦ ?_, fun m k text hm ↦ ?_, fun hu ↦ ⟨by simp [hl, Listening.early], hu.2⟩⟩
        · simp [State.modifyListener, hl]
        · refine (sentBy_append s n n m message).trans ?_
          rw [if_neg (Ne.symm hm), List.append_nil]
        · obtain hm | hm := List.mem_append.mp hm
          · exact .inl hm
          · cases List.mem_singleton.mp hm
            exact .inr ⟨rfl, task, _, ht, hl, hf.place.symm⟩
      have hsent : State.sentBy ({ s with sent := s.sent ++ [(n, n, message)] }.modifyListener n
          fun l ↦ { l with phase := if rest = [] then Listening.receiving else .sending rest }) n =
            s.sentBy n ++ [message] := by
        refine (sentBy_append s n n n message).trans ?_
        rw [if_pos rfl]
      refine h.change ha (fun k hk ↦ ⟨task, ht, ?_⟩) fun task' ht' ↦ ?_
      · simp only [State.modifyListener, Function.update_self, hl, Option.map_some,
          Option.some.injEq] at hk
        subst hk
        refine ⟨hf.place, hf.entry, hf.progress.imp_right fun hp ↦ ?_, hf.made, hf.cancelled,
          fun socket other hp ↦ ?_⟩
        · rw [Progress] at hp
          rw [hsent]
          split
          · next hnil =>
            rw [hnil] at hp
            exact hp
          · rw [Progress, List.append_assoc, List.singleton_append]
            exact hp
        · dsimp only at hp
          split at hp <;> cases hp
      · -- the request waits, or its error was reported: it has a message left
        obtain rfl := Option.some.inj (ht.symm.trans ht')
        obtain ⟨hwaiting, hsending, hclosing, hover⟩ := h.sending n task ht
        refine ⟨fun e hp ↦ ?_, fun e rest hp ↦ ?_, hclosing, fun hp ↦ .inl ?_⟩
        · obtain ⟨l, hk, hentry⟩ := hwaiting e hp
          obtain ⟨l', hl', -, hentry'⟩ := ha.listener_of hk
          exact ⟨l', hl', hentry'.trans hentry⟩
        · obtain ⟨hnone, -⟩ := hsending e rest hp
          rw [hl] at hnone
          cases hnone
        · refine (hover hp).elim id fun hall ↦ hf.progress.elim id fun hp ↦ ?_
          rw [Progress, hall] at hp
          simp at hp
    · cases hs
  · cases hs

/-- A request that is not known yet has sent nothing. -/
theorem Tracked.sentBy_fresh (h : Tracked s) {n : Nat} (hn : s.next ≤ n) : s.sentBy n = [] := by
  rw [State.sentBy, List.map_eq_nil_iff, List.filter_eq_nil_iff]
  rintro ⟨m, k, message⟩ hm hmn
  obtain ⟨task, l, ht, -⟩ := h.sent m k message hm
  obtain rfl : m = n := by simpa using hmn
  rw [(h.fresh m hn).1] at ht
  cases ht

/-- A task that has no listener. -/
theorem Tracked.finish (h : Tracked s) (place : Place) (request : Request) (phase : Processing)
    (reported : Bool)
    (hphase : phase = .raised ∨ phase = .completed ∧ reported = true ∨
      ∃ e, phase = .sending e request.sendMessage ∧ s.At e place) :
    Tracked (s.finish place request phase reported) := by
  obtain ⟨htask, hlistener, -⟩ := h.fresh s.next (Nat.le_refl _)
  have hnew : (s.finish place request phase reported).tasks s.next =
      some ⟨request, place, phase, reported⟩ := Function.update_self ..
  have hother : ∀ n, n ≠ s.next → (s.finish place request phase reported).tasks n = s.tasks n :=
    fun n hn ↦ Function.update_of_ne hn _ _
  have hold : ∀ n task, s.tasks n = some task →
      (s.finish place request phase reported).tasks n = some task := by
    intro n task ht
    have hn : n ≠ s.next := by
      rintro rfl
      rw [htask] at ht
      cases ht
    exact (hother n hn).trans ht
  refine ⟨fun n hn ↦ ?_, h.pooled, h.websocket, h.task, fun e he hu ↦ h.closed e he ?_,
    h.closedEvent, h.reaping, fun n l hl ↦ ?_, fun n task ht ↦ ?_, fun n k message hm ↦ ?_⟩
  · have hn : s.next + 1 ≤ n := hn
    obtain ⟨ht, hrest⟩ := h.fresh n (by omega)
    exact ⟨(hother n (by omega)).trans ht, hrest⟩
  · obtain ⟨hearly, hu⟩ := hu
    have hne : e ≠ s.next := by
      rintro rfl
      have hearly : (s.listeners s.next).any (·.phase.early) = true := hearly
      rw [hlistener] at hearly
      cases hearly
    rw [hother e hne] at hu
    exact ⟨hearly, hu⟩
  · obtain ⟨task, ht, hf⟩ := h.following n l hl
    exact ⟨task, hold n task ht, hf.place, hf.entry, hf.progress, hf.made, hf.cancelled, hf.closing⟩
  · by_cases hn : n = s.next
    · subst hn
      obtain rfl := Option.some.inj (hnew.symm.trans ht)
      obtain rfl | ⟨rfl, rfl⟩ | ⟨e, rfl, hat⟩ := hphase
      · refine ⟨fun e hp ↦ ?_, fun e rest hp ↦ ?_, fun e socket other hp ↦ ?_, fun hp ↦ ?_⟩
        · cases hp
        · cases hp
        · cases hp
        · obtain hp | ⟨_, _, _, hp⟩ := hp <;> cases hp
      · refine ⟨fun e hp ↦ ?_, fun e rest hp ↦ ?_, fun e socket other hp ↦ ?_, fun _ ↦ .inl rfl⟩
        · cases hp
        · cases hp
        · cases hp
      · refine ⟨fun e hp ↦ ?_, fun e rest hp ↦ ?_, fun e socket other hp ↦ ?_, fun hp ↦ ?_⟩
        · cases hp
        · cases hp
          refine ⟨hlistener, hat, ?_⟩
          have hnone := h.sentBy_fresh (Nat.le_refl s.next)
          rw [State.sentBy] at hnone ⊢
          exact congrArg (· ++ request.sendMessage) hnone
        · cases hp
        · obtain hp | ⟨_, _, _, hp⟩ := hp <;> cases hp
    · rw [hother n hn] at ht
      obtain ⟨hwaiting, hsending, hclosing, hover⟩ := h.sending n task ht
      exact ⟨hwaiting, hsending, hclosing, hover⟩
  · obtain ⟨task, l, ht, hl, hplace⟩ := h.sent n k message hm
    exact ⟨task, l, hold n task ht, hl, hplace⟩

/-- A new listener on an entry: its own one, or that of another when it has no messages. -/
theorem Tracked.attach (h : Tracked s) (place : Place) (e : Nat) (hd : Handle) (request : Request)
    (hplace : hd.place = place)
    (hweb : ∀ k, hd.websocket = some k → ∃ l, s.listeners k = some l ∧ l.place = place)
    (hevent : hd.closedEvent = true → hd.closed = true)
    (hentry : e = s.next ∧ hd.closed = false ∨
      s.entries e = some hd ∧ request.sendMessage = []) :
    Tracked { s with
      pool := Function.update s.pool place (some e)
      entries := Function.update s.entries e (some { hd with task := some s.next })
      listeners := Function.update s.listeners s.next (some ⟨place, e, .connecting, false⟩)
      tasks := Function.update s.tasks s.next (some ⟨request, place, .waiting e, false⟩)
      next := s.next + 1 } := by
  obtain ⟨htask, hlistener, hnone⟩ := h.fresh s.next (Nat.le_refl _)
  have hne : ∀ {n l}, s.listeners n = some l → n ≠ s.next := by
    rintro n l hl rfl
    rw [hlistener] at hl
    cases hl
  have hnet : ∀ {n task}, s.tasks n = some task → n ≠ s.next := by
    rintro n task ht rfl
    rw [htask] at ht
    cases ht
  have hold : ∀ {b}, s.entries e = some b → b = hd := by
    intro b hb
    obtain ⟨rfl, -⟩ | ⟨hhd, -⟩ := hentry
    · rw [hnone] at hb
      cases hb
    · exact Option.some.inj (hb.symm.trans hhd)
  -- what an entry was, it still is
  have hkeep : ∀ (P : Handle → Prop), (P hd → P { hd with task := some s.next }) →
      ∀ m, (∃ b, s.entries m = some b ∧ P b) →
        ∃ b, Function.update s.entries e (some { hd with task := some s.next }) m = some b ∧
          P b := by
    rintro P hp m ⟨b, hb, hpb⟩
    by_cases hm : m = e
    · subst hm
      rw [hold hb] at hpb
      exact ⟨_, Function.update_self .., hp hpb⟩
    · exact ⟨b, (Function.update_of_ne hm _ _).trans hb, hpb⟩
  refine ⟨fun n hn ↦ ?_, fun p m hm ↦ ?_, fun m b k hm hk ↦ ?_, fun m b k hm hk ↦ ?_,
    fun m hm hu ↦ ?_, fun m b hm hb ↦ ?_, fun m hm ↦ hkeep _ id m (h.reaping m hm),
    fun n l hl ↦ ?_, fun n task ht ↦ ?_, fun n k message hm ↦ ?_⟩
  · have hn : s.next + 1 ≤ n := hn
    obtain ⟨ht, hl, hb⟩ := h.fresh n (by omega)
    have hn' : n ≠ s.next := by omega
    refine ⟨(Function.update_of_ne hn' _ _).trans ht, (Function.update_of_ne hn' _ _).trans hl,
      (Function.update_of_ne ?_ _ _).trans hb⟩
    rintro rfl
    obtain ⟨rfl, -⟩ | ⟨hhd, -⟩ := hentry
    · exact hn' rfl
    · rw [hb] at hhd
      cases hhd
  · obtain ⟨rfl, rfl⟩ | ⟨-, hm⟩ := entry_of_insert hm
    · exact ⟨_, Function.update_self .., hplace⟩
    · exact hkeep _ id m (h.pooled p m hm)
  · have hfound : ∃ l, s.listeners k = some l ∧ l.place = b.place := by
      obtain ⟨rfl, rfl⟩ | ⟨-, hm⟩ := entry_of_insert hm
      · rw [hplace]
        exact hweb k hk
      · exact h.websocket m b k hm hk
    obtain ⟨l, hl, hlplace⟩ := hfound
    exact ⟨l, (Function.update_of_ne (hne hl) _ _).trans hl, hlplace⟩
  · obtain ⟨rfl, rfl⟩ | ⟨-, hm⟩ := entry_of_insert hm
    · cases hk
      exact ⟨_, Function.update_self .., rfl⟩
    · obtain ⟨l, hl, hlentry⟩ := h.task m b k hm hk
      exact ⟨l, (Function.update_of_ne (hne hl) _ _).trans hl, hlentry⟩
  · obtain ⟨b, hm, hb⟩ := hm
    by_cases hmn : m = s.next
    · subst hmn
      obtain ⟨he, rfl⟩ | ⟨-, hm⟩ := entry_of_insert hm
      · obtain ⟨-, hopen⟩ | ⟨hhd, -⟩ := hentry
        · rw [hopen] at hb
          cases hb
        · rw [← he, hnone] at hhd
          cases hhd
      · rw [hnone] at hm
        cases hm
    · obtain ⟨hearly, hu⟩ := hu
      simp only [Function.update_of_ne hmn] at hearly hu
      refine h.closed m ?_ ⟨hearly, hu⟩
      obtain ⟨rfl, rfl⟩ | ⟨-, hm⟩ := entry_of_insert hm
      · exact ⟨hd, (hentry.resolve_left fun hn ↦ hmn hn.1).1, hb⟩
      · exact ⟨b, hm, hb⟩
  · obtain ⟨rfl, rfl⟩ | ⟨-, hm⟩ := entry_of_insert hm
    · exact hevent hb
    · exact h.closedEvent m b hm hb
  · obtain ⟨rfl, rfl⟩ | ⟨hn, hl⟩ := entry_of_insert hl
    · refine ⟨_, Function.update_self .., rfl, hentry.imp And.left And.right, .inr ?_, ?_,
        fun hc ↦ ?_, fun socket other hp ↦ ?_⟩
      · exact h.sentBy_fresh (Nat.le_refl s.next)
      · exact ⟨_, Function.update_self ..⟩
      · cases hc
      · cases hp
    · obtain ⟨task, ht, hf⟩ := h.following n l hl
      obtain ⟨b, hb⟩ := hf.made
      obtain ⟨b', hb', -⟩ := hkeep (fun _ ↦ True) (fun _ ↦ trivial) _ ⟨b, hb, trivial⟩
      exact ⟨task, (Function.update_of_ne hn _ _).trans ht, hf.place, hf.entry, hf.progress,
        ⟨b', hb'⟩, fun hc ↦ hkeep _ id _ (hf.cancelled hc),
        fun socket other hp ↦ hkeep _ id _ (hf.closing socket other hp)⟩
  · obtain ⟨rfl, rfl⟩ | ⟨hn, ht⟩ := entry_of_insert ht
    · refine ⟨fun m hp ↦ ?_, fun m rest hp ↦ ?_, fun m socket other hp ↦ ?_, fun hp ↦ ?_⟩
      · cases hp
        exact ⟨_, Function.update_self .., rfl⟩
      · cases hp
      · cases hp
      · obtain hp | ⟨_, _, _, hp⟩ := hp <;> cases hp
    · obtain ⟨hwaiting, hsending, hclosing, hover⟩ := h.sending n task ht
      refine ⟨fun m hp ↦ ?_, fun m rest hp ↦ ?_,
        fun m socket other hp ↦ hkeep _ id m (hclosing m socket other hp), hover⟩
      · obtain ⟨l, hl, hlentry⟩ := hwaiting m hp
        exact ⟨l, (Function.update_of_ne hn _ _).trans hl, hlentry⟩
      · obtain ⟨hnone, hat, hrest⟩ := hsending m rest hp
        exact ⟨(Function.update_of_ne hn _ _).trans hnone, hkeep _ id m hat, hrest⟩
  · obtain ⟨task, l, ht, hl, hlplace⟩ := h.sent n k message hm
    exact ⟨task, l, (Function.update_of_ne (hnet ht) _ _).trans ht,
      (Function.update_of_ne (hne hl) _ _).trans hl, hlplace⟩

/-- A request that connects; where it finds an entry, it has no messages. -/
theorem Tracked.connect (h : Tracked s) (key : String → Digest) (wrapper : Nat) (request : Request)
    (hmessages : s.pool (wrapper, (key request.url).1) ≠ none → request.sendMessage = []) :
    Tracked (s.connect key wrapper request) := by
  rw [State.connect]
  cases hpool : s.pool (wrapper, (key request.url).1) with
  | none =>
    simp only [Option.getD_none, Option.bind_none]
    refine h.attach _ _ { Entry.init request.url with
      place := (wrapper, (key request.url).1), task := none, closedEvent := false } request rfl
      (fun k hk ↦ ?_) (fun hevent ↦ ?_) (.inl ⟨rfl, rfl⟩)
    · cases hk
    · cases hevent
  | some e =>
    obtain ⟨hd, hhd, hplace⟩ := h.pooled _ e hpool
    simp only [Option.getD_some, Option.bind_some, hhd]
    refine h.attach _ _ hd request hplace (fun k hk ↦ ?_) (h.closedEvent e hd hhd)
      (.inr ⟨hhd, hmessages (by simp [hpool])⟩)
    rw [← hplace]
    exact h.websocket e hd k hhd hk

/-- What a request finds. -/
theorem found_of_bind {wrapper e : Nat} {request : Request} {hd : Handle}
    (hfound : ((s.pool (wrapper, request.poolKey key)).bind fun entry ↦
      (s.entries entry).map (entry, ·)) = some (e, hd)) :
    s.pool (wrapper, request.poolKey key) = some e ∧ s.entries e = some hd ∧
      s.found key wrapper request = some hd := by
  obtain ⟨entry, hpool, hfound⟩ := Option.bind_eq_some_iff.mp hfound
  obtain ⟨handle, hhd, hpair⟩ := Option.map_eq_some_iff.mp hfound
  cases hpair
  refine ⟨hpool, hhd, ?_⟩
  rw [State.found, hpool, Option.bind_some, hhd]

/-- `process_websocket_request` under the condition. -/
theorem Tracked.process (h : Tracked s) (wrapper : Nat) (request : Request)
    (hg : Undisturbed key s (.process wrapper request)) :
    Tracked (s.process key wrapper request) := by
  rw [State.process]
  split
  · exact h.finish _ _ _ _ (.inl rfl)
  · split
    · exact h.finish _ _ _ _ (.inr (.inl ⟨rfl, rfl⟩))
    · next hnone =>
      rw [not_and'] at hnone
      split
      · next entry handle hfound =>
        obtain ⟨hpool, hhd, hfound'⟩ := found_of_bind hfound
        rw [hfound] at hnone
        split
        · next hempty => exact h.connect key wrapper request fun _ ↦ hempty
        · next hne =>
          split
          · next hsocket =>
            -- the condition excludes a send before the connection
            exfalso
            have hid : request.websocketId = "" := by simpa using hnone hsocket
            have hg := hg hne hid
            rw [hfound', Option.all_some, hsocket] at hg
            cases hg
          · obtain ⟨hd, hhd', hplace⟩ := h.pooled _ entry hpool
            exact h.finish _ _ _ _ (.inr (.inr ⟨entry, rfl, hd, hhd', hplace⟩))
      · next hfound =>
        rw [hfound] at hnone
        have hid : request.websocketId = "" := by simpa using hnone rfl
        refine h.connect key wrapper request fun hpool ↦ ?_
        obtain ⟨e, hpool⟩ := Option.ne_none_iff_exists'.mp hpool
        obtain ⟨hd, hhd, -⟩ := h.pooled _ e hpool
        rw [Request.poolKey, if_pos hid, hpool, Option.bind_some, hhd] at hfound
        cases hfound

/-- One event under the condition. -/
theorem Tracked.step {e : Event} (h : Tracked s) (hg : Undisturbed key s e)
    (hs : s.step key e = some t) : Tracked t := by
  cases e with
  | process wrapper request =>
    rw [State.step] at hs
    split at hs
    · cases hs
    · cases hs
      exact h.process wrapper request hg
  | send n => exact h.send hs
  | sendRaises n => exact h.sendRaises hs
  | connected n stopping => exact h.connected hg hs
  | listenerSend n => exact h.listenerSend hs
  | failed n => exact h.failed hg hs
  | stopped n => exact h.stopped hg hs
  | closed n => exact h.closing hs
  | unwound n => exact h.unwound hs
  | resume n => exact h.resume hg hs
  | resumed n => exact h.resumed hs
  | acquire entry =>
    cases hs
    exact h.refer entry _ keeps_acquire
  | endWebsocket entry =>
    cases hs
    exact h.refer entry _ (keeps_release.comp keeps_markEnd)
  | requestStop entry =>
    cases hs
    exact h.refer entry _ keeps_requestStop
  | dropped n =>
    cases hs
    exact h.environment _ s.popped
  | pop wrapper =>
    cases hs
    exact h.environment s.live _
  | reap place => exact h.reap hg hs
  | reaped entry => exact h.reaped hs
  | cleared place =>
    rw [State.step, State.cleared] at hs
    split at hs
    · cases hs
      exact h.remove place
    · cases hs

/-- Nothing was sent at first. -/
theorem tracked_initial : Tracked State.initial where
  fresh _ _ := ⟨rfl, rfl, rfl⟩
  pooled _ _ h := by cases h
  websocket _ _ _ h := by cases h
  task _ _ _ h := by cases h
  closed _ h := by
    obtain ⟨_, h, -⟩ := h
    cases h
  closedEvent _ _ h := by cases h
  reaping _ h := absurd rfl h
  following _ _ h := by cases h
  sending _ _ h := by cases h
  sent _ _ _ h := by cases h

/-! ## What is sent, is sent on an open connection -/

@[simp] theorem sent_finally (s : State) (n e : Nat) : (s.finally n e).sent = s.sent := by
  rw [State.finally]
  split
  · rfl
  · split
    · rfl
    · dsimp only
      split
      · rfl
      · next handle _ _ _ => cases handle.task <;> rfl

@[simp] theorem sent_cancel (s : State) (listener : Option Nat) :
    (s.cancel listener).sent = s.sent := by
  cases listener <;> rfl

@[simp] theorem sent_closeSocket (s : State) (socket : Option Nat) :
    (s.closeSocket socket).sent = s.sent := by
  cases socket <;> rfl

theorem sent_process (s : State) (wrapper : Nat) (request : Request) :
    (s.process key wrapper request).sent = s.sent := by
  rw [State.process]
  split
  · rfl
  · split
    · rfl
    · split
      · split
        · rfl
        · split <;> rfl
      · rfl

theorem sent_connected {n : Nat} {stopping : Bool} (hs : s.connected n stopping = some t) :
    t.sent = s.sent := by
  rw [State.connected] at hs
  split at hs
  · dsimp only at hs
    split at hs
    · cases hs
      rw [sent_finally]
      rfl
    · split at hs
      · cases hs
        rw [sent_finally]
        rfl
      · cases hs
        rfl
  · cases hs

theorem sent_resume {n : Nat} (hs : s.resume n = some t) : t.sent = s.sent := by
  rw [State.resume] at hs
  split at hs
  · split at hs
    · split at hs
      · cases hs
        rfl
      · split at hs
        · cases hs
          rfl
        · cases hs
          exact sent_cancel _ _
    · cases hs
  · cases hs

theorem sent_reap {place : Place} (hs : s.reap place = some t) : t.sent = s.sent := by
  rw [State.reap] at hs
  split at hs
  · split at hs
    · cases hs
    · split at hs
      · cases hs
        rfl
      · cases hs
        exact sent_cancel _ _
  · cases hs

/-- A request or a listener sends on the connection of its entry. -/
theorem sendsLive_step {e : Event} (hs : s.step key e = some t) : s.SendsLive t := by
  cases e with
  | process wrapper request =>
    rw [State.step] at hs
    split at hs
    · cases hs
    · cases hs
      exact .inl (sent_process s wrapper request)
  | send n =>
    rw [State.step, State.send] at hs
    split at hs
    · next message rest _ _ =>
      split at hs
      · cases hs
      · next socket _ =>
        split at hs
        · next hlive =>
          refine .inr ⟨n, socket, message, hlive, ?_⟩
          dsimp only at hs
          split at hs
          · cases hs
            rfl
          · cases hs
            rfl
        · cases hs
    · cases hs
  | listenerSend n =>
    rw [State.step, State.listenerSend] at hs
    split at hs
    · next message rest _ =>
      split at hs
      · next hlive =>
        cases hs
        exact .inr ⟨n, n, message, hlive, rfl⟩
      · cases hs
    · cases hs
  | connected n stopping => exact .inl (sent_connected hs)
  | resume n => exact .inl (sent_resume hs)
  | reap place => exact .inl (sent_reap hs)
  | sendRaises n =>
    rw [State.step, State.sendRaises] at hs
    split at hs <;> cases hs
    exact .inl rfl
  | failed n =>
    rw [State.step, State.failed] at hs
    split at hs <;> cases hs
    · exact .inl (sent_finally _ _ _)
    · exact .inl (sent_finally _ _ _)
    · exact .inl (sent_finally _ _ _)
  | stopped n =>
    rw [State.step, State.stopped] at hs
    split at hs <;> cases hs
    exact .inl (sent_finally _ _ _)
  | closed n =>
    rw [State.step, State.closed] at hs
    split at hs
    · split at hs <;> cases hs
      exact .inl (sent_closeSocket _ _)
    · cases hs
  | unwound n =>
    rw [State.step, State.unwound] at hs
    split at hs <;> cases hs
    exact .inl rfl
  | resumed n =>
    rw [State.step, State.resumed] at hs
    split at hs
    · split at hs <;> cases hs
      exact .inl (sent_closeSocket _ _)
    · cases hs
  | reaped entry =>
    rw [State.step, State.reaped] at hs
    split at hs
    · cases hs
    · split at hs <;> cases hs
      exact .inl (sent_closeSocket _ _)
  | cleared place =>
    rw [State.step, State.cleared] at hs
    split at hs <;> cases hs
    exact .inl rfl
  | acquire entry =>
    cases hs
    exact .inl rfl
  | endWebsocket entry =>
    cases hs
    exact .inl rfl
  | requestStop entry =>
    cases hs
    exact .inl rfl
  | dropped n =>
    cases hs
    exact .inl rfl
  | pop wrapper =>
    cases hs
    exact .inl rfl

/-- In every run whose steps disturb no request that has messages left, the messages of completed
requests were sent, once and in order, on open connections of their places. -/
theorem messages_delivered (key : String → Digest)
    (h : (machine key).Reach (Undisturbed key) s) :
    s.Delivered ∧ ∀ e t, (machine key).step s e = some t → s.SendsLive t := by
  have htracked : Tracked s :=
    h.invariant (fun _ hinit ↦ hinit ▸ tracked_initial) fun _ _ _ _ hs hg hstep ↦ hs.step hg hstep
  exact ⟨htracked.delivered, fun _ _ ↦ sendsLive_step⟩

/-- A connection with a message of its own, and two more messages after it. -/
def connectAndSend : List Event :=
  [.process 0 (urlRequest 0 ["login"]), .connected 0 false, .listenerSend 0,
    .process 0 (urlRequest 1 ["a", "b"]), .send 1, .send 1]

theorem messages_delivered_connectAndSend :
    (((machine twoDigests).runIf (Undisturbed twoDigests) .initial connectAndSend).getD
      .initial).Delivered :=
  (messages_delivered twoDigests (.runIf connectAndSend (.init rfl) rfl)).1

/-- A message for a URL whose connection is being established. -/
def sendWhileConnecting : List Event :=
  [.process 0 (urlRequest 0 []), .process 0 (urlRequest 1 ["hello"])]

/-- It is dropped, and its request completed. -/
theorem early_message_dropped : ¬ ∀ s, (machine twoDigests).Reachable s → s.Delivered := by
  intro h
  have hreached : (machine twoDigests).Reachable
      (((machine twoDigests).run .initial sendWhileConnecting).getD .initial) :=
    .run sendWhileConnecting (.init rfl) rfl
  have hsent := (h _ hreached).completed 1 _ rfl rfl rfl
  exact absurd hsent (by decide)

end ScrapyCffi.Sessions.Listeners
