import ScrapyCffi.Sessions.Delivery
import ScrapyCffi.Sessions.Listeners

/-!
# One listener for each session and URL

A place of a pool has at most one running listener and one connection, and its entry is that
listener's, as long as no request without messages finds an entry there.
-/

namespace ScrapyCffi.Sessions.Listeners

open ScrapyCffi.Base ScrapyCffi.Sessions.WebSockets

/-- At most one listener that runs and one connection at each place. A listener that runs is that
of its place's entry, unless the reaper has cleared the pool of its session. A request with a
`websocket_id` has neither a listener nor a connection. -/
structure State.Sole (s : State) : Prop where
  listeners : ∀ m n l k, s.listeners m = some l → s.listeners n = some k → l.phase ≠ .ended →
    k.phase ≠ .ended → l.place = k.place → m = n
  connections : ∀ m n l k, s.listeners m = some l → s.listeners n = some k → s.live m = true →
    s.live n = true → l.place = k.place → m = n
  kept : ∀ n l, s.listeners n = some l → l.phase ≠ .ended →
    (∃ entry handle, s.pool l.place = some entry ∧ s.entries entry = some handle ∧
      handle.task = some n) ∨ s.popped l.place.1 = true ∧ s.pool l.place = none
  unaddressed : ∀ n task, s.tasks n = some task → task.request.websocketId ≠ "" →
    s.listeners n = none ∧ s.live n = false

variable (key : String → Digest)

/-- The entry that a request finds. -/
def State.found (s : State) (wrapper : Nat) (request : Request) : Option Handle :=
  (s.pool (wrapper, request.poolKey key)).bind s.entries

/-- A request without messages finds no entry for its URL, and by its `websocket_id` none that is
connected. -/
def ConnectsOnce (s : State) : Event → Prop
  | .process wrapper request => request.sendMessage = [] →
    if request.websocketId = "" then s.found key wrapper request = none
    else (s.found key wrapper request).bind (·.websocket) = none
  | _ => True

instance (s : State) : ∀ e, Decidable (ConnectsOnce key s e)
  | .process _ request =>
    inferInstanceAs (Decidable (_ → if request.websocketId = "" then _ = none else _ = none))
  | .send _ | .sendRaises _ | .connected .. | .listenerSend _ | .failed _ | .stopped _ | .closed _
  | .unwound _ | .resume _ | .resumed _ | .acquire _ | .endWebsocket _ | .requestStop _
  | .dropped _ | .pop _ | .reap _ | .reaped _ | .cleared _ => .isTrue trivial

/-- The pool has the entry `n`, or the reaper has cleared it. -/
def Pooled (popped : Bool) (pooled : Option Nat) (n : Nat) : Prop :=
  pooled = some n ∨ popped = true ∧ pooled = none

/-- A listener `n` with its entry and its task: what they say of each other, of the connection and
of the pool at their place. -/
structure Cell (popped live : Bool) (pooled : Option Nat) (n : Nat) (l : Listener) (h : Handle)
    (t : Task) : Prop where
  entry : l.entry = n
  task : h.task = some n
  websocket : ∀ k, h.websocket = some k → k = n
  unaddressed : t.request.websocketId = ""
  phase : t.phase = .waiting n ∧ Pooled popped pooled n ∨ t.phase = .completed
  place : t.place = l.place
  cancelled : l.cancelled = true → popped = true ∧ h.closed = true
  pooled : l.phase ≠ .ended ∨ live = true → Pooled popped pooled n
  connecting : l.phase = .connecting → live = false
  opened : (∃ rest, l.phase = .sending rest) ∨ l.phase = .receiving → h.websocket = some n
  unlocked : l.phase = .connecting ∨ (∃ rest, l.phase = .sending rest) ∨ l.phase = .receiving →
    popped = true ∨ h.closed = false
  closing : ∀ socket listener, l.phase = .closing socket listener →
    h.closed = true ∧ (popped = true ∨ socket = some n ∨ live = false) ∧
      ∀ k, socket = some k → k = n
  ended : l.phase = .ended → popped = true ∨ live = false
  closedEvent : h.closedEvent = true → h.closed = true ∧ (popped = true ∨ l.phase = .ended)

/-- Whether a listener runs or its connection is open. -/
def State.Busy (s : State) (n : Nat) (place : Place) : Prop :=
  ∃ l, s.listeners n = some l ∧ l.place = place ∧ (l.phase ≠ .ended ∨ s.live n = true)

/-- The invariant of the runs. -/
structure Single (s : State) : Prop where
  fresh : ∀ n, s.next ≤ n → s.listeners n = none ∧ s.entries n = none ∧ s.tasks n = none ∧
    s.live n = false ∧ s.reaping n = none
  cell : ∀ n l, s.listeners n = some l → ∃ h t, s.entries n = some h ∧ s.tasks n = some t ∧
    Cell (s.popped l.place.1) (s.live n) (s.pool l.place) n l h t
  listener : ∀ n, s.entries n ≠ none ∨ s.live n = true → s.listeners n ≠ none
  sender : ∀ n t, s.tasks n = some t → s.listeners n = none →
    (∀ e, t.phase ≠ .waiting e) ∧ ∀ e socket listener, t.phase ≠ .closing e socket listener
  registered : ∀ place e, s.pool place = some e → ∃ l, s.listeners e = some l ∧ l.place = place
  reaping : ∀ e r, s.reaping e = some r → ∃ l h, s.listeners e = some l ∧ s.entries e = some h ∧
    s.popped l.place.1 = true ∧ h.closed = true ∧ ∀ k, r.socket = some k → k = e
  busy : ∀ m n place, s.Busy m place → s.Busy n place → m = n

variable {key} {s t : State}

/-- The invariant is enough. -/
theorem Single.sole (h : Single s) : s.Sole where
  listeners m n l k hl hk hml hnk hplace :=
    h.busy m n k.place ⟨l, hl, hplace, .inl hml⟩ ⟨k, hk, rfl, .inl hnk⟩
  connections m n l k hl hk hml hnk hplace :=
    h.busy m n k.place ⟨l, hl, hplace, .inr hml⟩ ⟨k, hk, rfl, .inr hnk⟩
  kept n l hl hphase := by
    obtain ⟨handle, task, hentry, -, hcell⟩ := h.cell n l hl
    exact (hcell.pooled (.inl hphase)).imp_left fun hpool ↦ ⟨n, handle, hpool, hentry, hcell.task⟩
  unaddressed n task htask hid := by
    have hnone : s.listeners n = none := by
      cases hl : s.listeners n with
      | none => rfl
      | some l =>
        obtain ⟨_, task', -, htask', hcell⟩ := h.cell n l hl
        rw [htask'] at htask
        cases htask
        exact absurd hcell.unaddressed hid
    refine ⟨hnone, Bool.eq_false_iff.mpr fun hlive ↦ h.listener n (.inr hlive) hnone⟩

/-- A state that differs in one number only. -/
structure OnlyAt (s t : State) (n : Nat) : Prop where
  entries : ∀ m, m ≠ n → t.entries m = s.entries m
  listeners : ∀ m, m ≠ n → t.listeners m = s.listeners m
  tasks : ∀ m, m ≠ n → t.tasks m = s.tasks m
  live : ∀ m, m ≠ n → t.live m = s.live m
  reaping : ∀ m, m ≠ n → t.reaping m = s.reaping m
  pool : t.pool = s.pool
  popped : t.popped = s.popped
  next : t.next = s.next

/-- A change of one listener with its entry, task and connection. -/
theorem Single.change {n : Nat} {l : Listener} (h : Single s) (ho : OnlyAt s t n)
    (hl : s.listeners n = some l) (l' : Listener) (h' : Handle) (t' : Task) (hl' : t.listeners n = some l')
    (hh' : t.entries n = some h') (ht' : t.tasks n = some t') (hplace : l'.place = l.place)
    (hcell : Cell (s.popped l.place.1) (t.live n) (s.pool l.place) n l' h' t')
    (hbusy : l'.phase ≠ .ended ∨ t.live n = true → l.phase ≠ .ended ∨ s.live n = true)
    (hreaping : ∀ r, t.reaping n = some r →
      s.popped l.place.1 = true ∧ h'.closed = true ∧ ∀ k, r.socket = some k → k = n) :
    Single t := by
  have hlt : n < s.next := by
    by_contra hge
    rw [(h.fresh n (by omega)).1] at hl
    cases hl
  have hb : ∀ m place, t.Busy m place → s.Busy m place := by
    rintro m place ⟨k, hk, rfl, hm⟩
    by_cases hmn : m = n
    · subst hmn
      rw [hl'] at hk
      cases hk
      exact ⟨l, hl, hplace.symm, hbusy hm⟩
    · rw [ho.listeners m hmn] at hk
      rw [ho.live m hmn] at hm
      exact ⟨k, hk, rfl, hm⟩
  refine ⟨?_, ?_, ?_, ?_, ?_, ?_, fun m k place hm hk ↦ h.busy m k place (hb m place hm)
    (hb k place hk)⟩
  · intro m hm
    rw [ho.next] at hm
    have hne : m ≠ n := by omega
    rw [ho.listeners m hne, ho.entries m hne, ho.tasks m hne, ho.live m hne, ho.reaping m hne]
    exact h.fresh m hm
  · intro m k hk
    rw [ho.popped, ho.pool]
    by_cases hmn : m = n
    · subst hmn
      rw [hl'] at hk
      cases hk
      exact ⟨h', t', hh', ht', by rw [hplace]; exact hcell⟩
    · rw [ho.listeners m hmn] at hk
      rw [ho.entries m hmn, ho.tasks m hmn, ho.live m hmn]
      exact h.cell m k hk
  · intro m hm
    by_cases hmn : m = n
    · subst hmn
      simp [hl']
    · rw [ho.entries m hmn, ho.live m hmn] at hm
      rw [ho.listeners m hmn]
      exact h.listener m hm
  · intro m task htask hnone
    by_cases hmn : m = n
    · subst hmn
      rw [hl'] at hnone
      cases hnone
    · rw [ho.tasks m hmn] at htask
      rw [ho.listeners m hmn] at hnone
      exact h.sender m task htask hnone
  · intro place e he
    rw [ho.pool] at he
    obtain ⟨k, hk, hkplace⟩ := h.registered place e he
    by_cases hen : e = n
    · subst hen
      rw [hl] at hk
      cases hk
      exact ⟨l', hl', hplace.trans hkplace⟩
    · exact ⟨k, by rw [ho.listeners e hen]; exact hk, hkplace⟩
  · intro e r hr
    rw [ho.popped]
    by_cases hen : e = n
    · subst hen
      obtain ⟨hp, hc⟩ := hreaping r hr
      exact ⟨l', h', hl', hh', by rw [hplace]; exact hp, hc⟩
    · rw [ho.reaping e hen] at hr
      rw [ho.listeners e hen, ho.entries e hen]
      exact h.reaping e r hr

/-- What a reaper closes. -/
theorem Single.reaping_cell {n : Nat} {l : Listener} {hd : Handle} (h : Single s)
    (hl : s.listeners n = some l) (hh : s.entries n = some hd) {r : Reaping}
    (hr : s.reaping n = some r) :
    s.popped l.place.1 = true ∧ hd.closed = true ∧ ∀ k, r.socket = some k → k = n := by
  obtain ⟨k, hk, hkl, hkh, hfacts⟩ := h.reaping n r hr
  rw [hl] at hkl
  rw [hh] at hkh
  cases hkl
  cases hkh
  exact hfacts

/-! ## Steps of one listener -/

section OnlyAt

variable {n : Nat} {u : State}

theorem OnlyAt.trans (h : OnlyAt s t n) (h' : OnlyAt t u n) : OnlyAt s u n where
  entries m hm := (h'.entries m hm).trans (h.entries m hm)
  listeners m hm := (h'.listeners m hm).trans (h.listeners m hm)
  tasks m hm := (h'.tasks m hm).trans (h.tasks m hm)
  live m hm := (h'.live m hm).trans (h.live m hm)
  reaping m hm := (h'.reaping m hm).trans (h.reaping m hm)
  pool := h'.pool.trans h.pool
  popped := h'.popped.trans h.popped
  next := h'.next.trans h.next

theorem onlyAt_modifyEntry (s : State) (n : Nat) (f : Handle → Handle) :
    OnlyAt s (s.modifyEntry n f) n :=
  ⟨fun _ hm ↦ Function.update_of_ne hm _ _, fun _ _ ↦ rfl, fun _ _ ↦ rfl, fun _ _ ↦ rfl,
    fun _ _ ↦ rfl, rfl, rfl, rfl⟩

theorem onlyAt_modifyListener (s : State) (n : Nat) (f : Listener → Listener) :
    OnlyAt s (s.modifyListener n f) n :=
  ⟨fun _ _ ↦ rfl, fun _ hm ↦ Function.update_of_ne hm _ _, fun _ _ ↦ rfl, fun _ _ ↦ rfl,
    fun _ _ ↦ rfl, rfl, rfl, rfl⟩

theorem onlyAt_modifyTask (s : State) (n : Nat) (f : Task → Task) :
    OnlyAt s (s.modifyTask n f) n :=
  ⟨fun _ _ ↦ rfl, fun _ _ ↦ rfl, fun _ hm ↦ Function.update_of_ne hm _ _, fun _ _ ↦ rfl,
    fun _ _ ↦ rfl, rfl, rfl, rfl⟩

theorem onlyAt_live (s : State) (n : Nat) (live : Bool) :
    OnlyAt s { s with live := Function.update s.live n live } n :=
  ⟨fun _ _ ↦ rfl, fun _ _ ↦ rfl, fun _ _ ↦ rfl, fun _ hm ↦ Function.update_of_ne hm _ _,
    fun _ _ ↦ rfl, rfl, rfl, rfl⟩

theorem onlyAt_sent (s : State) (n : Nat) (sent : List (Nat × Nat × String)) :
    OnlyAt s { s with sent } n :=
  ⟨fun _ _ ↦ rfl, fun _ _ ↦ rfl, fun _ _ ↦ rfl, fun _ _ ↦ rfl, fun _ _ ↦ rfl, rfl, rfl, rfl⟩

end OnlyAt

/-- A listener that is about to close its entry, with its entry and its task. -/
structure Leaving (popped live : Bool) (pooled : Option Nat) (n : Nat) (l : Listener) (h : Handle)
    (t : Task) : Prop where
  entry : l.entry = n
  task : h.task = some n
  websocket : ∀ k, h.websocket = some k → k = n
  unaddressed : t.request.websocketId = ""
  phase : t.phase = .waiting n ∧ Pooled popped pooled n ∨ t.phase = .completed
  place : t.place = l.place
  cancelled : l.cancelled = true → popped = true ∧ h.closed = true
  pooled : Pooled popped pooled n
  opened : live = true → h.websocket = some n ∨ popped = true
  unlocked : popped = true ∨ h.closed = false
  closedEvent : h.closedEvent = true → h.closed = true ∧ popped = true

/-- A listener that connects, sends or receives may leave. -/
theorem Cell.leaving {popped live : Bool} {pooled : Option Nat} {n : Nat} {l : Listener}
    {h : Handle} {t : Task} (hc : Cell popped live pooled n l h t)
    (hphase : l.phase = .connecting ∨ (∃ rest, l.phase = .sending rest) ∨ l.phase = .receiving) :
    Leaving popped live pooled n l h t where
  entry := hc.entry
  task := hc.task
  websocket := hc.websocket
  unaddressed := hc.unaddressed
  phase := hc.phase
  place := hc.place
  cancelled := hc.cancelled
  pooled := hc.pooled (.inl (by rcases hphase with h | ⟨rest, h⟩ | h <;> simp [h]))
  opened hlive := by
    rcases hphase with h | h
    · rw [hc.connecting h] at hlive
      cases hlive
    · exact .inl (hc.opened h)
  unlocked := hc.unlocked hphase
  closedEvent hevent := by
    obtain ⟨hclosed, hp | hended⟩ := hc.closedEvent hevent
    · exact ⟨hclosed, hp⟩
    · rcases hphase with h | ⟨rest, h⟩ | h <;> simp [h] at hended

/-- The `finally` of a listener that may leave. -/
theorem Single.finally {n : Nat} {u : State} {l : Listener} (h : Single s) (ho : OnlyAt s u n)
    (hl : s.listeners n = some l) (halive : l.phase ≠ .ended) (lu : Listener) (hu : Handle)
    (tu : Task) (hlu : u.listeners n = some lu) (hhu : u.entries n = some hu) (htu : u.tasks n = some tu)
    (hreaping : ∀ r, u.reaping n = some r →
      s.popped l.place.1 = true ∧ hu.closed = true ∧ ∀ k, r.socket = some k → k = n)
    (hplace : lu.place = l.place)
    (hleaving : Leaving (s.popped l.place.1) (u.live n) (s.pool l.place) n lu hu tu) :
    Single (u.finally n n) := by
  rw [State.finally, hhu]
  dsimp only
  split
  · next hclosed =>
    have hpopped : s.popped l.place.1 = true := hleaving.unlocked.resolve_right (by simp [hclosed])
    refine h.change (ho.trans ((onlyAt_modifyEntry u n _).trans (onlyAt_modifyListener _ n _))) hl
      { lu with phase := .ended } { hu with closedEvent := true } tu
      (by simp [State.setClosed, State.modifyEntry, State.modifyListener, hlu])
      (by simp [State.setClosed, State.modifyEntry, State.modifyListener, hhu]) htu hplace
      ?_ (fun _ ↦ .inl halive) hreaping
    exact ⟨hleaving.entry, hleaving.task, hleaving.websocket, hleaving.unaddressed,
      hleaving.phase, hleaving.place, hleaving.cancelled, fun _ ↦ hleaving.pooled, by simp,
      by simp, by simp, by simp, fun _ ↦ .inl hpopped, fun _ ↦ ⟨hclosed, .inl hpopped⟩⟩
  · next hclosed =>
    rw [if_pos hleaving.task]
    refine h.change (ho.trans ((onlyAt_modifyEntry u n _).trans (onlyAt_modifyListener _ n _))) hl
      { lu with phase := .closing hu.websocket none } { hu with stopEvent := true, closed := true } tu
      (by simp [State.cancel, State.lockClosed, State.modifyEntry, State.modifyListener, hlu])
      (by simp [State.cancel, State.lockClosed, State.modifyEntry, State.modifyListener, hhu]) htu hplace
      ?_ (fun _ ↦ .inl halive) fun r hr ↦ ⟨(hreaping r hr).1, rfl, (hreaping r hr).2.2⟩
    refine ⟨hleaving.entry, hleaving.task, hleaving.websocket, hleaving.unaddressed,
      hleaving.phase, hleaving.place, fun hc ↦ ⟨(hleaving.cancelled hc).1, rfl⟩,
      fun _ ↦ hleaving.pooled, by simp, by simp, by simp, ?_, by simp,
      fun hevent ↦ ⟨rfl, .inl (hleaving.closedEvent hevent).2⟩⟩
    rintro socket listener ⟨rfl, rfl⟩
    refine ⟨rfl, ?_, hleaving.websocket⟩
    show _ ∨ _ ∨ u.live n = false
    cases hlive : u.live n with
    | false => exact .inr (.inr rfl)
    | true => exact (hleaving.opened hlive).symm.imp_right .inl

/-- A listener whose loop ends. -/
theorem Single.stopped {n : Nat} (h : Single s) (hs : s.stopped n = some t) : Single t := by
  rw [State.stopped] at hs
  split at hs
  · next place entry hl =>
    obtain ⟨hd, tk, hh, ht, hcell⟩ := h.cell n _ hl
    obtain rfl : n = entry := hcell.entry.symm
    cases hs
    exact h.finally (onlyAt_sent s n s.sent) hl (by simp) _ _ _ hl hh ht
      (fun _ hr ↦ h.reaping_cell hl hh hr) rfl (hcell.leaving (.inr (.inr rfl)))
  · cases hs

/-- A listener that fails. -/
theorem Single.failed {n : Nat} (h : Single s) (hs : s.failed n = some t) : Single t := by
  have hleave : ∀ {l : Listener}, s.listeners n = some l → l.phase = .connecting ∨
      (∃ rest, l.phase = .sending rest) ∨ l.phase = .receiving →
      Single ((s.report n).finally n l.entry) := by
    intro l hl hphase
    obtain ⟨hd, tk, hh, ht, hcell⟩ := h.cell n _ hl
    rw [hcell.entry]
    have hleaving := hcell.leaving hphase
    refine h.finally (onlyAt_modifyTask s n _) hl
      (by rcases hphase with h | ⟨rest, h⟩ | h <;> simp [h]) l hd { tk with reported := true } hl hh
      (by simp [State.report, State.modifyTask, ht]) (fun _ hr ↦ h.reaping_cell hl hh hr) rfl ?_
    exact ⟨hleaving.entry, hleaving.task, hleaving.websocket, hleaving.unaddressed,
      hleaving.phase, hleaving.place, hleaving.cancelled, hleaving.pooled, hleaving.opened,
      hleaving.unlocked, hleaving.closedEvent⟩
  rw [State.failed] at hs
  split at hs
  · next hl =>
    cases hs
    exact hleave hl (.inl rfl)
  · next hl =>
    cases hs
    exact hleave hl (.inr (.inl ⟨_, rfl⟩))
  · next hl =>
    cases hs
    exact hleave hl (.inr (.inr rfl))
  · cases hs

/-- What a connection changes before the listener goes on. -/
theorem onlyAt_connected (s : State) (n : Nat) : OnlyAt s
    ({ s with live := Function.update s.live n true }.modifyEntry n
      fun handle ↦ { handle with websocket := some n }) n :=
  (onlyAt_live s n true).trans (onlyAt_modifyEntry _ n _)

/-- A listener whose connection is made. -/
theorem Single.connected {n : Nat} {stopping : Bool} (h : Single s)
    (hs : s.connected n stopping = some t) : Single t := by
  rw [State.connected] at hs
  split at hs
  · next place entry task hl ht =>
    obtain ⟨hd, tk, hh, ht', hcell⟩ := h.cell n _ hl
    obtain rfl : n = entry := hcell.entry.symm
    rw [ht] at ht'
    cases ht'
    have hleaving := hcell.leaving (.inl rfl)
    have hpool := hcell.pooled (.inl (by simp))
    dsimp only at hs
    split at hs
    · next hnone =>
      -- the pool was cleared: the connection is lost, and the error reported
      cases hs
      have hpopped : s.popped place.1 = true := (hpool.resolve_left (by simp [hnone])).1
      refine h.finally ((onlyAt_live s n true).trans (onlyAt_modifyTask _ n _)) hl (by simp)
        _ hd { task with reported := true } hl hh (by simp [State.report, State.modifyTask, ht])
        (fun _ hr ↦ h.reaping_cell hl hh hr) rfl ?_
      exact ⟨hleaving.entry, hleaving.task, hleaving.websocket, hleaving.unaddressed,
        hleaving.phase, hleaving.place, hleaving.cancelled, hleaving.pooled,
        fun _ ↦ .inr hpopped, hleaving.unlocked, hleaving.closedEvent⟩
    · next registered hregistered =>
      obtain rfl : n = registered := by
        have hpool := hpool.resolve_right (by simp [hregistered])
        exact Option.some.inj (hpool.symm.trans hregistered)
      split at hs
      · cases hs
        refine h.finally (onlyAt_connected s n) hl (by simp) _ { hd with websocket := some n } task
          hl (by simp [State.modifyEntry, hh]) ht (fun _ hr ↦ h.reaping_cell hl hh hr) rfl ?_
        exact ⟨hleaving.entry, hleaving.task, fun k hk ↦ (Option.some.inj hk).symm,
          hleaving.unaddressed, hleaving.phase, hleaving.place, hleaving.cancelled,
          hleaving.pooled, fun _ ↦ .inl rfl, hleaving.unlocked, hleaving.closedEvent⟩
      · cases hs
        refine h.change ((onlyAt_connected s n).trans (onlyAt_modifyListener _ n _)) hl
          { place, entry := n, cancelled := false, phase := if task.request.sendMessage = [] then
            Listening.receiving else .sending task.request.sendMessage }
          { hd with websocket := some n } task (by simp [State.modifyListener, State.modifyEntry, hl])
          (by simp [State.modifyListener, State.modifyEntry, hh]) ht rfl ?_
          (fun _ ↦ .inl (by simp)) (fun _ hr ↦ h.reaping_cell hl hh hr)
        refine ⟨hleaving.entry, hleaving.task, fun k hk ↦ (Option.some.inj hk).symm,
          hleaving.unaddressed, hleaving.phase, hleaving.place, hleaving.cancelled,
          fun _ ↦ hleaving.pooled, ?_, fun _ ↦ rfl, fun _ ↦ hleaving.unlocked, ?_, ?_, ?_⟩
        · intro hphase
          split at hphase <;> cases hphase
        · intro socket listener hphase
          split at hphase <;> cases hphase
        · intro hphase
          split at hphase <;> cases hphase
        · intro hevent
          obtain ⟨hclosed, hpopped⟩ := hleaving.closedEvent hevent
          exact ⟨hclosed, .inl hpopped⟩
  · cases hs

/-- A listener that sends a message of its request. -/
theorem Single.listenerSend {n : Nat} (h : Single s) (hs : s.listenerSend n = some t) :
    Single t := by
  rw [State.listenerSend] at hs
  split at hs
  · next place entry message rest hl =>
    obtain ⟨hd, tk, hh, ht, hcell⟩ := h.cell n _ hl
    split at hs
    · cases hs
      have hweb := hcell.opened (.inl ⟨_, rfl⟩)
      have hunlocked := hcell.unlocked (.inr (.inl ⟨_, rfl⟩))
      refine h.change ((onlyAt_sent s n _).trans (onlyAt_modifyListener _ n _)) hl
        ⟨place, entry, if rest = [] then .receiving else .sending rest, false⟩ hd tk
        (by simp [State.modifyListener, hl]) hh ht rfl ?_ (fun _ ↦ .inl (by simp))
        (fun _ hr ↦ h.reaping_cell hl hh hr)
      refine ⟨hcell.entry, hcell.task, hcell.websocket, hcell.unaddressed, hcell.phase,
        hcell.place, hcell.cancelled, fun _ ↦ hcell.pooled (.inl (by simp)), ?_, fun _ ↦ hweb,
        fun _ ↦ hunlocked, ?_, ?_, ?_⟩
      · intro hphase
        split at hphase <;> cases hphase
      · intro socket listener hphase
        split at hphase <;> cases hphase
      · intro hphase
        split at hphase <;> cases hphase
      · intro hevent
        obtain ⟨hclosed, hp | hended⟩ := hcell.closedEvent hevent
        · exact ⟨hclosed, .inl hp⟩
        · cases hended
    · cases hs
  · cases hs

theorem onlyAt_closeSocket (s : State) {n : Nat} {socket : Option Nat}
    (h : ∀ k, socket = some k → k = n) : OnlyAt s (s.closeSocket socket) n := by
  cases socket with
  | none => exact onlyAt_sent s n s.sent
  | some k =>
    obtain rfl := h k rfl
    exact onlyAt_live s k false

/-- A closed connection is not open. -/
theorem live_closeSocket (s : State) (socket : Option Nat) (n : Nat) :
    (s.closeSocket socket).live n = true → s.live n = true ∧ socket ≠ some n := by
  cases socket with
  | none => exact fun h ↦ ⟨h, by simp⟩
  | some k =>
    intro h
    have h : Function.update s.live k false n = true := h
    by_cases hk : n = k
    · subst hk
      simp at h
    · rw [Function.update_of_ne hk] at h
      exact ⟨h, fun he ↦ hk (Option.some.inj he).symm⟩

@[simp] theorem entries_closeSocket (s : State) (socket : Option Nat) :
    (s.closeSocket socket).entries = s.entries := by
  cases socket <;> rfl

@[simp] theorem listeners_closeSocket (s : State) (socket : Option Nat) :
    (s.closeSocket socket).listeners = s.listeners := by
  cases socket <;> rfl

@[simp] theorem tasks_closeSocket (s : State) (socket : Option Nat) :
    (s.closeSocket socket).tasks = s.tasks := by
  cases socket <;> rfl

@[simp] theorem reaping_closeSocket (s : State) (socket : Option Nat) :
    (s.closeSocket socket).reaping = s.reaping := by
  cases socket <;> rfl

/-- A listener that is over, with its entry closed and its connection too, unless its wrapper was
taken away. -/
theorem Single.ended {n : Nat} {l : Listener} {hd : Handle} {tk : Task} {u : State}
    (h : Single s) (ho : OnlyAt s u n) (hl : s.listeners n = some l) (hh : s.entries n = some hd)
    (ht : s.tasks n = some tk) (hlisteners : u.listeners = s.listeners)
    (hentries : u.entries = s.entries) (htasks : u.tasks = s.tasks)
    (hreaping : u.reaping = s.reaping) (halive : l.phase ≠ .ended) (hclosed : hd.closed = true)
    (hlive : s.popped l.place.1 = true ∨ u.live n = false) :
    Single ((u.setClosed n).modifyListener n fun l ↦ { l with phase := .ended }) := by
  obtain ⟨hd', tk', hh', ht', hcell⟩ := h.cell n l hl
  rw [hh] at hh'
  rw [ht] at ht'
  cases hh'
  cases ht'
  refine h.change ((ho.trans (onlyAt_modifyEntry u n _)).trans (onlyAt_modifyListener _ n _)) hl
    { l with phase := .ended } { hd with closedEvent := true } tk
    (by simp [State.modifyListener, State.setClosed, State.modifyEntry, hlisteners, hl])
    (by simp [State.modifyListener, State.setClosed, State.modifyEntry, hentries, hh])
    (by simp [State.modifyListener, State.setClosed, State.modifyEntry, htasks, ht]) rfl ?_
    (fun _ ↦ .inl halive) fun r hr ↦ ?_
  · exact ⟨hcell.entry, hcell.task, hcell.websocket, hcell.unaddressed, hcell.phase, hcell.place,
      hcell.cancelled, fun _ ↦ hcell.pooled (.inl halive), by simp, by simp, by simp, by simp,
      fun _ ↦ hlive, fun _ ↦ ⟨hclosed, .inr rfl⟩⟩
  · have hr : u.reaping n = some r := hr
    rw [hreaping] at hr
    exact h.reaping_cell hl hh hr

/-- A listener whose `close` is through. -/
theorem Single.closed {n : Nat} (h : Single s) (hs : s.closed n = some t) : Single t := by
  rw [State.closed] at hs
  split at hs
  · next place entry socket listener hl =>
    obtain ⟨hd, tk, hh, ht, hcell⟩ := h.cell n _ hl
    obtain rfl : n = entry := hcell.entry.symm
    obtain ⟨hclosed, hsocket, hown⟩ := hcell.closing socket listener rfl
    split at hs
    · cases hs
      refine h.ended (onlyAt_closeSocket s hown) hl hh ht (by simp) (by simp) (by simp) (by simp)
        (by simp) hclosed ?_
      refine hsocket.imp_right fun hsocket ↦ ?_
      cases hlive : (s.closeSocket socket).live n with
      | false => rfl
      | true =>
        obtain ⟨hbefore, hother⟩ := live_closeSocket s socket n hlive
        rcases hsocket with hsocket | hsocket
        · exact absurd hsocket hother
        · rw [hsocket] at hbefore
          cases hbefore
    · cases hs
  · cases hs

/-- A cancelled listener that unwinds. -/
theorem Single.unwound {n : Nat} (h : Single s) (hs : s.unwound n = some t) : Single t := by
  rw [State.unwound] at hs
  split at hs
  · cases hs
  · next place entry phase hphase hl =>
    obtain ⟨hd, tk, hh, ht, hcell⟩ := h.cell n _ hl
    obtain rfl : n = entry := hcell.entry.symm
    obtain ⟨hpopped, hclosed⟩ := hcell.cancelled rfl
    cases hs
    exact h.ended (onlyAt_sent s n s.sent) hl hh ht rfl rfl rfl rfl
      hphase hclosed (.inl hpopped)
  · cases hs

/-- A change of an entry that keeps what its cell reads. -/
theorem Single.modifyEntry (h : Single s) (e : Nat) (f : Handle → Handle)
    (hf : ∀ hd, (f hd).task = hd.task ∧ (f hd).websocket = hd.websocket ∧
      (f hd).closed = hd.closed ∧ (f hd).closedEvent = hd.closedEvent) :
    Single (s.modifyEntry e f) := by
  cases hh : s.entries e with
  | none =>
    have hsame : s.modifyEntry e f = s := by
      have hentries : Function.update s.entries e none = s.entries := by
        rw [← hh, Function.update_eq_self]
      rw [State.modifyEntry, hh, Option.map_none, hentries]
    rw [hsame]
    exact h
  | some hd =>
    obtain ⟨l, hl⟩ := Option.ne_none_iff_exists'.mp (h.listener e (.inl (by simp [hh])))
    obtain ⟨hd', tk, hh', ht, hcell⟩ := h.cell e l hl
    rw [hh] at hh'
    cases hh'
    obtain ⟨htask, hweb, hclosed, hevent⟩ := hf hd
    refine h.change (onlyAt_modifyEntry s e f) hl l (f hd) tk hl (by simp [State.modifyEntry, hh]) ht
      rfl ?_ id fun r hr ↦ ?_
    · exact ⟨hcell.entry, htask.trans hcell.task, by rw [hweb]; exact hcell.websocket,
        hcell.unaddressed, hcell.phase, hcell.place, by rw [hclosed]; exact hcell.cancelled,
        hcell.pooled, hcell.connecting, by rw [hweb]; exact hcell.opened,
        by rw [hclosed]; exact hcell.unlocked, by rw [hclosed]; exact hcell.closing,
        hcell.ended, by rw [hclosed, hevent]; exact hcell.closedEvent⟩
    · rw [hclosed]
      exact h.reaping_cell hl hh hr

/-- A change of an entry that keeps its connection and whether it is closed. -/
def Keeps (f : Entry → Entry) : Prop :=
  ∀ entry, (f entry).websocket = entry.websocket ∧ (f entry).closed = entry.closed

theorem keeps_acquire : Keeps Entry.acquire := fun _ ↦ ⟨rfl, rfl⟩

theorem keeps_requestStop : Keeps Entry.requestStop := fun _ ↦ ⟨rfl, rfl⟩

theorem keeps_release : Keeps Entry.release := by
  intro entry
  rw [Entry.release]
  split <;> exact ⟨rfl, rfl⟩

theorem keeps_markEnd : Keeps Entry.markEnd := by
  intro entry
  rw [Entry.markEnd]
  split <;> exact ⟨rfl, rfl⟩

theorem Keeps.comp {f g : Entry → Entry} (hf : Keeps f) (hg : Keeps g) :
    Keeps fun entry ↦ f (g entry) :=
  fun entry ↦ ⟨(hf _).1.trans (hg entry).1, (hf _).2.trans (hg entry).2⟩

/-- The references of an entry are not part of the invariant. -/
theorem Single.refer (h : Single s) (e : Nat) (f : Entry → Entry) (hf : Keeps f) :
    Single (s.refer e f) :=
  h.modifyEntry e _ fun hd ↦ ⟨rfl, (hf hd.toEntry).1, (hf hd.toEntry).2, rfl⟩

/-- A change of a task that no listener waits for. -/
theorem Single.modifySender {n : Nat} {tk : Task} (h : Single s) (ht : s.tasks n = some tk)
    (hphase : ∃ entry rest, tk.phase = .sending entry rest) (phase : Processing)
    (hnext : (∀ e, phase ≠ .waiting e) ∧ ∀ e socket listener, phase ≠ .closing e socket listener) :
    Single (s.modifyTask n fun task ↦ { task with phase }) := by
  have hnone : s.listeners n = none := by
    cases hl : s.listeners n with
    | none => rfl
    | some l =>
      obtain ⟨_, tk', _, ht', hcell⟩ := h.cell n l hl
      rw [ht] at ht'
      cases ht'
      obtain ⟨entry, rest, hphase⟩ := hphase
      rcases hcell.phase with ⟨hp, _⟩ | hp <;> rw [hphase] at hp <;> cases hp
  refine ⟨?_, ?_, h.listener, ?_, h.registered, h.reaping, h.busy⟩
  · intro m hm
    have hne : m ≠ n := by
      rintro rfl
      rw [(h.fresh m hm).2.2.1] at ht
      cases ht
    obtain ⟨hl, hh, htm, hlive, hr⟩ := h.fresh m hm
    exact ⟨hl, hh, by simp [State.modifyTask, Function.update_of_ne hne, htm], hlive, hr⟩
  · intro m l hl
    have hne : m ≠ n := by
      rintro rfl
      have hl : s.listeners m = some l := hl
      rw [hnone] at hl
      cases hl
    obtain ⟨hd, tk', hh, htm, hcell⟩ := h.cell m l hl
    exact ⟨hd, tk', hh, by simp [State.modifyTask, Function.update_of_ne hne, htm], hcell⟩
  · intro m task htask hlm
    by_cases hmn : m = n
    · subst hmn
      simp only [State.modifyTask, Function.update_self, ht, Option.map_some,
        Option.some.injEq] at htask
      subst htask
      exact hnext
    · simp only [State.modifyTask, Function.update_of_ne hmn] at htask
      exact h.sender m task htask hlm

/-- What was sent is not part of the invariant. -/
theorem Single.setSent (h : Single s) (sent : List (Nat × Nat × String)) :
    Single { s with sent } :=
  ⟨h.fresh, h.cell, h.listener, h.sender, h.registered, h.reaping, h.busy⟩

/-- A request that sends a message. -/
theorem Single.send {n : Nat} (h : Single s) (hs : s.send n = some t) : Single t := by
  rw [State.send] at hs
  split at hs
  · next request place entry message rest reported ht =>
    split at hs
    · cases hs
    · next socket _ =>
      split at hs
      · dsimp only at hs
        split at hs
        · cases hs
          exact ((h.setSent _).refer entry _ keeps_release).modifySender ht ⟨_, _, rfl⟩ .completed
            ⟨by simp, by simp⟩
        · cases hs
          exact (h.setSent (s.sent ++ [(n, socket, message)])).modifySender ht ⟨_, _, rfl⟩
            (.sending entry rest)
            ⟨by simp, by simp⟩
      · cases hs
  · cases hs

/-- A request whose sending raises. -/
theorem Single.sendRaises {n : Nat} (h : Single s) (hs : s.sendRaises n = some t) :
    Single t := by
  rw [State.sendRaises] at hs
  split at hs
  · next ht =>
    cases hs
    exact h.modifySender ht ⟨_, _, rfl⟩ .raised ⟨by simp, by simp⟩
  · cases hs

/-- A connection that breaks. -/
theorem Single.dropped (h : Single s) (n : Nat) :
    Single { s with live := Function.update s.live n false } := by
  cases hl : s.listeners n with
  | none =>
    have hdead : s.live n = false := by
      cases hlive : s.live n with
      | false => rfl
      | true => exact absurd hl (h.listener n (.inr hlive))
    rw [← hdead, Function.update_eq_self]
    exact h
  | some l =>
    obtain ⟨hd, tk, hh, ht, hcell⟩ := h.cell n l hl
    refine h.change (onlyAt_live s n false) hl l hd tk hl hh ht rfl ?_ (fun hb ↦ ?_)
      (fun r hr ↦ h.reaping_cell hl hh hr)
    · simp only [Function.update_self]
      exact ⟨hcell.entry, hcell.task, hcell.websocket, hcell.unaddressed, hcell.phase, hcell.place,
        hcell.cancelled, fun hb ↦ hcell.pooled (.inl (hb.resolve_right (by simp))), fun _ ↦ rfl,
        hcell.opened, hcell.unlocked,
        fun socket listener hphase ↦ ⟨(hcell.closing socket listener hphase).1, .inr (.inr rfl),
          (hcell.closing socket listener hphase).2.2⟩, fun _ ↦ .inr rfl, hcell.closedEvent⟩
    · simp only [Function.update_self] at hb
      exact .inl (hb.resolve_right (by simp))

/-- A cell of a session whose wrapper is taken away. -/
theorem Cell.pop {popped live : Bool} {pooled : Option Nat} {n : Nat} {l : Listener}
    {hd : Handle} {tk : Task} (h : Cell popped live pooled n l hd tk) (popped' : Bool)
    (hp : popped = true → popped' = true) : Cell popped' live pooled n l hd tk :=
  have hpool : Pooled popped pooled n → Pooled popped' pooled n := Or.imp_right (And.imp_left hp)
  ⟨h.entry, h.task, h.websocket, h.unaddressed, h.phase.imp_left (And.imp_right hpool), h.place,
    fun hc ↦ (h.cancelled hc).imp_left hp, fun hb ↦ hpool (h.pooled hb), h.connecting, h.opened,
    fun hphase ↦ (h.unlocked hphase).imp_left hp,
    fun _ _ hphase ↦ (h.closing _ _ hphase).imp_right (And.imp_left (Or.imp_left hp)),
    fun hphase ↦ (h.ended hphase).imp_left hp,
    fun hevent ↦ (h.closedEvent hevent).imp_right (Or.imp_left hp)⟩

/-- The reaper takes a wrapper away. -/
theorem Single.pop (h : Single s) (wrapper : Nat) :
    Single { s with popped := Function.update s.popped wrapper true } := by
  have hp : ∀ w, s.popped w = true → Function.update s.popped wrapper true w = true := by
    intro w hw
    by_cases hww : w = wrapper
    · rw [hww, Function.update_self]
    · rw [Function.update_of_ne hww, hw]
  refine ⟨h.fresh, fun n l hl ↦ ?_, h.listener, h.sender, h.registered, fun e r hr ↦ ?_, h.busy⟩
  · obtain ⟨hd, tk, hh, ht, hcell⟩ := h.cell n l hl
    exact ⟨hd, tk, hh, ht, hcell.pop _ (hp _)⟩
  · obtain ⟨l, hd, hl, hh, hpopped, hrest⟩ := h.reaping e r hr
    exact ⟨l, hd, hl, hh, hp _ hpopped, hrest⟩

/-- The reaper comes to an entry. -/
theorem Single.reap {place : Place} (h : Single s) (hs : s.reap place = some t) : Single t := by
  rw [State.reap] at hs
  split at hs
  · next hpopped =>
    split at hs
    · cases hs
    · next entry hd hfound =>
      obtain ⟨e, hpool, hfound⟩ := Option.bind_eq_some_iff.mp hfound
      obtain ⟨hd', hh, hpair⟩ := Option.map_eq_some_iff.mp hfound
      cases hpair
      obtain ⟨l, hl, hplace⟩ := h.registered place entry hpool
      obtain ⟨hd', tk, hh', ht, hcell⟩ := h.cell entry l hl
      rw [hh] at hh'
      cases hh'
      rw [← hplace] at hpopped
      split at hs
      · next hclosed =>
        cases hs
        refine h.change (onlyAt_modifyEntry s entry _) hl l { hd with closedEvent := true } tk hl
          (by simp [State.setClosed, State.modifyEntry, hh]) ht rfl ?_ id
          (fun r hr ↦ h.reaping_cell hl hh hr)
        exact ⟨hcell.entry, hcell.task, hcell.websocket, hcell.unaddressed, hcell.phase,
          hcell.place, hcell.cancelled, hcell.pooled, hcell.connecting, hcell.opened,
          hcell.unlocked, hcell.closing, hcell.ended, fun _ ↦ ⟨hclosed, .inl hpopped⟩⟩
      · next hclosed =>
        cases hs
        rw [hcell.task]
        refine h.change ⟨fun m hm ↦ Function.update_of_ne hm _ _,
          fun m hm ↦ Function.update_of_ne hm _ _, fun _ _ ↦ rfl, fun _ _ ↦ rfl,
          fun m hm ↦ Function.update_of_ne hm _ _, rfl, rfl, rfl⟩ hl { l with cancelled := true }
          { hd with stopEvent := true, closed := true } tk
          (by simp [State.cancel, State.modifyListener, State.lockClosed, State.modifyEntry, hl])
          (by simp [State.cancel, State.modifyListener, State.lockClosed, State.modifyEntry, hh])
          ht rfl ?_ id fun r hr ↦ ?_
        · exact ⟨hcell.entry, hcell.task, hcell.websocket, hcell.unaddressed, hcell.phase,
            hcell.place, fun _ ↦ ⟨hpopped, rfl⟩, hcell.pooled, hcell.connecting, hcell.opened,
            fun _ ↦ .inl hpopped, fun _ _ hphase ↦ ⟨rfl, (hcell.closing _ _ hphase).2⟩,
            hcell.ended, fun _ ↦ ⟨rfl, .inl hpopped⟩⟩
        · simp only [Function.update_self, Option.some.injEq] at hr
          subst hr
          exact ⟨hpopped, rfl, hcell.websocket⟩
  · cases hs

/-- `close` of the reaper is through. -/
theorem Single.reaped {entry : Nat} (h : Single s) (hs : s.reaped entry = some t) :
    Single t := by
  rw [State.reaped] at hs
  split at hs
  · cases hs
  · next socket listener hr =>
    obtain ⟨l, hd, hl, hh, hpopped, hclosed, hown⟩ := h.reaping entry _ hr
    obtain ⟨hd', tk, hh', ht, hcell⟩ := h.cell entry l hl
    rw [hh] at hh'
    cases hh'
    split at hs
    · cases hs
      have ho := (onlyAt_closeSocket s hown).trans
        (onlyAt_modifyEntry _ entry fun handle ↦ { handle with closedEvent := true })
      have hlive := fun hlive ↦ (live_closeSocket s socket entry hlive).1
      refine h.change ⟨ho.entries, ho.listeners, ho.tasks, ho.live, fun m hm ↦ ?_, ho.pool,
        ho.popped, ho.next⟩ hl l { hd with closedEvent := true } tk
        (by simp [State.setClosed, State.modifyEntry, hl])
        (by simp [State.setClosed, State.modifyEntry, hh])
        (by simp [State.setClosed, State.modifyEntry, ht]) rfl ?_ (Or.imp_right hlive) ?_
      · exact (Function.update_of_ne hm _ _).trans (ho.reaping m hm)
      · refine ⟨hcell.entry, hcell.task, hcell.websocket, hcell.unaddressed, hcell.phase,
          hcell.place, hcell.cancelled, fun hb ↦ hcell.pooled (hb.imp_right hlive),
          fun hphase ↦ ?_, hcell.opened, hcell.unlocked, fun _ _ hphase ↦ ⟨hclosed,
          .inl hpopped, (hcell.closing _ _ hphase).2.2⟩, fun _ ↦ .inl hpopped,
          fun _ ↦ ⟨hclosed, .inl hpopped⟩⟩
        have hbefore := hcell.connecting hphase
        exact Bool.eq_false_iff.mpr fun hafter ↦ by simp [hlive hafter] at hbefore
      · intro r hr
        simp at hr
    · cases hs

/-- A cell whose place has another entry, or none: it is over, or its wrapper was taken away. -/
theorem Cell.setPool {popped live : Bool} {pooled : Option Nat} {n : Nat} {l : Listener}
    {hd : Handle} {tk : Task} (h : Cell popped live pooled n l hd tk) (pooled' : Option Nat)
    (hp : Pooled popped pooled n → Pooled popped pooled' n ∨
      tk.phase = .completed ∧ l.phase = .ended ∧ live = false) :
    Cell popped live pooled' n l hd tk where
  entry := h.entry
  task := h.task
  websocket := h.websocket
  unaddressed := h.unaddressed
  phase := h.phase.elim
    (fun hw ↦ (hp hw.2).elim (fun hpool ↦ .inl ⟨hw.1, hpool⟩) fun hover ↦ .inr hover.1) .inr
  place := h.place
  cancelled := h.cancelled
  pooled hb := (hp (h.pooled hb)).resolve_right fun hover ↦ by simp [hover] at hb
  connecting := h.connecting
  opened := h.opened
  unlocked := h.unlocked
  closing := h.closing
  ended := h.ended
  closedEvent := h.closedEvent

/-- An entry that leaves its pool is over, or its wrapper was taken away. -/
theorem Single.remove (h : Single s) (place : Place)
    (hover : ∀ n l tk, s.pool place = some n → s.listeners n = some l → s.tasks n = some tk →
      s.popped place.1 = true ∨
        tk.phase = .completed ∧ l.phase = .ended ∧ s.live n = false) :
    Single (s.remove place) := by
  refine ⟨h.fresh, fun n l hl ↦ ?_, h.listener, h.sender, fun p e he ↦ ?_, h.reaping, h.busy⟩
  · obtain ⟨hd, tk, hh, ht, hcell⟩ := h.cell n l hl
    refine ⟨hd, tk, hh, ht, hcell.setPool _ fun hpool ↦ ?_⟩
    show Pooled _ (Function.update s.pool place none l.place) n ∨ _
    by_cases hplace : l.place = place
    · rw [hplace, Function.update_self]
      rw [hplace] at hpool
      rcases hpool with hpool | ⟨hpopped, -⟩
      · exact (hover n l tk hpool hl ht).imp_left fun hpopped ↦ .inr ⟨hpopped, rfl⟩
      · exact .inl (.inr ⟨hpopped, rfl⟩)
    · rw [Function.update_of_ne hplace]
      exact .inl hpool
  · have he : Function.update s.pool place none p = some e := he
    by_cases hp : p = place
    · rw [hp, Function.update_self] at he
      cases he
    · rw [Function.update_of_ne hp] at he
      exact h.registered p e he

/-- The reaper clears a pool. -/
theorem Single.cleared {place : Place} (h : Single s) (hs : s.cleared place = some t) :
    Single t := by
  rw [State.cleared] at hs
  split at hs
  · next hpopped =>
    cases hs
    exact h.remove place fun _ _ _ _ _ _ ↦ .inl hpopped.1
  · cases hs

/-- A request that waited for its listener. -/
theorem Single.resume {n : Nat} (h : Single s) (hs : s.resume n = some t) : Single t := by
  rw [State.resume] at hs
  split at hs
  · next request place entry reported ht =>
    obtain ⟨l, hl⟩ : ∃ l, s.listeners n = some l := by
      cases hl : s.listeners n with
      | none => exact absurd rfl ((h.sender n _ ht hl).1 entry)
      | some l => exact ⟨l, rfl⟩
    obtain ⟨hd, tk, hh, ht', hcell⟩ := h.cell n l hl
    rw [ht] at ht'
    cases ht'
    obtain ⟨rfl, hpool⟩ : n = entry ∧ Pooled (s.popped l.place.1) (s.pool l.place) n := by
      rcases hcell.phase with ⟨hp, hpool⟩ | hp
      · cases hp
        exact ⟨rfl, hpool⟩
      · cases hp
    obtain rfl : place = l.place := hcell.place
    -- the request is over, whatever its pool says
    have hdone : ∀ closedEvent, (closedEvent = true → hd.closedEvent = true) →
        Cell (s.popped l.place.1) (s.live n) (s.pool l.place) n l { hd with closedEvent }
          ⟨request, l.place, .completed, reported⟩ := fun closedEvent hevent ↦
      ⟨hcell.entry, hcell.task, hcell.websocket, hcell.unaddressed, .inr rfl, hcell.place,
        hcell.cancelled, hcell.pooled, hcell.connecting, hcell.opened, hcell.unlocked,
        hcell.closing, hcell.ended, fun he ↦ hcell.closedEvent (hevent he)⟩
    split at hs
    · next hset =>
      have hevent : hd.closedEvent = true := by simpa [hh] using hset
      obtain ⟨hclosed, hover⟩ := hcell.closedEvent hevent
      split at hs
      · cases hs
        exact h.change (onlyAt_modifyTask s n _) hl l hd _ hl hh
          (by simp [State.modifyTask, ht]) rfl (hdone hd.closedEvent id) id
          (fun r hr ↦ h.reaping_cell hl hh hr)
      · next registered handle hfound =>
        obtain ⟨e, hregistered, hfound⟩ := Option.bind_eq_some_iff.mp hfound
        obtain rfl : e = n := by
          rcases hpool with hpool | ⟨-, hpool⟩
          · exact Option.some.inj (hregistered.symm.trans hpool)
          · rw [hpool] at hregistered
            cases hregistered
        rw [hh] at hfound
        cases hfound
        rw [if_pos hclosed] at hs
        cases hs
        have hchanged := h.change
          ((onlyAt_modifyEntry s registered fun handle ↦ { handle with closedEvent := true }).trans
            (onlyAt_modifyTask _ registered fun task ↦ { task with phase := .completed })) hl l
          { hd with closedEvent := true } ⟨request, l.place, .completed, reported⟩ hl
          (by simp [State.modifyTask, State.modifyEntry, hh])
          (by simp [State.modifyTask, State.modifyEntry, ht]) rfl
          (hdone true fun _ ↦ hevent) id (fun r hr ↦ h.reaping_cell hl hh hr)
        refine hchanged.remove l.place fun m k task hm hk htask ↦ ?_
        obtain rfl : registered = m := Option.some.inj (hregistered.symm.trans hm)
        obtain rfl : l = k := Option.some.inj (hl.symm.trans hk)
        obtain hpopped | hended := hover
        · exact .inl hpopped
        · refine (hcell.ended hended).imp_right fun hdead ↦ ⟨?_, hended, hdead⟩
          simp only [State.modifyTask, Function.update_self, State.modifyEntry, ht,
            Option.map_some, Option.some.injEq] at htask
          rw [← htask]
    · cases hs
  · cases hs

/-- No request has to close an entry itself. -/
theorem Single.resumed {n : Nat} (h : Single s) (hs : s.resumed n = some t) : Single t := by
  rw [State.resumed] at hs
  split at hs
  · next request place entry socket listener reported ht =>
    exfalso
    cases hl : s.listeners n with
    | none => exact (h.sender n _ ht hl).2 entry socket listener rfl
    | some l =>
      obtain ⟨hd, tk, hh, ht', hcell⟩ := h.cell n l hl
      rw [ht] at ht'
      cases ht'
      rcases hcell.phase with ⟨hp, -⟩ | hp <;> cases hp
  · cases hs

/-- A task that has no listener. -/
theorem Single.finish (h : Single s) (place : Place) (request : Request) (phase : Processing)
    (reported : Bool)
    (hphase : (∀ e, phase ≠ .waiting e) ∧ ∀ e socket listener, phase ≠ .closing e socket listener) :
    Single (s.finish place request phase reported) := by
  obtain ⟨hl, -, -, hlive, -⟩ := h.fresh s.next (Nat.le_refl _)
  refine ⟨fun n hn ↦ ?_, fun n l hln ↦ ?_, h.listener, fun n task htask hln ↦ ?_, h.registered,
    h.reaping, h.busy⟩
  · have hn : s.next + 1 ≤ n := hn
    obtain ⟨hl, hh, ht, hrest⟩ := h.fresh n (by omega)
    exact ⟨hl, hh, by simp [State.finish, Function.update_of_ne (show n ≠ s.next by omega), ht],
      hrest⟩
  · obtain ⟨hd, tk, hh, ht, hcell⟩ := h.cell n l hln
    have hne : n ≠ s.next := by
      rintro rfl
      have hln : s.listeners s.next = some l := hln
      rw [hl] at hln
      cases hln
    exact ⟨hd, tk, hh, by simp [State.finish, Function.update_of_ne hne, ht], hcell⟩
  · by_cases hn : n = s.next
    · subst hn
      simp only [State.finish, Function.update_self, Option.some.injEq] at htask
      rw [← htask]
      exact hphase
    · simp only [State.finish, Function.update_of_ne hn] at htask
      exact h.sender n task htask hln

/-- Who is busy after a request connects. -/
theorem busy_connect {key : String → Digest} {wrapper m : Nat} {request : Request} {place : Place}
    (h : (s.connect key wrapper request).Busy m place) :
    m = s.next ∧ place = (wrapper, (key request.url).1) ∨ s.Busy m place := by
  obtain ⟨l, hl, rfl, hb⟩ := h
  by_cases hm : m = s.next
  · subst hm
    simp only [State.connect, Function.update_self, Option.some.injEq] at hl
    exact .inl ⟨rfl, by rw [← hl]⟩
  · exact .inr ⟨l, (Function.update_of_ne hm _ _).symm.trans hl, rfl, hb⟩

/-- A request that connects where there is no entry. -/
theorem Single.connect (h : Single s) (key : String → Digest) (wrapper : Nat) (request : Request)
    (hpopped : s.popped wrapper = false) (hid : request.websocketId = "")
    (hpool : s.pool (wrapper, key request.url) = none) :
    Single (s.connect key wrapper request) := by
  obtain ⟨hl, -, -, hdead, hidle⟩ := h.fresh s.next (Nat.le_refl _)
  -- no listener waits at this place
  have hvacant : ∀ n, ¬ Pooled (s.popped wrapper) (s.pool (wrapper, key request.url)) n := by
    simp [Pooled, hpool, hpopped]
  have hbusy : ∀ m n place, (s.connect key wrapper request).Busy m place →
      (s.connect key wrapper request).Busy n place → m = n := by
    have hother : ∀ m place, s.Busy m place → place ≠ (wrapper, (key request.url).1) := by
      rintro m place ⟨l, hlm, rfl, hb⟩ hplace
      obtain ⟨hd, tk, hh, ht, hcell⟩ := h.cell m l hlm
      have hpooled := hcell.pooled hb
      rw [hplace] at hpooled
      exact hvacant m hpooled
    intro m n place hm hn
    obtain ⟨rfl, hplace⟩ | hm := busy_connect hm
    · obtain ⟨rfl, -⟩ | hn := busy_connect hn
      · rfl
      · exact absurd hplace (hother n place hn)
    · obtain ⟨rfl, hplace⟩ | hn := busy_connect hn
      · exact absurd hplace (hother m place hm)
      · exact h.busy m n place hm hn
  rw [State.connect, hpool] at hbusy ⊢
  simp only [Option.getD_none, Option.bind_none] at hbusy ⊢
  refine ⟨fun n hn ↦ ?_, fun n l hln ↦ ?_, fun n hn ↦ ?_, fun n task htask hln ↦ ?_,
    fun place e he ↦ ?_, fun e r hr ↦ ?_, fun m n place hm hn ↦ ?_⟩
  · have hn : s.next + 1 ≤ n := hn
    have hne : n ≠ s.next := by omega
    simp only [Function.update_of_ne hne]
    exact h.fresh n (by omega)
  · by_cases hne : n = s.next
    · subst hne
      simp only [Function.update_self, Option.some.injEq] at hln ⊢
      subst hln
      refine ⟨_, _, rfl, rfl, rfl, rfl, by simp [Entry.init], hid, .inl ⟨rfl, .inl ?_⟩, rfl,
        by simp, fun _ ↦ .inl ?_, fun _ ↦ hdead, by simp, fun _ ↦ .inr rfl, by simp, by simp,
        by simp⟩
      · exact Function.update_self ..
      · exact Function.update_self ..
    · simp only [Function.update_of_ne hne] at hln ⊢
      obtain ⟨hd, tk, hh, ht, hcell⟩ := h.cell n l hln
      refine ⟨hd, tk, hh, ht, ?_⟩
      by_cases hplace : l.place = (wrapper, (key request.url).1)
      · refine hcell.setPool _ fun hpooled ↦ ?_
        rw [hplace] at hpooled
        exact absurd hpooled (hvacant n)
      · rw [Function.update_of_ne hplace]
        exact hcell
  · by_cases hne : n = s.next
    · subst hne
      simp
    · simp only [Function.update_of_ne hne] at hn ⊢
      exact h.listener n hn
  · by_cases hne : n = s.next
    · subst hne
      simp at hln
    · simp only [Function.update_of_ne hne] at htask hln
      exact h.sender n task htask hln
  · by_cases hplace : place = (wrapper, (key request.url).1)
    · subst hplace
      simp only [Function.update_self, Option.some.injEq] at he
      subst he
      exact ⟨_, Function.update_self .., rfl⟩
    · simp only [Function.update_of_ne hplace] at he
      obtain ⟨l, hle, hlplace⟩ := h.registered place e he
      have hne : e ≠ s.next := by
        rintro rfl
        rw [hl] at hle
        cases hle
      exact ⟨l, (Function.update_of_ne hne _ _).trans hle, hlplace⟩
  · obtain ⟨l, hd, hle, hh, hrest⟩ := h.reaping e r hr
    have hne : e ≠ s.next := by
      rintro rfl
      rw [hl] at hle
      cases hle
    exact ⟨l, hd, (Function.update_of_ne hne _ _).trans hle, (Function.update_of_ne hne _ _).trans hh,
      hrest⟩
  · exact hbusy m n place hm hn

/-- Where a request finds no entry, there is none. -/
theorem Single.pool_none (h : Single s) {place : Place}
    (hfound : (s.pool place).bind (fun entry ↦ (s.entries entry).map (entry, ·)) = none) :
    s.pool place = none := by
  cases hpool : s.pool place with
  | none => rfl
  | some e =>
    obtain ⟨l, hl, -⟩ := h.registered place e hpool
    obtain ⟨hd, -, hh, -⟩ := h.cell e l hl
    rw [hpool, Option.bind_some, hh] at hfound
    cases hfound

/-- `process_websocket_request` under the condition. -/
theorem Single.process (h : Single s) (key : String → Digest) (wrapper : Nat) (request : Request)
    (hpopped : s.popped wrapper = false) (hg : ConnectsOnce key s (.process wrapper request)) :
    Single (s.process key wrapper request) := by
  rw [State.process]
  split
  · exact h.finish _ _ _ _ ⟨by simp, by simp⟩
  · split
    · exact h.finish _ _ _ _ ⟨by simp, by simp⟩
    · next hnone =>
      rw [not_and'] at hnone
      split
      · next entry handle hfound =>
        rw [hfound] at hnone
        split
        · next hempty =>
          -- the condition excludes a second connection
          exfalso
          obtain ⟨e, hpool, hfound⟩ := Option.bind_eq_some_iff.mp hfound
          obtain ⟨hd, hh, hpair⟩ := Option.map_eq_some_iff.mp hfound
          cases hpair
          have hg := hg hempty
          rw [State.found, hpool, Option.bind_some, hh] at hg
          split at hg
          · cases hg
          · next hid => exact hnone hg hid
        · split
          · exact (h.refer entry _ keeps_release).finish _ _ _ _ ⟨by simp, by simp⟩
          · exact h.finish _ _ _ _ ⟨by simp, by simp⟩
      · next hfound =>
        rw [hfound] at hnone
        have hid : request.websocketId = "" := by simpa using hnone rfl
        have hpool := h.pool_none hfound
        rw [Request.poolKey, if_pos hid] at hpool
        exact h.connect key wrapper request hpopped hid hpool

/-- One event under the condition. -/
theorem Single.step (key : String → Digest) {e : Event} (h : Single s)
    (hg : ConnectsOnce key s e) (hs : s.step key e = some t) : Single t := by
  cases e with
  | process wrapper request =>
    rw [State.step] at hs
    split at hs
    · cases hs
    · next hpopped =>
      cases hs
      exact h.process key wrapper request (Bool.eq_false_iff.mpr hpopped) hg
  | send n => exact h.send hs
  | sendRaises n => exact h.sendRaises hs
  | connected n stopping => exact h.connected hs
  | listenerSend n => exact h.listenerSend hs
  | failed n => exact h.failed hs
  | stopped n => exact h.stopped hs
  | closed n => exact h.closed hs
  | unwound n => exact h.unwound hs
  | resume n => exact h.resume hs
  | resumed n => exact h.resumed hs
  | acquire entry =>
    cases hs
    exact h.refer entry _ keeps_acquire
  | endWebsocket entry =>
    cases hs
    exact h.refer entry _ (keeps_release.comp keeps_markEnd)
  | requestStop entry =>
    cases hs
    exact h.refer entry _ keeps_requestStop
  | dropped n =>
    cases hs
    exact h.dropped n
  | pop wrapper =>
    cases hs
    exact h.pop wrapper
  | reap place => exact h.reap hs
  | reaped entry => exact h.reaped hs
  | cleared place => exact h.cleared hs

/-- Nothing runs at first. -/
theorem single_initial : Single State.initial where
  fresh _ _ := ⟨rfl, rfl, rfl, rfl, rfl⟩
  cell _ _ h := by cases h
  listener _ h := by simp [State.initial] at h
  sender _ _ h := by cases h
  registered _ _ h := by cases h
  reaping _ _ h := by cases h
  busy _ _ _ := by
    rintro ⟨l, h, -⟩
    cases h

/-- In every run in which requests connect only where there is no entry, each place has at most
one listener and one connection. -/
theorem one_listener_per_place (key : String → Digest)
    (h : (machine key).Reach (ConnectsOnce key) s) : s.Sole := by
  have hsingle : Single s :=
    h.invariant (fun _ hinit ↦ hinit ▸ single_initial) fun _ _ _ _ hs hg hstep ↦
      hs.step key hg hstep
  exact hsingle.sole

/-- A request for a URL that sends these messages. -/
def urlRequest (identity : Nat) (sendMessage : List String) : Request :=
  ⟨identity, "", "", "wss://example.com", sendMessage⟩

/-- A connection, a message on it, its end, and a connection again. -/
def connectedTwice : List Event :=
  [.process 0 (urlRequest 0 []), .connected 0 false, .process 0 (urlRequest 1 ["hello"]), .send 1,
    .endWebsocket 0, .stopped 0, .closed 0, .resume 0, .process 0 (urlRequest 2 []),
    .connected 2 false]

theorem one_listener_per_place_connectedTwice :
    (((machine twoDigests).runIf (ConnectsOnce twoDigests) .initial connectedTwice).getD
      .initial).Sole :=
  one_listener_per_place twoDigests (.runIf connectedTwice (.init rfl) rfl)

/-- A connection, and a request without messages for the same URL. -/
def replacedListener : List Event :=
  [.process 0 (urlRequest 0 []), .connected 0 false, .process 0 (urlRequest 1 [])]

/-- A request without messages replaces the listener of a connection that is open. -/
theorem second_connect_replaces : ¬ ∀ s, (machine twoDigests).Reachable s → s.Sole := by
  intro h
  have hreached : (machine twoDigests).Reachable
      (((machine twoDigests).run .initial replacedListener).getD .initial) :=
    .run replacedListener (.init rfl) rfl
  have hlisteners := (h _ hreached).listeners 0 1 _ _ rfl rfl (by decide) (by decide) rfl
  cases hlisteners

end ScrapyCffi.Sessions.Listeners
