import ScrapyCffi.Sessions.Closing
import ScrapyCffi.Sessions.WebSockets

/-!
# Which connection a WebSocket request reaches

Every step of a request resolves its session id anew, and `random.choice` picks a member of a
group each time (`scrapy_cffi/core/sessions.py:730–738`). The guard `OneSession` leaves the ids
that always resolve to one session.
-/

namespace ScrapyCffi.Sessions.WebSockets

open ScrapyCffi.Base ScrapyCffi.Sessions

variable (key : String → Digest)

/-- Requests and signals with the session id of an open connection reach it, whatever the random
choices are. -/
structure State.Reaches (s : State) (connection : Connection) : Prop where
  intercepted : ∀ (request : Request) (choice : Nat), request.sessionId = connection.sessionId →
    request.websocketId = key connection.url → request.url = "" →
    (s.intercept key request choice).1 = .passed { request with url := connection.url }
  sent : ∀ (request : Request) (choice : Nat), request.sessionId = connection.sessionId →
    request.websocketId = key connection.url → request.url ≠ "" → request.sendMessage ≠ [] →
    (s.process key request choice).1 = .sent (some connection.serial) ∧
    (s.process key request choice).2.sent =
      s.sent ++ request.sendMessage.map (connection.serial, ·)
  signalled : ∀ (signal : CloseSignal) (choice : Nat), signal.sessionId = connection.sessionId →
    signal.websocketEndForKey = key connection.url →
    (s.interceptSignal key signal choice).1 =
      .passed { signal with websocketEndForUrl := connection.url }
  ended : ∀ (signal : CloseSignal) (choice : Nat), signal.sessionId = connection.sessionId →
    signal.websocketEndForUrl = connection.url →
    ∃ entry ended, s.pools connection.wrapper (key connection.url) = some entry ∧
      (s.endWebsocket key signal choice).2.pools connection.wrapper (key connection.url) =
        some ended ∧
      ended.markedEnd = true ∧ (entry.refCount ≤ 1 → ended.stopEvent = true)

/-- The steps of one request resolve its session id to one session. -/
def State.Consistent (s : State) : Prop :=
  ∀ first ∈ s.resolutions, ∀ second ∈ s.resolutions, first.identity = second.identity →
    first.sessionId = second.sessionId → first.concrete = second.concrete

/-- An id that is not a group's, or the id of a group with one session. -/
def State.Single (s : State) (sessionId : String) : Prop :=
  ∀ member ∈ s.manager.members (s.manager.target sessionId),
    some member = (s.manager.members (s.manager.target sessionId)).head?

instance (s : State) (sessionId : String) : Decidable (s.Single sessionId) :=
  inferInstanceAs (Decidable (∀ member ∈ s.manager.members _, _))

/-- Only ids of one session are used, they go on standing for it, and a connection is opened
only where its session has no entry for the URL. -/
def OneSession (s : State) : Event → Prop
  | .intercept request _ => s.Single request.sessionId
  | .interceptSignal signal _ => s.Single signal.sessionId
  | .process request choice => s.Single request.sessionId ∧
    (request.sendMessage = [] →
      ∀ wrapper ∈ (s.manager.getOrCreateSession request.sessionId choice).1,
        s.pools wrapper (key request.url) = none)
  | .endWebsocket signal _ => s.Single signal.sessionId
  | .resolve _ sessionId _ => s.Single sessionId
  | .manage (.registerSessionsBatch _ groupId) =>
    ∀ resolution ∈ s.resolutions, s.manager.target resolution.sessionId ≠ groupId
  | .manage (.markEnd sessionId) => s.manager.groupSessions.lookup sessionId = none →
    ∀ resolution ∈ s.resolutions,
      sessionId ∉ s.manager.members (s.manager.target resolution.sessionId)
  | _ => True

instance (s : State) : ∀ event, Decidable (OneSession key s event)
  | .intercept .. | .interceptSignal .. | .endWebsocket .. | .resolve .. =>
    inferInstanceAs (Decidable (s.Single _))
  | .process .. => inferInstanceAs (Decidable (_ ∧ (_ → ∀ wrapper ∈ Prod.fst _, _)))
  | .manage (.registerSessionsBatch ..) =>
    inferInstanceAs (Decidable (∀ resolution ∈ s.resolutions, _))
  | .manage (.markEnd _) => inferInstanceAs (Decidable (_ → ∀ resolution ∈ s.resolutions, _))
  | .connected _ | .closing .. | .removed .. => .isTrue trivial
  | .manage (.acquire _) | .manage (.release _) | .manage (.getOrCreateSession ..)
  | .manage .freeze | .manage .take | .manage .safeClose | .manage .closed => .isTrue trivial

variable {key} {s t u : State} {connection : Connection} {request : Request}
  {signal : CloseSignal} {sessionId : String} {identity choice : Nat}

/-- A connection belongs to the session that its id resolves to, and the pool has its entry. -/
structure Links (key : String → Digest) (s : State) (connection : Connection)
    (websocket : Option Nat) : Prop where
  resolved : ∃ resolution ∈ s.resolutions, resolution.sessionId = connection.sessionId ∧
    resolution.concrete = connection.concrete
  registered : s.manager.sessions connection.concrete = some connection.wrapper
  url : connection.url ≠ ""
  entry : ∃ entry, s.pools connection.wrapper (key connection.url) = some entry ∧
    entry.url = connection.url ∧ entry.websocket = websocket ∧ entry.closed = false

/-- The pool and the key of a connection. -/
def Connection.place (key : String → Digest) (connection : Connection) : Nat × String :=
  (connection.wrapper, key connection.url)

/-- What the steps keep. -/
structure Linked (key : String → Digest) (s : State) : Prop where
  stable : ∀ resolution ∈ s.resolutions, ∀ choice,
    s.manager.resolve resolution.sessionId choice = some resolution.concrete
  opening : ∀ connection ∈ s.connecting, Links key s connection none
  opened : ∀ connection ∈ s.connections, Links key s connection (some connection.serial)
  distinct : (s.connecting.map (Connection.place key)).Nodup

/-- A step that keeps sessions and entries, and what the ids resolve to. -/
structure Extends (s t : State) : Prop where
  resolutions : s.resolutions ⊆ t.resolutions
  resolve : ∀ resolution ∈ s.resolutions, ∀ choice,
    t.manager.resolve resolution.sessionId choice = s.manager.resolve resolution.sessionId choice
  fresh : ∀ resolution ∈ t.resolutions, resolution ∈ s.resolutions ∨
    ∀ choice, t.manager.resolve resolution.sessionId choice = some resolution.concrete
  sessions : ∀ concrete wrapper, s.manager.sessions concrete = some wrapper →
    t.manager.sessions concrete = some wrapper
  pools : ∀ wrapper id entry, s.pools wrapper id = some entry →
    ∃ kept, t.pools wrapper id = some kept ∧ kept.url = entry.url ∧
      kept.websocket = entry.websocket ∧ kept.closed = entry.closed
  connecting : t.connecting = s.connecting
  connections : t.connections = s.connections

/-- Nothing changes. -/
theorem Extends.refl (s : State) : Extends s s :=
  ⟨List.Subset.refl _, fun _ _ _ ↦ rfl, fun _ hr ↦ .inl hr, fun _ _ ↦ id,
    fun _ _ entry he ↦ ⟨entry, he, rfl, rfl, rfl⟩, rfl, rfl⟩

/-- One step after another. -/
theorem Extends.trans (h : Extends s t) (ht : Extends t u) : Extends s u where
  resolutions := List.Subset.trans h.resolutions ht.resolutions
  resolve resolution hr choice :=
    (ht.resolve resolution (h.resolutions hr) choice).trans (h.resolve resolution hr choice)
  fresh resolution hr := by
    rcases ht.fresh resolution hr with hr | hr
    · rcases h.fresh resolution hr with hs | hs
      · exact .inl hs
      · exact .inr fun choice ↦ (ht.resolve resolution hr choice).trans (hs choice)
    · exact .inr hr
  sessions concrete wrapper hs := ht.sessions concrete wrapper (h.sessions concrete wrapper hs)
  pools wrapper id entry he := by
    obtain ⟨kept, hk, hurl, hweb, hclosed⟩ := h.pools wrapper id entry he
    obtain ⟨last, hl, hurl', hweb', hclosed'⟩ := ht.pools wrapper id kept hk
    exact ⟨last, hl, hurl'.trans hurl, hweb'.trans hweb, hclosed'.trans hclosed⟩
  connecting := ht.connecting.trans h.connecting
  connections := ht.connections.trans h.connections

/-- A connection keeps its session and its entry. -/
theorem Links.extend {websocket : Option Nat} (h : Links key s connection websocket)
    (he : Extends s t) : Links key t connection websocket := by
  obtain ⟨⟨resolution, hr, hid, hconcrete⟩, hregistered, hurl, entry, hentry, hu, hw, hc⟩ := h
  obtain ⟨kept, hk, hku, hkw, hkc⟩ := he.pools _ _ _ hentry
  exact ⟨⟨resolution, he.resolutions hr, hid, hconcrete⟩, he.sessions _ _ hregistered, hurl,
    kept, hk, hku.trans hu, hkw.trans hw, hkc.trans hc⟩

/-- So do all of them. -/
theorem Linked.extend (h : Linked key s) (he : Extends s t) : Linked key t where
  stable resolution hr choice := by
    rcases he.fresh resolution hr with hs | hs
    · rw [he.resolve resolution hs]
      exact h.stable resolution hs choice
    · exact hs choice
  opening connection hc := by
    rw [he.connecting] at hc
    exact (h.opening connection hc).extend he
  opened connection hc := by
    rw [he.connections] at hc
    exact (h.opened connection hc).extend he
  distinct := by
    rw [he.connecting]
    exact h.distinct

/-- A step of the manager that leaves its groups alone. -/
theorem extends_manager {manager : Sessions.State}
    (hd : manager.defaultSessionId = s.manager.defaultSessionId)
    (hg : manager.groupSessions = s.manager.groupSessions)
    (hs : ∀ concrete wrapper, s.manager.sessions concrete = some wrapper →
      manager.sessions concrete = some wrapper) : Extends s { s with manager } where
  resolutions := List.Subset.refl _
  resolve resolution _ choice := by simp [Sessions.State.resolve, Sessions.State.target, hd, hg]
  fresh _ hr := .inl hr
  sessions := hs
  pools _ _ entry he := ⟨entry, he, rfl, rfl, rfl⟩
  connecting := rfl
  connections := rfl

/-- `acquire` counts. -/
theorem extends_acquire (s : State) (sessionId : String) : Extends s (s.acquire sessionId) := by
  obtain ⟨_, _, he⟩ := acquire_eq s.manager sessionId
  rw [State.acquire, he]
  exact extends_manager rfl rfl fun _ _ ↦ id

/-- `release` counts, and may queue the session. -/
theorem extends_release (s : State) (sessionId : String) : Extends s (s.release sessionId) := by
  obtain ⟨_, _, _, _, he⟩ := release_eq s.manager sessionId
  rw [State.release, he]
  exact extends_manager rfl rfl fun _ _ ↦ id

/-- The references of an entry are not what it connects to. -/
theorem extends_modifyEntry (s : State) (wrapper : Nat) (id : String) {f : Entry → Entry}
    (hf : ∀ entry, (f entry).url = entry.url ∧ (f entry).websocket = entry.websocket ∧
      (f entry).closed = entry.closed) : Extends s (s.modifyEntry wrapper id f) where
  resolutions := List.Subset.refl _
  resolve _ _ _ := rfl
  fresh _ hr := .inl hr
  sessions _ _ := fun hs ↦ hs
  pools w k entry he := by
    by_cases hp : w = wrapper ∧ k = id
    · exact ⟨f entry, by rw [pools_modifyEntry, if_pos hp, he]; rfl, hf entry⟩
    · exact ⟨entry, by rw [pools_modifyEntry, if_neg hp, he], rfl, rfl, rfl⟩
  connecting := rfl
  connections := rfl

/-- `acquire` of an entry. -/
theorem acquire_keeps (entry : Entry) : entry.acquire.url = entry.url ∧
    entry.acquire.websocket = entry.websocket ∧ entry.acquire.closed = entry.closed :=
  ⟨rfl, rfl, rfl⟩

/-- `release` of an entry. -/
theorem release_keeps (entry : Entry) : entry.release.url = entry.url ∧
    entry.release.websocket = entry.websocket ∧ entry.release.closed = entry.closed := by
  unfold Entry.release
  split <;> exact ⟨rfl, rfl, rfl⟩

/-- `mark_end` of an entry. -/
theorem markEnd_keeps (entry : Entry) : entry.markEnd.url = entry.url ∧
    entry.markEnd.websocket = entry.websocket ∧ entry.markEnd.closed = entry.closed := by
  unfold Entry.markEnd
  split <;> exact ⟨rfl, rfl, rfl⟩

/-- The random choice does not matter for one session. -/
theorem resolve_of_single (hs : s.Single sessionId) (choice other : Nat) :
    s.manager.resolve sessionId choice = s.manager.resolve sessionId other := by
  unfold State.Single Sessions.State.members at hs
  unfold Sessions.State.resolve
  split
  · rfl
  · next members hl =>
    simp only [hl, Option.getD_some] at hs
    have hall : ∀ index < members.length, members[index]? = members.head? := by
      intro index hi
      rw [List.getElem?_eq_getElem hi]
      exact hs _ (List.getElem_mem hi)
    cases members with
    | nil => rfl
    | cons member members =>
      rw [hall _ (Nat.mod_lt _ (by simp)), hall _ (Nat.mod_lt _ (by simp))]

/-- What `get_or_create_session` answers is registered. -/
theorem session_eq (s : State) (identity : Nat) (sessionId : String) (choice : Nat) :
    (s.session identity sessionId choice = (none, s) ∧
      s.manager.resolve sessionId choice = none) ∨
    ∃ concrete wrapper manager,
      s.manager.resolve sessionId choice = some concrete ∧
      s.manager.getOrCreateSession sessionId choice = (some wrapper, manager) ∧
      manager.defaultSessionId = s.manager.defaultSessionId ∧
      manager.groupSessions = s.manager.groupSessions ∧
      manager.sessions concrete = some wrapper ∧
      (∀ other old, s.manager.sessions other = some old → manager.sessions other = some old) ∧
      s.session identity sessionId choice = (some (concrete, wrapper), { s with
        manager
        resolutions := ⟨identity, sessionId, concrete⟩ :: s.resolutions }) := by
  unfold State.session
  cases hr : s.manager.resolve sessionId choice with
  | none => exact .inl ⟨rfl, rfl⟩
  | some concrete =>
    refine .inr ⟨concrete, ?_⟩
    unfold Sessions.State.getOrCreateSession
    simp only [hr]
    cases hs : s.manager.sessions concrete with
    | some wrapper => exact ⟨wrapper, s.manager, trivial, rfl, rfl, rfl, hs, fun _ _ ↦ id, rfl⟩
    | none =>
      refine ⟨s.manager.created, _, trivial, rfl, rfl, rfl, Function.update_self ..,
        fun other old ho ↦ ?_, rfl⟩
      have hne : other ≠ concrete := by
        rintro rfl
        rw [hs] at ho
        cases ho
      simpa [Function.update_of_ne hne] using ho

/-- Resolving an id of one session. -/
theorem extends_session (hs : s.Single sessionId) (identity choice : Nat) :
    Extends s (s.session identity sessionId choice).2 := by
  rcases session_eq s identity sessionId choice with ⟨he, _⟩ |
    ⟨concrete, wrapper, manager, hr, _, hd, hg, _, hold, he⟩
  · rw [he]
    exact .refl s
  · rw [he]
    refine (extends_manager hd hg hold).trans ⟨List.subset_cons_self .., fun _ _ _ ↦ rfl,
      fun resolution hm ↦ ?_, fun _ _ ↦ id, fun _ _ entry he ↦ ⟨entry, he, rfl, rfl, rfl⟩, rfl,
      rfl⟩
    rcases List.mem_cons.mp hm with rfl | hm
    · refine .inr fun other ↦ ?_
      rw [← hr, resolve_of_single hs choice other]
      simp [Sessions.State.resolve, Sessions.State.target, hd, hg]
    · exact .inl hm

/-- `acquire` and the resolution of the interceptor. -/
theorem extends_acquire_session (hs : s.Single sessionId) (identity choice : Nat) :
    Extends s ((s.acquire sessionId).session identity sessionId choice).2 := by
  refine (extends_acquire s sessionId).trans (extends_session ?_ identity choice)
  obtain ⟨_, _, he⟩ := acquire_eq s.manager sessionId
  rw [State.acquire, he]
  exact hs

/-- The interceptor's step for a request. -/
theorem extends_intercept (hs : s.Single request.sessionId) (choice : Nat) :
    Extends s (s.intercept key request choice).2 := by
  have hsession := extends_acquire_session hs request.identity choice
  unfold State.intercept
  split
  · next he =>
    rw [he] at hsession
    exact hsession
  · next he =>
    rw [he] at hsession
    split
    · split
      · exact hsession.trans (extends_modifyEntry _ _ _ acquire_keeps)
      · exact hsession
    · exact hsession

/-- The interceptor's step for a signal. -/
theorem extends_interceptSignal (hs : s.Single signal.sessionId) (choice : Nat) :
    Extends s (s.interceptSignal key signal choice).2 := by
  have hsession := extends_acquire_session hs signal.identity choice
  unfold State.interceptSignal
  split
  · next he =>
    rw [he] at hsession
    exact hsession
  · next t he =>
    rw [he] at hsession
    dsimp only
    split
    · exact hsession.trans (extends_modifyEntry _ _ _ acquire_keeps)
    · split <;> exact hsession

/-- `end_websocket`. -/
theorem extends_endWebsocket (hs : s.Single signal.sessionId) (choice : Nat) :
    Extends s (s.endWebsocket key signal choice).2 := by
  have hsession := extends_session hs signal.identity choice
  unfold State.endWebsocket
  split
  · next he =>
    rw [he] at hsession
    exact hsession
  · next t he =>
    rw [he] at hsession
    split
    · exact hsession
    · split
      · exact hsession
      · exact hsession.trans ((extends_modifyEntry _ _ _ markEnd_keeps).trans
          ((extends_modifyEntry _ _ _ release_keeps).trans (extends_release _ _)))

/-- The messages of a request are sent. -/
theorem extends_send (s : State) (request : Request) (wrapper : Nat) (id : String)
    (entry : Entry) : Extends s (s.send request wrapper id entry) := by
  have h := (extends_modifyEntry s wrapper id release_keeps).trans
    (extends_release _ request.sessionId)
  exact ⟨h.resolutions, h.resolve, h.fresh, h.sessions, h.pools, h.connecting, h.connections⟩

/-- A connection depends on the session and the entry that it has. -/
theorem Links.congr {websocket : Option Nat} (h : Links key s connection websocket)
    (hr : s.resolutions ⊆ t.resolutions)
    (hs : t.manager.sessions connection.concrete = some connection.wrapper)
    (hp : t.pools connection.wrapper (key connection.url) =
      s.pools connection.wrapper (key connection.url)) : Links key t connection websocket := by
  obtain ⟨⟨resolution, hm, hid⟩, _, hurl, entry, hentry, hkept⟩ := h
  exact ⟨⟨resolution, hr hm, hid⟩, hs, hurl, entry, hp.trans hentry, hkept⟩

/-- A connection is asked for where its session has no entry for the URL. -/
theorem Linked.connect (h : Linked key s) {concrete : String} {wrapper : Nat}
    (hr : ∃ resolution ∈ s.resolutions, resolution.sessionId = request.sessionId ∧
      resolution.concrete = concrete)
    (hregistered : s.manager.sessions concrete = some wrapper) (hurl : request.url ≠ "")
    (hnone : s.pools wrapper (key request.url) = none) :
    Linked key (s.connect key request concrete wrapper) := by
  have hne : ∀ {c : Connection} {websocket : Option Nat}, Links key s c websocket →
      ¬ (c.wrapper = wrapper ∧ (key c.url : String) = key request.url) := by
    rintro c websocket hl ⟨hw, hk⟩
    obtain ⟨entry, hentry, _⟩ := hl.entry
    rw [hw, hk, hnone] at hentry
    cases hentry
  have hkeep : ∀ {c : Connection} {websocket : Option Nat}, Links key s c websocket →
      Links key (s.connect key request concrete wrapper) c websocket :=
    fun hl ↦ hl.congr (List.Subset.refl _) hl.registered (if_neg (hne hl))
  refine ⟨h.stable, fun c hc ↦ ?_, fun c hc ↦ hkeep (h.opened c hc), ?_⟩
  · rcases List.mem_cons.mp hc with rfl | hc
    · refine ⟨hr, hregistered, hurl, .init request.url, ?_, rfl, rfl, rfl⟩
      simp [State.connect, hnone]
    · exact hkeep (h.opening c hc)
  · refine List.nodup_cons.mpr ⟨fun hm ↦ ?_, h.distinct⟩
    obtain ⟨c, hc, he⟩ := List.mem_map.mp hm
    exact hne (h.opening c hc) (Prod.mk.inj he)

/-- `process_websocket_request`. -/
theorem Linked.process (h : Linked key s) (hs : s.Single request.sessionId)
    (hg : request.sendMessage = [] →
      ∀ wrapper ∈ (s.manager.getOrCreateSession request.sessionId choice).1,
        s.pools wrapper (key request.url) = none) :
    Linked key (s.process key request choice).2 := by
  have hsession := extends_session hs request.identity choice
  unfold State.process
  rcases session_eq s request.identity request.sessionId choice with ⟨he, _⟩ |
    ⟨concrete, wrapper, manager, _, hwrapper, _, _, hregistered, _, he⟩
  · rw [he]
    exact h
  · rw [he] at hsession ⊢
    have hlinked := h.extend hsession
    have hresolved : ∃ resolution ∈ (⟨request.identity, request.sessionId, concrete⟩ ::
        s.resolutions : List Resolution), resolution.sessionId = request.sessionId ∧
        resolution.concrete = concrete := ⟨_, List.mem_cons_self, rfl, rfl⟩
    dsimp only
    split
    · exact hlinked
    · next hurl =>
      split
      · exact hlinked.extend (extends_release _ _)
      · next hopen =>
        split
        · next entry hentry =>
          split
          · next hmessage =>
            refine hlinked.connect hresolved hregistered hurl (hg hmessage wrapper ?_)
            rw [hwrapper]
            rfl
          · exact hlinked.extend (extends_send _ _ _ _ _)
        · next hentry =>
          refine hlinked.connect hresolved hregistered hurl ?_
          by_cases hid : request.websocketId = ""
          · simpa [Request.poolKey, hid] using hentry
          · exact absurd ⟨hid, by rw [hentry]; rfl⟩ hopen

/-- The listener of a connection has connected. -/
theorem Linked.connected (h : Linked key s) (hs : s.connected key connection = some t) :
    Linked key t := by
  unfold State.connected at hs
  split at hs
  · next hc =>
    have hl := h.opening connection hc
    obtain ⟨entry, hentry, hu, hw, hclosed⟩ := hl.entry
    simp only [hentry, Option.some.injEq] at hs
    subst hs
    have hopened : ∀ c ∈ s.connections, ¬ (c.wrapper = connection.wrapper ∧
        (key c.url : String) = key connection.url) := by
      rintro c hm ⟨hwrapper, hkey⟩
      obtain ⟨other, hother, _, hwebsocket, _⟩ := (h.opened c hm).entry
      rw [hwrapper, hkey, hentry] at hother
      cases hother
      rw [hw] at hwebsocket
      cases hwebsocket
    have hperm := (List.perm_cons_erase hc).map (Connection.place key)
    obtain ⟨hnot, hdistinct⟩ := List.nodup_cons.mp (hperm.nodup_iff.mp h.distinct)
    have hopening : ∀ c ∈ s.connecting.erase connection, ¬ (c.wrapper = connection.wrapper ∧
        (key c.url : String) = key connection.url) :=
      fun c hm he ↦ hnot (List.mem_map.mpr ⟨c, hm, Prod.ext he.1 he.2⟩)
    refine ⟨h.stable, fun c hm ↦ ?_, fun c hm ↦ ?_, hdistinct⟩
    · have hold := h.opening c (List.mem_of_mem_erase hm)
      exact hold.congr (List.Subset.refl _) hold.registered (if_neg (hopening c hm))
    · by_cases hold : c ∈ s.connections
      · exact (h.opened c hold).congr (List.Subset.refl _) (h.opened c hold).registered
          (if_neg (hopened c hold))
      · have he : c = connection := by
          dsimp only at hm
          split at hm
          · exact absurd hm hold
          · exact (List.mem_cons.mp hm).resolve_right hold
        subst he
        refine ⟨hl.resolved, hl.registered, hl.url,
          { entry with websocket := some c.serial }, ?_, hu, rfl, hclosed⟩
        exact (pools_modifyEntry ..).trans (by rw [if_pos ⟨rfl, rfl⟩, hentry]; rfl)
  · cases hs

/-- Connections are only dropped, and those left keep their sessions and entries. -/
theorem Linked.drop (h : Linked key s)
    (hd : t.manager.defaultSessionId = s.manager.defaultSessionId)
    (hg : t.manager.groupSessions = s.manager.groupSessions)
    (hr : t.resolutions = s.resolutions) (hconnecting : t.connecting.Sublist s.connecting)
    (hconnections : t.connections.Sublist s.connections)
    (hkeep : ∀ c ∈ t.connecting ++ t.connections,
      s.manager.sessions c.concrete = some c.wrapper →
      t.manager.sessions c.concrete = some c.wrapper ∧
      t.pools c.wrapper (key c.url) = s.pools c.wrapper (key c.url)) : Linked key t := by
  have hlinks : ∀ {c : Connection} {websocket : Option Nat}, c ∈ t.connecting ++ t.connections →
      Links key s c websocket → Links key t c websocket := by
    intro c websocket hm hl
    obtain ⟨hs, hp⟩ := hkeep c hm hl.registered
    exact hl.congr (hr ▸ List.Subset.refl _) hs hp
  refine ⟨fun resolution hm choice ↦ ?_, fun c hm ↦ ?_, fun c hm ↦ ?_,
    h.distinct.sublist (hconnecting.map _)⟩
  · rw [hr] at hm
    rw [← h.stable resolution hm choice]
    simp only [Sessions.State.resolve, Sessions.State.target, hd, hg]
  · exact hlinks (List.mem_append_left _ hm) (h.opening c (hconnecting.subset hm))
  · exact hlinks (List.mem_append_right _ hm) (h.opened c (hconnections.subset hm))

/-- A connection begins to close. -/
theorem Linked.closing (h : Linked key s) (wrapper : Nat) (id : String) :
    Linked key (s.closing key wrapper id) := by
  refine h.drop rfl rfl rfl List.filter_sublist List.filter_sublist fun c hm hs ↦ ⟨hs, ?_⟩
  have hp : ¬ c.At key wrapper id := by
    rcases List.mem_append.mp hm with hm | hm <;> simpa using (List.mem_filter.mp hm).2
  exact (pools_modifyEntry ..).trans (if_neg hp)

/-- A closed entry is removed. -/
theorem Linked.removed (h : Linked key s) {wrapper : Nat} {id : String}
    (hs : s.removed wrapper id = some t) : Linked key t := by
  unfold State.removed at hs
  split at hs
  · next hclosed =>
    cases hs
    refine h.drop rfl rfl rfl (.refl _) (.refl _) fun c hm hreg ↦ ⟨hreg, if_neg ?_⟩
    rintro ⟨rfl, rfl⟩
    have hentry : ∃ entry, s.pools c.wrapper (key c.url) = some entry ∧
        entry.closed = false := by
      rcases List.mem_append.mp hm with hm | hm
      · obtain ⟨entry, he, _, _, hc⟩ := (h.opening c hm).entry
        exact ⟨entry, he, hc⟩
      · obtain ⟨entry, he, _, _, hc⟩ := (h.opened c hm).entry
        exact ⟨entry, he, hc⟩
    obtain ⟨entry, he, hc⟩ := hentry
    simp [he, hc] at hclosed
  · cases hs

/-- The reaper closes the connections of the wrapper that it pops. -/
theorem Linked.safeClose (h : Linked key s) (hs : s.manage .safeClose = some t) :
    Linked key t := by
  obtain ⟨manager, hm, rfl⟩ := Option.map_eq_some_iff.mp hs
  simp only [Sessions.State.step, Sessions.State.safeClose] at hm
  split at hm
  · next sessionId hreaper =>
    cases hc : s.manager.closes with
    | none =>
      simp only [hc, Option.some.injEq] at hm
      subst hm
      exact h.drop rfl rfl rfl (.refl _) (.refl _) fun c _ hreg ↦ ⟨hreg, rfl⟩
    | some closed =>
      obtain ⟨concrete, wrapper⟩ := closed
      simp only [hc, Option.some.injEq] at hm
      subst hm
      have hpopped : s.manager.sessions sessionId = some wrapper := by
        unfold Sessions.State.closes at hc
        simp only [hreaper] at hc
        split at hc
        · cases hc
        · obtain ⟨_, hw, he⟩ := Option.map_eq_some_iff.mp hc
          rw [hw, (Prod.mk.inj he).2]
      refine h.drop rfl rfl rfl List.filter_sublist List.filter_sublist fun c hm hreg ↦ ?_
      have hne : c.wrapper ≠ wrapper := by
        rcases List.mem_append.mp hm with hm | hm <;> simpa using (List.mem_filter.mp hm).2
      refine ⟨?_, if_neg hne⟩
      have hother : c.concrete ≠ sessionId := by
        intro he
        rw [he, hpopped] at hreg
        exact hne (Option.some.inj hreg).symm
      exact (Function.update_of_ne hother ..).trans hreg
  · cases hm

/-- Other steps of the manager only change the manager. -/
theorem manage_eq {event : Sessions.Event} (he : event ≠ .safeClose) :
    s.manage event = (s.manager.step event).map fun manager ↦ { s with manager } := by
  cases event with
  | safeClose => exact absurd rfl he
  | _ => rfl

/-- A registration of another group. -/
theorem extends_register {userIds : List String} {groupId : String}
    (hg : ∀ resolution ∈ s.resolutions, s.manager.target resolution.sessionId ≠ groupId) :
    Extends s { s with manager := s.manager.registerSessionsBatch userIds groupId } := by
  unfold Sessions.State.registerSessionsBatch
  split
  · exact .refl s
  · obtain ⟨new, sessions, created, he, hkept, _⟩ := registerAll_eq s.manager [] userIds
    simp only [he]
    refine ⟨List.Subset.refl _, fun resolution hr choice ↦ ?_, fun _ hr ↦ .inl hr, hkept,
      fun _ _ entry he ↦ ⟨entry, he, rfl, rfl, rfl⟩, rfl, rfl⟩
    have hne := hg resolution hr
    rw [Sessions.State.target] at hne
    simp only [Sessions.State.resolve, Sessions.State.target, lookup_assign, if_neg hne]

/-- A removal changes no group that does not have the session. -/
theorem lookup_removeMember {groupId : String} {groups : List (String × List String)}
    (hm : sessionId ∉ (groups.lookup groupId).getD []) :
    (removeMember sessionId groups).lookup groupId = groups.lookup groupId := by
  induction groups with
  | nil => rfl
  | cons group groups ih =>
    obtain ⟨name, members⟩ := group
    unfold removeMember
    by_cases hn : groupId = name
    · subst hn
      have hnot : sessionId ∉ members := by simpa using hm
      simp [hnot]
    · have hb : (groupId == name) = false := by simpa using hn
      rw [List.lookup_cons, hb] at hm
      split
      · simp [List.lookup_cons, hb]
      · simpa [List.lookup_cons, hb] using ih hm

/-- `mark_end` of an id that is no member of a group that was used. -/
theorem extends_markEnd (hg : s.manager.groupSessions.lookup sessionId = none →
    ∀ resolution ∈ s.resolutions,
      sessionId ∉ s.manager.members (s.manager.target resolution.sessionId)) :
    Extends s { s with manager := s.manager.markEnd sessionId } := by
  unfold Sessions.State.markEnd
  split
  · exact .refl s
  · split
    · next members _ =>
      obtain ⟨_, _, _, he⟩ := markAll_eq s.manager members
      rw [he]
      exact extends_manager rfl rfl fun _ _ ↦ id
    · next hl =>
      obtain ⟨_, _, _, he⟩ := markEndSingle_eq { s.manager with
        groupSessions := removeMember sessionId s.manager.groupSessions } sessionId
      rw [he]
      refine ⟨List.Subset.refl _, fun resolution hr choice ↦ ?_, fun _ hr ↦ .inl hr,
        fun _ _ ↦ id, fun _ _ entry he ↦ ⟨entry, he, rfl, rfl, rfl⟩, rfl, rfl⟩
      have hm := hg hl resolution hr
      rw [Sessions.State.members, Sessions.State.target] at hm
      simp only [Sessions.State.resolve, Sessions.State.target, lookup_removeMember hm]

/-- A step of the manager. -/
theorem Linked.manage {event : Sessions.Event} (h : Linked key s)
    (hg : OneSession key s (.manage event)) (hs : s.manage event = some t) : Linked key t := by
  by_cases he : event = .safeClose
  · subst he
    exact h.safeClose hs
  · rw [manage_eq he, Option.map_eq_some_iff] at hs
    obtain ⟨manager, hm, rfl⟩ := hs
    refine h.extend ?_
    cases event with
    | acquire sessionId =>
      cases hm
      exact extends_acquire s sessionId
    | release sessionId =>
      cases hm
      exact extends_release s sessionId
    | markEnd sessionId =>
      cases hm
      exact extends_markEnd hg
    | getOrCreateSession sessionId choice =>
      cases hm
      rcases session_eq s 0 sessionId choice with ⟨_, hnone⟩ |
        ⟨_, _, _, _, hcreated, hd, hgroups, _, hold, _⟩
      · rw [Sessions.State.getOrCreateSession, hnone]
        exact .refl s
      · rw [hcreated]
        exact extends_manager hd hgroups hold
    | registerSessionsBatch userIds groupId =>
      cases hm
      exact extends_register hg
    | freeze =>
      cases hm
      exact extends_manager rfl rfl fun _ _ ↦ id
    | take =>
      simp only [Sessions.State.step, Sessions.State.take] at hm
      split at hm <;> cases hm
      exact extends_manager rfl rfl fun _ _ ↦ id
    | safeClose => exact absurd rfl he
    | closed =>
      simp only [Sessions.State.step, Sessions.State.closed] at hm
      split at hm <;> cases hm
      exact extends_manager rfl rfl fun _ _ ↦ id

/-- One event. -/
theorem Linked.step {event : Event} (h : Linked key s) (hg : OneSession key s event)
    (hs : s.step key event = some t) : Linked key t := by
  cases event with
  | intercept request choice =>
    cases hs
    exact h.extend (extends_intercept hg choice)
  | interceptSignal signal choice =>
    cases hs
    exact h.extend (extends_interceptSignal hg choice)
  | process request choice =>
    cases hs
    exact h.process hg.1 hg.2
  | endWebsocket signal choice =>
    cases hs
    exact h.extend (extends_endWebsocket hg choice)
  | connected connection => exact h.connected hs
  | closing wrapper id =>
    cases hs
    exact h.closing wrapper id
  | removed wrapper id => exact h.removed hs
  | resolve identity sessionId choice =>
    cases hs
    exact h.extend (extends_session hg identity choice)
  | manage event => exact h.manage hg hs

/-- The id of a connection resolves to its session. -/
theorem session_of_links {websocket : Option Nat} (h : Linked key s)
    (hl : Links key s connection websocket) (identity choice : Nat) :
    s.session identity connection.sessionId choice =
      (some (connection.concrete, connection.wrapper), { s with
        resolutions := ⟨identity, connection.sessionId, connection.concrete⟩ :: s.resolutions }) := by
  obtain ⟨resolution, hr, hid, hconcrete⟩ := hl.resolved
  have hresolve := h.stable resolution hr choice
  rw [hid, hconcrete] at hresolve
  simp only [State.session, Sessions.State.getOrCreateSession, hresolve, hl.registered]
  rfl

/-- A request for an open connection finds its URL. -/
theorem intercept_of_links {websocket : Option Nat} (h : Linked key s)
    (hl : Links key s connection websocket) (hid : request.sessionId = connection.sessionId)
    (hkey : request.websocketId = key connection.url) (hurl : request.url = "") (choice : Nat) :
    (s.intercept key request choice).1 = .passed { request with url := connection.url } := by
  have hacquired := extends_acquire s connection.sessionId
  obtain ⟨entry, hentry, hu, _, _⟩ := hl.entry
  have hne := (key connection.url).2
  unfold State.intercept
  rw [hid, session_of_links (h.extend hacquired) (hl.extend hacquired)]
  simp only [hurl, hkey]
  rw [if_pos ⟨trivial, hne⟩]
  simp only [State.acquire, hentry, hu]

/-- A signal for an open connection finds its URL. -/
theorem interceptSignal_of_links {websocket : Option Nat} (h : Linked key s)
    (hl : Links key s connection websocket) (hid : signal.sessionId = connection.sessionId)
    (hkey : signal.websocketEndForKey = key connection.url) (choice : Nat) :
    (s.interceptSignal key signal choice).1 =
      .passed { signal with websocketEndForUrl := connection.url } := by
  have hacquired := extends_acquire s connection.sessionId
  obtain ⟨entry, hentry, hu, _, _⟩ := hl.entry
  have hne := (key connection.url).2
  unfold State.interceptSignal
  rw [hid, session_of_links (h.extend hacquired) (hl.extend hacquired)]
  simp only [hkey, if_neg hne, State.acquire, hentry, hu]

/-- The messages of a request for an open connection are sent on it. -/
theorem process_of_links (h : Linked key s)
    (hl : Links key s connection (some connection.serial))
    (hid : request.sessionId = connection.sessionId)
    (hkey : request.websocketId = key connection.url) (hurl : request.url ≠ "")
    (hmessage : request.sendMessage ≠ []) (choice : Nat) :
    (s.process key request choice).1 = .sent (some connection.serial) ∧
      (s.process key request choice).2.sent =
        s.sent ++ request.sendMessage.map (connection.serial, ·) := by
  obtain ⟨entry, hentry, _, hw, _⟩ := hl.entry
  have hne := (key connection.url).2
  have hpool : request.poolKey key = key connection.url := by
    rw [Request.poolKey, hkey, if_neg hne]
  have hopen : ¬ (request.websocketId ≠ "" ∧
      (some entry : Option Entry).bind Entry.websocket = none) := by
    simp [hw]
  unfold State.process
  rw [hid, session_of_links h hl]
  simp only [hpool, hentry, if_neg hurl, if_neg hopen, if_neg hmessage, hw, State.send,
    State.release, State.modifyEntry]
  exact ⟨trivial, trivial⟩

/-- An entry that is ended and released has no other use left but those that hold it. -/
theorem ended_of_release (entry : Entry) : entry.markEnd.release.markedEnd = true ∧
    (entry.refCount ≤ 1 → entry.markEnd.release.stopEvent = true) := by
  have hmarked : entry.markEnd.markedEnd = true ∧ entry.markEnd.refCount = entry.refCount := by
    unfold Entry.markEnd
    split <;> exact ⟨rfl, rfl⟩
  unfold Entry.release
  split
  · exact ⟨rfl, fun _ ↦ rfl⟩
  · next hn =>
    refine ⟨hmarked.1, fun hr ↦ absurd ⟨hmarked.1, ?_⟩ hn⟩
    rw [hmarked.2]
    omega

/-- A signal for an open connection ends it. -/
theorem endWebsocket_of_links {websocket : Option Nat} (h : Linked key s)
    (hl : Links key s connection websocket) (hid : signal.sessionId = connection.sessionId)
    (hurl : signal.websocketEndForUrl = connection.url) (choice : Nat) :
    ∃ entry ended, s.pools connection.wrapper (key connection.url) = some entry ∧
      (s.endWebsocket key signal choice).2.pools connection.wrapper (key connection.url) =
        some ended ∧
      ended.markedEnd = true ∧ (entry.refCount ≤ 1 → ended.stopEvent = true) := by
  obtain ⟨entry, hentry, hu, _, _⟩ := hl.entry
  have hpool : signal.poolKey key = key connection.url := by
    rw [CloseSignal.poolKey, hurl, if_neg hl.url]
  refine ⟨entry, entry.markEnd.release, hentry, ?_, ended_of_release entry⟩
  unfold State.endWebsocket
  rw [hid, session_of_links h hl]
  simp only [hpool, if_neg (key connection.url).2, hentry, hu]
  show ((_ : State).modifyEntry _ _ Entry.release).pools _ _ = _
  rw [pools_modifyEntry, if_pos ⟨rfl, rfl⟩, pools_modifyEntry, if_pos ⟨rfl, rfl⟩, hentry]
  rfl

/-- What the steps keep of every run. -/
theorem linked (h : (machine key).Reach (OneSession key) s) : Linked key s := by
  refine h.invariant ?_ fun _ _ _ _ ih hg hs ↦ ih.step hg hs
  rintro s ⟨defaultSessionId, rfl⟩
  exact ⟨nofun, nofun, nofun, .nil⟩

/-- Digests of two letters. -/
def twoDigests (url : String) : Digest :=
  if url = "wss://example.com" then ⟨"c0", by decide⟩ else ⟨"ff", by decide⟩

/-- A request that connects under a session id. -/
def connectRequest (sessionId : String) : Request := ⟨0, sessionId, "", "wss://example.com", []⟩

/-- The connection that it opens. -/
def firstConnection (sessionId concrete : String) : Connection :=
  ⟨sessionId, concrete, 0, "wss://example.com", 0⟩

/-- A connection of a group with one session, and a first message on it. -/
def groupOfOne : List Event :=
  [.manage (.registerSessionsBatch ["a"] "g"), .intercept (connectRequest "g") 5,
    .process (connectRequest "g") 3, .connected (firstConnection "g" "a"),
    .process ⟨1, "g", "c0", "wss://example.com", ["hello"]⟩ 8]

/-- A connection of a group with two sessions. -/
def groupOfTwo : List Event :=
  [.manage (.registerSessionsBatch ["a", "b"] "g"), .process (connectRequest "g") 0,
    .connected (firstConnection "g" "a")]

end ScrapyCffi.Sessions.WebSockets
