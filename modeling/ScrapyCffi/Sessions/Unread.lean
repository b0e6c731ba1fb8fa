import ScrapyCffi.Sessions.Persistence

/-!
# Stored snapshots that are not read

`put` persists the session of a request and `get` restores it (`core/scheduler/redis.py:70–77,
146–217`, `core/sessions.py:914–987`), so the first `put` after a restart may replace a snapshot
that nothing has read.
-/

namespace ScrapyCffi.Sessions

open ScrapyCffi.Base ScrapyCffi.ClientHints

variable {ρ : Type}

/-- The live sessions that a snapshot was imported into or taken of, by the labels of its records,
and the cookies that these have dropped since. A session that is closed is no source any more. -/
structure Link where
  sources : List (Option String × String)
  removed : List (Option String × CookieKey)

/-- A session drops a cookie. -/
def Link.drop (sessionId : String) (key : CookieKey) (link : Link) : Link :=
  { link with
    removed := (link.sources.filter (·.2 = sessionId)).map (fun source ↦ (source.1, key)) ++
      link.removed }

/-- Sessions are closed. -/
def Link.close (closed : String → Bool) (link : Link) : Link :=
  { link with sources := link.sources.filter fun source ↦ !closed source.2 }

/-- A call of `restore_session` that awaits its `hget`, with the reply and the number of the
snapshot it holds once Redis has answered. -/
structure RestoreCall (ρ : Type) where
  stateKey : String
  sessionId : String
  reply : Option (Option (Snapshot ρ) × Nat)

/-- A call of `persist_session` that awaits its `hset`, with the number of the snapshot that was
stored when it began. -/
structure PersistCall (ρ : Type) where
  stateKey : String
  sessionId : String
  snapshot : Snapshot ρ
  version : Nat
  link : Link

/-- The marker of a call. -/
def RestoreCall.marker (call : RestoreCall ρ) : Marker :=
  Sessions.marker call.stateKey call.sessionId

/-- Redis has answered a call. -/
def RestoreCall.answer (call : RestoreCall ρ) (payload : Option (Snapshot ρ)) (version : Nat) :
    RestoreCall ρ :=
  { call with reply := some (payload, version) }

/-- The marker of a call. -/
def PersistCall.marker (call : PersistCall ρ) : Marker :=
  Sessions.marker call.stateKey call.sessionId

/-- A process with persistent sessions, and Redis. `version` counts the snapshots written to a
field. `known` is history: how the stored snapshot is linked to the live sessions, if this process
has imported or written it. -/
structure Persisting (ρ : Type) where
  live : LiveSessions ρ
  restored : List Marker
  restores : List (RestoreCall ρ)
  persists : List (PersistCall ρ)
  store : Marker → Option (Snapshot ρ)
  version : Marker → Nat
  known : Marker → Option Link

namespace Persisting

/-- A new process over what is stored. -/
def start (defaultSessionId : String) (defaults : CookieJar ρ)
    (store : Marker → Option (Snapshot ρ)) (version : Marker → Nat) : Persisting ρ where
  live := .start defaultSessionId defaults
  restored := []
  restores := []
  persists := []
  store
  version
  known _ := none

/-- A step of the manager; a cookie that a live session is given or drops; `put` or a shutdown
persists a session, its `hset` is executed, with or without a reply, or fails; `get` restores a
session, Redis executes its `hget`, and it comes back with the outcomes of `random.choice`, or
fails; or the process is restarted. -/
inductive PersistEvent (ρ : Type)
  | manager (event : Event)
  | setCookie (sessionId : String) (cookie : Cookie ρ)
  | removeCookie (sessionId : String) (key : CookieKey)
  | persistSession (stateKey sessionId : String)
  | hset (n : Nat) (replies : Bool)
  | hsetFails (n : Nat)
  | restoreSession (stateKey sessionId : String)
  | hget (n : Nat)
  | hgetReturns (n : Nat) (choice : String → Nat)
  | hgetFails (n : Nat)
  | restart (defaultSessionId : String)

/-- The links after something that changes the live sessions. -/
def relink (s : Persisting ρ) (f : Link → Link) : Persisting ρ :=
  { s with
    persists := s.persists.map fun call ↦ { call with link := f call.link }
    known := fun m ↦ (s.known m).map f }

/-- The manager takes a step. -/
def manage (defaults : CookieJar ρ) (s : Persisting ρ) (event : Event) : Option (Persisting ρ) :=
  (s.live.manage defaults event).map fun live ↦
    { s.relink (.close fun sessionId ↦ decide ((s.live.manager.sessions sessionId).isSome ∧
        live.manager.sessions sessionId = none)) with live }

/-- `persist_session` up to its `hset`. -/
def persistSession (s : Persisting ρ) (stateKey sessionId : String) : Persisting ρ :=
  match s.live.persistState sessionId with
  | none => s
  | some snapshot =>
    let call : PersistCall ρ := ⟨stateKey, sessionId, snapshot,
      s.version (marker stateKey sessionId), ⟨s.live.exportSources sessionId, []⟩⟩
    { s with persists := s.persists ++ [call] }

/-- An `hset` is executed; with its reply the field is marked. -/
def written (s : Persisting ρ) (call : PersistCall ρ) (replies : Bool) : Persisting ρ :=
  { s with
    restored := if replies then call.marker :: s.restored else s.restored
    store := Function.update s.store call.marker (some call.snapshot)
    version := Function.update s.version call.marker (s.version call.marker + 1)
    known := Function.update s.known call.marker (some call.link) }

/-- The part of `restore_session` behind its `hget`. -/
def resume (env : Environment) (s : Persisting ρ) (call : RestoreCall ρ) (choice : String → Nat)
    (version : Nat) : Option (Snapshot ρ) → Persisting ρ
  | none => { s with restored := call.marker :: s.restored }
  | some snapshot =>
    let imported := s.live.restoreSnapshot env call.sessionId choice snapshot
    let link : Link := ⟨s.live.restoreSources call.sessionId choice snapshot,
      (s.known call.marker).elim [] Link.removed⟩
    { s with
      live := imported.1
      restored := call.marker :: s.restored
      known := if imported.2 = true ∧ version = s.version call.marker then
        Function.update s.known call.marker (some link) else s.known }

/-- One step. -/
def step (env : Environment) (defaults : CookieJar ρ) (s : Persisting ρ) :
    PersistEvent ρ → Option (Persisting ρ)
  | .manager event => s.manage defaults event
  | .setCookie sessionId cookie =>
    if (s.live.manager.sessions sessionId).isSome then
      (cookie.create env.lowerString).map fun made ↦
        { s with live := s.live.updateCookies sessionId (·.setCookie made) }
    else none
  | .removeCookie sessionId key =>
    if (s.live.manager.sessions sessionId).isSome then
      some { s.relink (.drop sessionId key) with
        live := s.live.updateCookies sessionId (·.remove key) }
    else none
  | .persistSession stateKey sessionId => some (s.persistSession stateKey sessionId)
  | .hset n replies =>
    s.persists[n]?.map fun call ↦
      { s with persists := s.persists.eraseIdx n }.written call replies
  | .hsetFails n => some { s with persists := s.persists.eraseIdx n }
  | .restoreSession stateKey sessionId =>
    if marker stateKey sessionId ∈ s.restored then some s
    else some { s with restores := s.restores ++ [⟨stateKey, sessionId, none⟩] }
  | .hget n =>
    s.restores[n]?.map fun call ↦
      let answered := call.answer (s.store call.marker) (s.version call.marker)
      { s with restores := s.restores.set n answered }
  | .hgetReturns n choice =>
    s.restores[n]?.bind fun call ↦ call.reply.map fun reply ↦
      { s with restores := s.restores.eraseIdx n }.resume env call choice reply.2 reply.1
  | .hgetFails n => some { s with restores := s.restores.eraseIdx n }
  | .restart defaultSessionId => some (start defaultSessionId defaults s.store s.version)

/-- The runs over an empty Redis. -/
def machine (env : Environment) (defaults : CookieJar ρ) :
    Machine (Persisting ρ) (PersistEvent ρ) where
  init s := ∃ defaultSessionId, s = start defaultSessionId defaults (fun _ ↦ none) fun _ ↦ 0
  step := step env defaults

/-- A cookie of the stored snapshot was dropped by the live session, after this process had
imported or written the snapshot. -/
def Dropped (s : Persisting ρ) (m : Marker) (cookie : Option String × CookieKey) : Prop :=
  ∃ link, s.known m = some link ∧ cookie ∈ link.removed

/-- An `hset` replaces the stored snapshot by one that lacks only cookies the live session has
dropped. -/
def KeepsUnread (env : Environment) (s : Persisting ρ) : PersistEvent ρ → Prop
  | .hset n _ => ∀ call, s.persists[n]? = some call → ∀ old, s.store call.marker = some old →
    ∀ cookie ∈ old.holds env.lowerString,
      cookie ∈ call.snapshot.holds env.lowerString ∨ s.Dropped call.marker cookie
  | _ => True

/-- No snapshot, stored and known or about to be stored, is linked to the session. -/
def Unlinked (s : Persisting ρ) (sessionId : String) : Prop :=
  (∀ m link, s.known m = some link → ∀ source ∈ link.sources, source.2 ≠ sessionId) ∧
    ∀ call ∈ s.persists, ∀ source ∈ call.link.sources, source.2 ≠ sessionId

/-- A session is persisted only when this process knows the stored snapshot, if there is one, and
takes each of its records from the live session that it was imported into or taken of; an `hset`
replaces the snapshot that was stored when its call began; and a snapshot is imported into different
sessions, to which no snapshot is linked. -/
def Attended (s : Persisting ρ) : PersistEvent ρ → Prop
  | .persistSession stateKey sessionId =>
    ∀ old, s.store (marker stateKey sessionId) = some old →
      ∃ link, s.known (marker stateKey sessionId) = some link ∧ ∀ record ∈ old.labelled,
        ∃ source, (record.1, source) ∈ link.sources ∧
          (record.1, source) ∈ s.live.exportSources sessionId
  | .hset n _ => ∀ call, s.persists[n]? = some call → call.version = s.version call.marker
  | .hgetReturns n choice => ∀ call snapshot version, s.restores[n]? = some call →
    call.reply = some (some snapshot, version) →
      (s.live.targets call.sessionId choice snapshot).Nodup ∧
        ∀ target ∈ s.live.targets call.sessionId choice snapshot, s.Unlinked target
  | _ => True

/-! ## Links -/

end Persisting

variable {lower : String → String} {live next : LiveSessions ρ} {snapshot : Snapshot ρ}
  {link : Link}

/-- The sources of a link still hold the cookies of the snapshot, but for those dropped. -/
def Linked (lower : String → String) (live : LiveSessions ρ) (snapshot : Snapshot ρ)
    (link : Link) : Prop :=
  ∀ label key, (label, key) ∈ snapshot.holds lower → ∀ source, (label, source) ∈ link.sources →
    key ∈ (live.contents source).cookies.keys ∨ (label, key) ∈ link.removed

/-- Sources that lose no cookies. -/
theorem Linked.mono (h : Linked lower live snapshot link)
    (hkeys : ∀ source ∈ link.sources, ∀ key, key ∈ (live.contents source.2).cookies.keys →
      key ∈ (next.contents source.2).cookies.keys) : Linked lower next snapshot link := by
  intro label key hheld source hsource
  exact (h label key hheld source hsource).imp_left (hkeys (label, source) hsource key)

/-- Sources are closed. -/
theorem Linked.close {closed : String → Bool} (h : Linked lower live snapshot link)
    (hcontents : ∀ id, closed id = false → next.contents id = live.contents id) :
    Linked lower next snapshot (link.close closed) := by
  intro label key hheld source hsource
  obtain ⟨hmem, hopen⟩ := List.mem_filter.mp hsource
  rw [hcontents source (by simpa using hopen)]
  exact h label key hheld source hmem

/-- A session drops a cookie. -/
theorem Linked.drop (h : Linked lower live snapshot link) (sessionId : String)
    (removed : CookieKey) :
    Linked lower (live.updateCookies sessionId (·.remove removed)) snapshot
      (link.drop sessionId removed) := by
  intro label key hheld source hsource
  rw [Link.drop, List.mem_append]
  by_cases hid : source = sessionId
  · subst hid
    by_cases hkey : key = removed
    · subst hkey
      refine .inr (.inl ?_)
      exact List.mem_map.mpr ⟨(label, source), List.mem_filter.mpr ⟨hsource, by simp⟩, rfl⟩
    · rw [LiveSessions.updateCookies]
      dsimp only
      rw [Function.update_self, CookieJar.mem_keys_remove]
      exact (h label key hheld source hsource).imp (fun hmem ↦ ⟨hkey, hmem⟩) .inr
  · rw [LiveSessions.updateCookies]
    dsimp only
    rw [Function.update_of_ne hid]
    exact (h label key hheld source hsource).imp_right .inr

namespace Persisting

variable {env : Environment} {defaults : CookieJar ρ} {s t : Persisting ρ} {e : PersistEvent ρ}

/-- A pending snapshot lacks only cookies of the stored one that the live session has dropped, if
the stored one is still that of its beginning. -/
def Covers (env : Environment) (s : Persisting ρ) (call : PersistCall ρ) : Prop :=
  call.version = s.version call.marker → ∀ old, s.store call.marker = some old →
    ∀ cookie ∈ old.holds env.lowerString,
      cookie ∈ call.snapshot.holds env.lowerString ∨ s.Dropped call.marker cookie

/-- What is known in every state. -/
structure Sound (env : Environment) (s : Persisting ρ) : Prop where
  made : ∀ id, (s.live.contents id).cookies.Made env.lowerString
  known : ∀ m link, s.known m = some link → ∀ snapshot, s.store m = some snapshot →
    Linked env.lowerString s.live snapshot link
  pending : ∀ call ∈ s.persists, Linked env.lowerString s.live call.snapshot call.link
  versions : ∀ call ∈ s.persists, call.version ≤ s.version call.marker
  covers : ∀ call ∈ s.persists, s.Covers env call
  replies : ∀ call ∈ s.restores, ∀ payload version, call.reply = some (payload, version) →
    version ≤ s.version call.marker ∧ (version = s.version call.marker →
      payload = s.store call.marker)

/-- More is dropped. -/
theorem Covers.relink {f : Link → Link} {call : PersistCall ρ} (h : s.Covers env call)
    (hf : ∀ link cookie, cookie ∈ link.removed → cookie ∈ (f link).removed) :
    (s.relink f).Covers env { call with link := f call.link } := by
  intro hversion old hold cookie hcookie
  refine (h hversion old hold cookie hcookie).imp_right ?_
  rintro ⟨link, hlink, hmem⟩
  exact ⟨f link, Option.map_eq_some_iff.mpr ⟨link, hlink, rfl⟩, hf _ _ hmem⟩

/-- The live sessions change, and the links with them. -/
theorem Sound.relink {f : Link → Link} (h : s.Sound env)
    (hmade : ∀ id, (next.contents id).cookies.Made env.lowerString)
    (hlinked : ∀ snapshot link, Linked env.lowerString s.live snapshot link →
      Linked env.lowerString next snapshot (f link))
    (hf : ∀ link cookie, cookie ∈ link.removed → cookie ∈ (f link).removed) :
    { s.relink f with live := next }.Sound env where
  made := hmade
  known m link hlink snapshot hsnapshot := by
    obtain ⟨before, hbefore, rfl⟩ := Option.map_eq_some_iff.mp hlink
    exact hlinked _ _ (h.known m before hbefore snapshot hsnapshot)
  pending call hcall := by
    obtain ⟨before, hbefore, rfl⟩ := List.mem_map.mp hcall
    exact hlinked _ _ (h.pending before hbefore)
  versions call hcall := by
    obtain ⟨before, hbefore, rfl⟩ := List.mem_map.mp hcall
    exact h.versions before hbefore
  covers call hcall := by
    obtain ⟨before, hbefore, rfl⟩ := List.mem_map.mp hcall
    exact (h.covers before hbefore).relink hf
  replies := h.replies

/-! ## One step -/

/-- The manager takes a step. -/
theorem Sound.manage {event : Event} (h : s.Sound env) (hdefaults : defaults.Made env.lowerString)
    (ht : s.manage defaults event = some t) : t.Sound env := by
  obtain ⟨live, hlive, rfl⟩ := Option.map_eq_some_iff.mp ht
  obtain ⟨manager, -, rfl⟩ := Option.map_eq_some_iff.mp hlive
  apply h.relink
  · intro id
    dsimp only
    split
    · exact hdefaults
    · exact h.made id
  · intro snapshot link hlinked
    apply hlinked.close
    intro id hopen
    exact if_neg (of_decide_eq_false hopen)
  · exact fun link cookie hmem ↦ hmem

/-- A live session is given a cookie. -/
theorem Sound.setCookie (h : s.Sound env) (sessionId : String) {cookie : Cookie ρ}
    (hcookie : cookie.create env.lowerString = some cookie) :
    { s with live := s.live.updateCookies sessionId (·.setCookie cookie) }.Sound env := by
  have hkeys : ∀ id key, key ∈ (s.live.contents id).cookies.keys →
      key ∈ ((s.live.updateCookies sessionId (·.setCookie cookie)).contents id).cookies.keys := by
    intro id key hkey
    rw [LiveSessions.updateCookies]
    dsimp only
    by_cases hid : id = sessionId
    · subst hid
      rw [Function.update_self, CookieJar.mem_keys_setCookie]
      exact .inr hkey
    · rwa [Function.update_of_ne hid]
  refine { h with made := fun id ↦ ?_, known := ?_, pending := ?_ }
  · rw [LiveSessions.updateCookies]
    dsimp only
    by_cases hid : id = sessionId
    · subst hid
      rw [Function.update_self]
      exact (h.made id).setCookie hcookie
    · rw [Function.update_of_ne hid]
      exact h.made id
  · intro m link hlink snapshot hsnapshot
    exact (h.known m link hlink snapshot hsnapshot).mono fun source _ ↦ hkeys source.2
  · intro call hcall
    exact (h.pending call hcall).mono fun source _ ↦ hkeys source.2

/-- A live session drops a cookie. -/
theorem Sound.removeCookie (h : s.Sound env) (sessionId : String) (removed : CookieKey) :
    { s.relink (.drop sessionId removed) with
      live := s.live.updateCookies sessionId (·.remove removed) }.Sound env := by
  apply h.relink
  · intro id
    rw [LiveSessions.updateCookies]
    dsimp only
    by_cases hid : id = sessionId
    · subst hid
      rw [Function.update_self]
      exact (h.made id).remove removed
    · rw [Function.update_of_ne hid]
      exact h.made id
  · exact fun snapshot link hlinked ↦ hlinked.drop sessionId removed
  · exact fun link cookie hmem ↦ List.mem_append_right _ hmem

/-- A session is persisted whose stored snapshot is known and linked to the sessions taken. -/
theorem Sound.persistSession (h : s.Sound env) {stateKey sessionId : String}
    (hg : s.Attended (.persistSession stateKey sessionId)) :
    (s.persistSession stateKey sessionId).Sound env := by
  rw [Persisting.persistSession]
  cases hstate : s.live.persistState sessionId with
  | none => exact h
  | some snapshot =>
    have hholds : ∀ label source key, (label, source) ∈ s.live.exportSources sessionId →
        ((label, key) ∈ snapshot.holds env.lowerString ↔
          key ∈ (s.live.contents source).cookies.keys) := fun label source key hsource ↦
      LiveSessions.mem_holds_persistState h.made hstate hsource
    refine { h with pending := fun call hcall ↦ ?_, versions := fun call hcall ↦ ?_,
                    covers := fun call hcall ↦ ?_ }
    · rcases List.mem_append.mp hcall with hcall | hcall
      · exact h.pending call hcall
      · cases List.mem_singleton.mp hcall
        intro label key hheld source hsource
        exact .inl ((hholds label source key hsource).mp hheld)
    · rcases List.mem_append.mp hcall with hcall | hcall
      · exact h.versions call hcall
      · cases List.mem_singleton.mp hcall
        exact Nat.le_refl _
    · rcases List.mem_append.mp hcall with hcall | hcall
      · exact h.covers call hcall
      · cases List.mem_singleton.mp hcall
        rintro - old hold ⟨label, key⟩ hheld
        -- the record's source still holds the cookie, or has dropped it
        obtain ⟨link, hlink, hrecords⟩ := hg old hold
        obtain ⟨state, hrecord, -⟩ := Snapshot.mem_holds.mp hheld
        obtain ⟨source, hsource, htaken⟩ := hrecords _ hrecord
        rcases h.known _ link hlink old hold label key hheld source hsource with hkey | hdropped
        · exact .inl ((hholds label source key htaken).mpr hkey)
        · exact .inr ⟨link, hlink, hdropped⟩

/-- Calls that are gone leave what is known of the others. -/
theorem Sound.forget (h : s.Sound env) {persists : List (PersistCall ρ)}
    {restores : List (RestoreCall ρ)} (hpersists : ∀ call ∈ persists, call ∈ s.persists)
    (hrestores : ∀ call ∈ restores, call ∈ s.restores) :
    { s with persists, restores }.Sound env where
  made := h.made
  known := h.known
  pending call hcall := h.pending call (hpersists call hcall)
  versions call hcall := h.versions call (hpersists call hcall)
  covers call hcall := h.covers call (hpersists call hcall)
  replies call hcall := h.replies call (hrestores call hcall)

/-- An `hset` is executed: what was pending is known. -/
theorem Sound.written (h : s.Sound env) {call : PersistCall ρ} (replies : Bool)
    (hlinked : Linked env.lowerString s.live call.snapshot call.link) :
    (s.written call replies).Sound env where
  made := h.made
  known m link hlink snapshot hsnapshot := by
    by_cases hm : m = call.marker
    · subst hm
      rw [Persisting.written] at hlink hsnapshot
      dsimp only at hlink hsnapshot
      rw [Function.update_self] at hlink hsnapshot
      cases hlink
      cases hsnapshot
      exact hlinked
    · rw [Persisting.written] at hlink hsnapshot
      dsimp only at hlink hsnapshot
      rw [Function.update_of_ne hm] at hlink hsnapshot
      exact h.known m link hlink snapshot hsnapshot
  pending := h.pending
  versions other ho := by
    have hle := h.versions other ho
    show other.version ≤ Function.update s.version call.marker _ other.marker
    by_cases hm : other.marker = call.marker
    · rw [hm, Function.update_self]
      rw [hm] at hle
      omega
    · rwa [Function.update_of_ne hm]
  covers other ho hversion old hold := by
    have hle := h.versions other ho
    change other.version = Function.update s.version call.marker _ other.marker at hversion
    change Function.update s.store call.marker _ other.marker = some old at hold
    by_cases hm : other.marker = call.marker
    · rw [hm, Function.update_self] at hversion
      rw [hm] at hle
      omega
    · rw [Function.update_of_ne hm] at hversion hold
      intro cookie hcookie
      refine (h.covers other ho hversion old hold cookie hcookie).imp_right ?_
      rintro ⟨link, hlink, hmem⟩
      refine ⟨link, ?_, hmem⟩
      show Function.update s.known call.marker _ other.marker = some link
      rwa [Function.update_of_ne hm]
  replies other ho payload version hreply := by
    obtain ⟨hle, hcurrent⟩ := h.replies other ho payload version hreply
    show version ≤ Function.update s.version call.marker _ other.marker ∧
      (version = Function.update s.version call.marker _ other.marker →
        payload = Function.update s.store call.marker _ other.marker)
    by_cases hm : other.marker = call.marker
    · rw [hm, Function.update_self, Function.update_self]
      rw [hm] at hle
      exact ⟨by omega, fun hversion ↦ by omega⟩
    · rw [Function.update_of_ne hm, Function.update_of_ne hm]
      exact ⟨hle, hcurrent⟩

/-- A snapshot is imported into sessions to which nothing is linked. -/
theorem Sound.resume (h : s.Sound env)
    (hlower : ∀ text, env.lowerString (env.lowerString text) = env.lowerString text)
    {call : RestoreCall ρ} {choice : String → Nat} {version : Nat} {snapshot : Snapshot ρ}
    (hreply : version = s.version call.marker → some snapshot = s.store call.marker)
    (hdistinct : (s.live.targets call.sessionId choice snapshot).Nodup)
    (hunlinked : ∀ target ∈ s.live.targets call.sessionId choice snapshot, s.Unlinked target) :
    (s.resume env call choice version (some snapshot)).Sound env := by
  have hkept : ∀ {old : Snapshot ρ} {link : Link}, Linked env.lowerString s.live old link →
      (∀ source ∈ link.sources, source.2 ∉ s.live.targets call.sessionId choice snapshot) →
      Linked env.lowerString (s.live.restoreSnapshot env call.sessionId choice snapshot).1 old
        link := by
    intro old link hlinked hout
    apply hlinked.mono
    intro source hsource key hkey
    rwa [LiveSessions.contents_restoreSnapshot choice snapshot (hout source hsource)]
  have hknown : ∀ {m : Marker} {link : Link}, s.known m = some link →
      (s.resume env call choice version (some snapshot)).known m = some link ∨
        m = call.marker ∧ ∃ sources,
          (s.resume env call choice version (some snapshot)).known m =
            some ⟨sources, link.removed⟩ := by
    intro m link hlink
    rw [Persisting.resume]
    dsimp only
    split
    · by_cases hm : m = call.marker
      · subst hm
        rw [Function.update_self, hlink]
        exact .inr ⟨rfl, _, rfl⟩
      · rw [Function.update_of_ne hm]
        exact .inl hlink
    · exact .inl hlink
  refine ⟨LiveSessions.made_restoreSnapshot snapshot hlower h.made, fun m link hlink old hold ↦ ?_,
    fun other ho ↦ ?_, h.versions, fun other ho hversion old hold cookie hcookie ↦ ?_, h.replies⟩
  · rw [Persisting.resume] at hlink
    dsimp only at hlink
    have hother : s.known m = some link → Linked env.lowerString
        (s.live.restoreSnapshot env call.sessionId choice snapshot).1 old link := fun hbefore ↦
      hkept (h.known m link hbefore old hold) fun source hsource htarget ↦
        (hunlinked _ htarget).1 m link hbefore source hsource rfl
    split at hlink
    · next himported =>
      by_cases hm : m = call.marker
      · subst hm
        rw [Function.update_self] at hlink
        cases hlink
        have hsame := (hreply himported.2).trans hold
        cases hsame
        intro label key hheld source hsource
        exact .inl (LiveSessions.mem_keys_restoreSnapshot himported.1 hdistinct hsource hheld)
      · rw [Function.update_of_ne hm] at hlink
        exact hother hlink
    · exact hother hlink
  · apply hkept (h.pending other ho)
    intro source hsource htarget
    exact (hunlinked _ htarget).2 other ho source hsource rfl
  · refine (h.covers other ho hversion old hold cookie hcookie).imp_right ?_
    rintro ⟨link, hlink, hmem⟩
    rcases hknown hlink with hsame | ⟨-, sources, hsame⟩
    · exact ⟨link, hsame, hmem⟩
    · exact ⟨⟨sources, link.removed⟩, hsame, hmem⟩

/-- Redis answers a call. -/
theorem Sound.answer (h : s.Sound env) {n : Nat} {call : RestoreCall ρ}
    (restores : List (RestoreCall ρ)) (hrestores : restores =
      s.restores.set n (call.answer (s.store call.marker) (s.version call.marker))) :
    { s with restores }.Sound env := by
  subst hrestores
  refine { h with replies := fun other ho payload version hreply ↦ ?_ }
  rcases List.mem_or_eq_of_mem_set ho with ho | rfl
  · exact h.replies other ho payload version hreply
  · cases hreply
    exact ⟨Nat.le_refl _, fun _ ↦ rfl⟩

/-- One step of an attended run. -/
theorem sound_step
    (hlower : ∀ text, env.lowerString (env.lowerString text) = env.lowerString text)
    (hdefaults : defaults.Made env.lowerString) (h : s.Sound env) (hg : s.Attended e)
    (ht : step env defaults s e = some t) : t.Sound env := by
  cases e with
  | manager event => exact h.manage hdefaults ht
  | setCookie sessionId cookie =>
    rw [step] at ht
    split at ht
    · obtain ⟨made, hmade, rfl⟩ := Option.map_eq_some_iff.mp ht
      exact h.setCookie sessionId (Cookie.create_idem hlower hmade)
    · cases ht
  | removeCookie sessionId key =>
    rw [step] at ht
    split at ht
    · cases ht
      exact h.removeCookie sessionId key
    · cases ht
  | persistSession stateKey sessionId =>
    cases ht
    exact h.persistSession hg
  | hset n replies =>
    obtain ⟨call, hcall, rfl⟩ := Option.map_eq_some_iff.mp ht
    have hrest : ∀ other ∈ s.persists.eraseIdx n, other ∈ s.persists := fun other ho ↦
      List.mem_of_mem_eraseIdx ho
    exact (h.forget hrest fun _ ho ↦ ho).written replies
      (h.pending call (List.mem_of_getElem? hcall))
  | hsetFails n =>
    cases ht
    exact h.forget (fun _ ho ↦ List.mem_of_mem_eraseIdx ho) fun _ ho ↦ ho
  | restoreSession stateKey sessionId =>
    rw [step] at ht
    split at ht
    · cases ht
      exact h
    · cases ht
      refine { h with replies := fun call hcall payload version hreply ↦ ?_ }
      rcases List.mem_append.mp hcall with hcall | hcall
      · exact h.replies call hcall payload version hreply
      · cases List.mem_singleton.mp hcall
        cases hreply
  | hget n =>
    obtain ⟨call, -, rfl⟩ := Option.map_eq_some_iff.mp ht
    exact h.answer _ rfl
  | hgetReturns n choice =>
    obtain ⟨call, hcall, hreturns⟩ := Option.bind_eq_some_iff.mp ht
    obtain ⟨⟨payload, version⟩, hreply, rfl⟩ := Option.map_eq_some_iff.mp hreturns
    have hrest : { s with restores := s.restores.eraseIdx n }.Sound env :=
      h.forget (fun _ ho ↦ ho) fun _ ho ↦ List.mem_of_mem_eraseIdx ho
    cases payload with
    | none => exact { hrest with }
    | some snapshot =>
      obtain ⟨hdistinct, hunlinked⟩ := hg call snapshot version hcall hreply
      have hcurrent := (h.replies call (List.mem_of_getElem? hcall) _ _ hreply).2
      exact hrest.resume hlower hcurrent hdistinct hunlinked
  | hgetFails n =>
    cases ht
    exact h.forget (fun _ ho ↦ ho) fun _ ho ↦ List.mem_of_mem_eraseIdx ho
  | restart defaultSessionId =>
    cases ht
    exact ⟨fun _ ↦ hdefaults, (by intro _ _ hlink; cases hlink), (by intro _ hm; cases hm),
      (by intro _ hm; cases hm), (by intro _ hm; cases hm), (by intro _ hm; cases hm)⟩

/-! ## Runs -/

/-- In the runs whose steps are attended to, no `hset` replaces a stored snapshot by one that lacks
a cookie of it, unless this process had imported or written it and the live session has dropped the
cookie. -/
theorem persist_keeps_unread
    (hlower : ∀ text, env.lowerString (env.lowerString text) = env.lowerString text)
    (hdefaults : defaults.Made env.lowerString)
    (h : (machine env defaults).Reach Attended s) (e : PersistEvent ρ) (hg : s.Attended e) :
    s.KeepsUnread env e := by
  have hsound : s.Sound env := by
    refine h.invariant ?_ fun _ _ _ _ hs hg ht ↦ sound_step hlower hdefaults hs hg ht
    rintro _ ⟨defaultSessionId, rfl⟩
    exact ⟨fun _ ↦ hdefaults, (by intro _ _ hlink; cases hlink), (by intro _ hm; cases hm),
      (by intro _ hm; cases hm), (by intro _ hm; cases hm), (by intro _ hm; cases hm)⟩
  cases e with
  | hset n replies =>
    intro call hcall old hold
    exact hsound.covers call (List.mem_of_getElem? hcall) (hg call hcall) old hold
  | _ => trivial

/-- A run of a process over an empty Redis. -/
def after (events : List (PersistEvent Unit)) : Persisting Unit :=
  ((machine plainEnvironment .empty).run
    (start "default" .empty (fun _ ↦ none) fun _ ↦ 0) events).getD
    (start "default" .empty (fun _ ↦ none) fun _ ↦ 0)

/-- The default session is given a cookie and persisted. -/
def login : List (PersistEvent Unit) :=
  [.manager (.getOrCreateSession "" 0), .setCookie "default" (sampleCookie "login"),
    .persistSession "k" "", .hset 0 true]

/-- It drops the cookie and is persisted again. -/
def logout : List (PersistEvent Unit) :=
  login ++ [.removeCookie "default" ("h", "/", "login"), .persistSession "k" ""]

theorem persist_keeps_unread_logout :
    (after logout).KeepsUnread plainEnvironment (.hset 0 true) := by
  have hmade : (CookieJar.empty : CookieJar Unit).Made plainEnvironment.lowerString := by
    intro _ hm
    cases hm
  have hlower : ∀ text, plainEnvironment.lowerString (plainEnvironment.lowerString text) =
      plainEnvironment.lowerString text := by simp [Environment.lowerString, plainEnvironment]
  have hstart : (machine plainEnvironment .empty).Reach Attended
      (start "default" .empty (fun _ ↦ none) fun _ ↦ 0 : Persisting Unit) :=
    .init ⟨"default", rfl⟩
  have hcreated : (machine plainEnvironment .empty).Reach Attended (after (login.take 1)) := by
    apply hstart.step (e := .manager (.getOrCreateSession "" 0)) _ rfl
    trivial
  have hgiven : (machine plainEnvironment .empty).Reach Attended (after (login.take 2)) := by
    apply hcreated.step (e := .setCookie "default" (sampleCookie "login")) _ rfl
    trivial
  have hpending : (machine plainEnvironment .empty).Reach Attended (after (login.take 3)) := by
    apply hgiven.step (e := .persistSession "k" "") _ rfl
    intro _ hold
    cases hold
  have hstored : (machine plainEnvironment .empty).Reach Attended (after login) := by
    apply hpending.step (e := .hset 0 true) _ rfl
    intro _ hcall
    cases hcall
    rfl
  have hdropped : (machine plainEnvironment .empty).Reach Attended (after (logout.take 5)) := by
    apply hstored.step (e := .removeCookie "default" ("h", "/", "login")) _ rfl
    trivial
  have hagain : (machine plainEnvironment .empty).Reach Attended (after logout) := by
    apply hdropped.step (e := .persistSession "k" "") _ rfl
    intro _ hold
    cases hold
    refine ⟨_, rfl, fun record hrecord ↦ ⟨"default", ?_⟩⟩
    cases List.mem_singleton.mp hrecord
    exact ⟨List.mem_cons_self, List.mem_cons_self⟩
  exact persist_keeps_unread hlower hmade hagain (.hset 0 true) (by
    intro _ hcall
    cases hcall
    rfl)

/-- After a restart the session is persisted before it is restored. -/
def restarted : List (PersistEvent Unit) :=
  login ++ [.restart "other", .manager (.getOrCreateSession "" 0), .persistSession "k" ""]

/-- The stored login is replaced unread. -/
theorem unread_login_replaced : ¬ ∀ s : Persisting Unit,
    (machine plainEnvironment .empty).Reachable s → ∀ e, s.KeepsUnread plainEnvironment e := by
  intro h
  have hreached : (machine plainEnvironment .empty).Reachable (after restarted) :=
    .run restarted (.init ⟨"default", rfl⟩) rfl
  have hkeeps := h _ hreached (.hset 0 true) _ rfl _ rfl (none, ("h", "/", "login"))
    List.mem_cons_self
  rcases hkeeps with hheld | ⟨_, hlink, _⟩
  · cases hheld
  · cases hlink

end Persisting

end ScrapyCffi.Sessions
