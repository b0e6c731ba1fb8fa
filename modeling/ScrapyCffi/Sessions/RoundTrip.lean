import ScrapyCffi.Requests.RoundTrip
import ScrapyCffi.Sessions.PendingClose
import ScrapyCffi.Sessions.Records

/-!
# Snapshots are restored as they were taken

`persist_session`, and `restore_session` in a new manager with the same state key,
`core/sessions.py:910–987`, for every state that the live sessions can reach. `import_state` stores
the names of client hints in lower case (`core/client_hints.py:146–161`), an empty session id stands
for the default session, and `encode_state` refuses states beyond its limit.
-/

namespace ScrapyCffi.ClientHints

open ScrapyCffi.Base

variable {env : Environment}

/-! ## Names in lower case -/

/-- Names that are stored in lower case. -/
def Lowered (env : Environment) (names : Dict Text Text) : Prop :=
  ∀ entry ∈ names.entries, env.lower entry.1 = entry.1

/-- An origin whose names are in lower case. -/
structure OriginClientHints.Lowered (env : Environment) (o : OriginClientHints) : Prop where
  requested : ClientHints.Lowered env o.requested
  runtimeValues : ∀ values ∈ o.runtimeValues.entries, ClientHints.Lowered env values.2

/-- A state whose names are in lower case. -/
def ClientHintsState.Lowered (env : Environment) (s : ClientHintsState) : Prop :=
  ∀ entry ∈ s.origins.entries, entry.2.Lowered env

theorem Lowered.empty : Lowered env .empty := by
  intro entry hm
  cases hm

theorem Lowered.set {names : Dict Text Text} (h : Lowered env names) {name : Text}
    (hname : env.lower name = name) (value : Text) : Lowered env (names.set name value) := by
  intro entry hm
  rcases Dict.mem_set hm with rfl | hm
  · exact hname
  · exact h entry hm

/-- `parse_client_hint_names` stores its names in lower case. -/
theorem lowered_parseClientHintNames
    (hlower : ∀ text, env.lower (env.lower text) = env.lower text) (value : Text) :
    Lowered env (parseClientHintNames env value) := by
  intro entry hm
  obtain ⟨name, -, rfl⟩ := List.mem_map.mp (Dict.mem_of_mem_ofList hm)
  exact hlower name

theorem lowered_lowerNames (hlower : ∀ text, env.lower (env.lower text) = env.lower text)
    (names : Dict Text Text) : Lowered env (lowerNames env names) := by
  intro entry hm
  obtain ⟨before, -, rfl⟩ := List.mem_map.mp (Dict.mem_of_mem_ofList hm)
  exact hlower before.1

/-- Names in lower case are imported as they are. -/
theorem Lowered.lowerNames_eq {names : Dict Text Text} (h : Lowered env names) :
    lowerNames env names = names := by
  have hsame : names.entries.map (fun entry ↦ (env.lower entry.1, entry.2)) = names.entries := by
    refine (List.map_congr_left fun entry hm ↦ ?_).trans (List.map_id _)
    rw [h entry hm]
    rfl
  rw [lowerNames, hsame, Dict.ofList_entries]

/-- A dictionary whose values stay. -/
theorem mapValues_eq_self {α : Type} {f : α → α} {d : Dict Text α}
    (h : ∀ entry ∈ d.entries, f entry.2 = entry.2) : d.mapValues f = d := by
  apply Dict.ext
  refine (List.map_congr_left fun entry hm ↦ ?_).trans (List.map_id _)
  rw [h entry hm]
  rfl

theorem OriginClientHints.Lowered.clean_eq {o : OriginClientHints} (h : o.Lowered env) :
    o.clean env = o := by
  rw [OriginClientHints.clean, h.requested.lowerNames_eq, mapValues_eq_self]
  exact fun values hm ↦ (h.runtimeValues values hm).lowerNames_eq

theorem OriginClientHints.lowered_clean
    (hlower : ∀ text, env.lower (env.lower text) = env.lower text) (o : OriginClientHints) :
    (o.clean env).Lowered env := by
  constructor
  · exact lowered_lowerNames hlower o.requested
  · intro values hm
    obtain ⟨before, -, rfl⟩ := List.mem_map.mp hm
    exact lowered_lowerNames hlower before.2

namespace ClientHintsState

variable {s : ClientHintsState} {origin profile name value : Text}

theorem Lowered.entry (h : s.Lowered env) (origin : Text) : (s.entry origin).Lowered env := by
  rw [ClientHintsState.entry]
  cases hget : s.origins.get origin with
  | none => exact ⟨.empty, fun values hm ↦ by cases hm⟩
  | some o => exact h _ (Dict.mem_of_get hget)

theorem Lowered.values (h : s.Lowered env) (origin profile : Text) :
    ClientHints.Lowered env (s.values origin profile) := by
  rw [ClientHintsState.values]
  cases hget : (s.entry origin).runtimeValues.get profile with
  | none => exact .empty
  | some values => exact (h.entry origin).runtimeValues _ (Dict.mem_of_get hget)

theorem Lowered.set (h : s.Lowered env) {o : OriginClientHints} (ho : o.Lowered env)
    (origin : Text) : ({ s with origins := s.origins.set origin o }).Lowered env := by
  intro entry hm
  rcases Dict.mem_set hm with rfl | hm
  · exact ho
  · exact h entry hm

theorem Lowered.replaceRequested (h : s.Lowered env) {names : Dict Text Text}
    (hnames : ClientHints.Lowered env names) (origin : Text) :
    (s.replaceRequested origin names).Lowered env := by
  apply h.set
  exact ⟨hnames, (h.entry origin).runtimeValues⟩

theorem Lowered.clearOrigin (h : s.Lowered env) (origin : Text) :
    (s.clearOrigin origin).Lowered env :=
  fun entry hm ↦ h entry (List.mem_filter.mp hm).1

theorem Lowered.setRuntimeValue (h : s.Lowered env)
    (hlower : ∀ text, env.lower (env.lower text) = env.lower text)
    (origin profile name value : Text) :
    (s.setRuntimeValue env origin profile name value).Lowered env := by
  apply h.set
  constructor
  · exact (h.entry origin).requested
  · intro values hm
    rcases Dict.mem_set hm with rfl | hm
    · exact (h.values origin profile).set (hlower name) value
    · exact (h.entry origin).runtimeValues values hm

theorem Lowered.markWarned (h : s.Lowered env) (origin profile name : Text) :
    (s.markWarned env origin profile name).2.Lowered env := by
  rw [ClientHintsState.markWarned]
  split <;> exact h

theorem Lowered.importState (h : s.Lowered env)
    (hlower : ∀ text, env.lower (env.lower text) = env.lower text)
    (payload : Option (Dict Text OriginClientHints)) : (s.importState env payload).Lowered env := by
  cases payload with
  | none => exact h
  | some origins =>
    intro entry hm
    obtain ⟨before, -, rfl⟩ := List.mem_map.mp hm
    exact OriginClientHints.lowered_clean hlower before.2

/-- Preferences and values are imported as they were exported. -/
theorem Lowered.importState_exportState (h : s.Lowered env) (other : ClientHintsState) :
    other.importState env (some s.exportState) = ⟨s.origins, []⟩ := by
  rw [ClientHintsState.importState, exportState, mapValues_eq_self]
  exact fun entry hm ↦ (h entry hm).clean_eq

end ClientHintsState

end ScrapyCffi.ClientHints

namespace ScrapyCffi.Sessions

open ScrapyCffi.Base ScrapyCffi.ClientHints ScrapyCffi.Requests

variable {ρ : Type} {env : Environment}

/-! ## Runs of the live sessions -/

namespace LiveSessions

/-- The client hints of a session are changed. -/
def updateHints (s : LiveSessions ρ) (sessionId : String)
    (f : ClientHintsState → ClientHintsState) : LiveSessions ρ :=
  let contents := s.contents sessionId
  { s with
    contents := Function.update s.contents sessionId
      { contents with clientHints := f contents.clientHints } }

end LiveSessions

/-- A step of the manager; a cookie that a session is given or drops; an operation on its client
hints; or a snapshot that is restored. -/
inductive LiveEvent (ρ : Type)
  | manager (event : Event)
  | setCookie (sessionId : String) (cookie : Cookie ρ)
  | removeCookie (sessionId : String) (key : CookieKey)
  | replaceRequested (sessionId : String) (origin : Text) (names : Dict Text Text)
  | clearOrigin (sessionId : String) (origin : Text)
  | setRuntimeValue (sessionId : String) (origin profile name value : Text)
  | markWarned (sessionId : String) (origin profile name : Text)
  | restoreSession (sessionId : String) (choice : String → Nat) (snapshot : Snapshot ρ)

namespace LiveSessions

/-- One step; only live sessions are changed. -/
def step (env : Environment) (defaults : CookieJar ρ) (s : LiveSessions ρ) :
    LiveEvent ρ → Option (LiveSessions ρ)
  | .manager event => s.manage defaults event
  | .setCookie sessionId cookie => do
    let _ ← s.manager.sessions sessionId
    let made ← cookie.create env.lowerString
    return s.updateCookies sessionId (·.setCookie made)
  | .removeCookie sessionId key => do
    let _ ← s.manager.sessions sessionId
    return s.updateCookies sessionId (·.remove key)
  | .replaceRequested sessionId origin names => do
    let _ ← s.manager.sessions sessionId
    return s.updateHints sessionId (·.replaceRequested origin names)
  | .clearOrigin sessionId origin => do
    let _ ← s.manager.sessions sessionId
    return s.updateHints sessionId (·.clearOrigin origin)
  | .setRuntimeValue sessionId origin profile name value => do
    let _ ← s.manager.sessions sessionId
    return s.updateHints sessionId (·.setRuntimeValue env origin profile name value)
  | .markWarned sessionId origin profile name => do
    let _ ← s.manager.sessions sessionId
    return s.updateHints sessionId fun hints ↦ (hints.markWarned env origin profile name).2
  | .restoreSession sessionId choice snapshot =>
    some (s.restoreSnapshot env sessionId choice snapshot).1

/-- Every run of a process. -/
def machine (env : Environment) (defaults : CookieJar ρ) :
    Machine (LiveSessions ρ) (LiveEvent ρ) where
  init s := ∃ defaultSessionId, s = start defaultSessionId defaults
  step := step env defaults

/-- Preferences are given under names in lower case, as `parse_client_hint_names` returns them. -/
def Normalised (env : Environment) (_ : LiveSessions ρ) : LiveEvent ρ → Prop
  | .replaceRequested _ _ names => Lowered env names
  | _ => True

/-! ## What the sessions are -/

end LiveSessions

/-! ## Members of groups -/

/-- The members of a group are different sessions. -/
def State.Distinct (s : State) : Prop := ∀ group ∈ s.groupSessions, group.2.Nodup

theorem nodup_assign {key : String} {members : List String} {groups : List (String × List String)}
    (hmembers : members.Nodup) (h : ∀ group ∈ groups, group.2.Nodup) :
    ∀ group ∈ assign key members groups, group.2.Nodup := by
  induction groups with
  | nil =>
    intro group hm
    cases List.mem_singleton.mp hm
    exact hmembers
  | cons first rest ih =>
    intro group hm
    rw [assign] at hm
    split at hm
    · rcases List.mem_cons.mp hm with rfl | hrest
      · exact hmembers
      · exact h group (List.mem_cons_of_mem _ hrest)
    · rcases List.mem_cons.mp hm with rfl | hrest
      · exact h _ List.mem_cons_self
      · exact ih (fun other ho ↦ h other (List.mem_cons_of_mem _ ho)) group hrest

theorem nodup_removeMember {sessionId : String} {groups : List (String × List String)}
    (h : ∀ group ∈ groups, group.2.Nodup) :
    ∀ group ∈ removeMember sessionId groups, group.2.Nodup := by
  induction groups with
  | nil => exact h
  | cons first rest ih =>
    have hfirst := h first List.mem_cons_self
    have hrest : ∀ group ∈ rest, group.2.Nodup := fun group hm ↦
      h group (List.mem_cons_of_mem _ hm)
    intro group hm
    rw [removeMember] at hm
    split at hm
    · rcases List.mem_cons.mp hm with rfl | hm
      · exact hfirst.erase sessionId
      · exact hrest group hm
    · rcases List.mem_cons.mp hm with rfl | hm
      · exact hfirst
      · exact ih hrest group hm

/-- `register_sessions_batch` puts an id into the group only when it creates the session. -/
theorem nodup_registerAll (s : State) (ids userIds : List String) (hids : ids.Nodup)
    (hlive : ∀ id ∈ ids, (s.sessions id).isSome = true) : (s.registerAll ids userIds).1.Nodup := by
  induction userIds generalizing s ids with
  | nil => exact hids
  | cons userId rest ih =>
    rw [State.registerAll, State.registerOne]
    split
    · exact ih s ids hids hlive
    · next hnone =>
      have hnew : userId ∉ ids := fun hm ↦ hnone (.inr (hlive userId hm))
      apply ih
      · exact List.nodup_append.mpr ⟨hids, List.nodup_singleton _, fun id hid other ho he ↦
          hnew (by rwa [← List.mem_singleton.mp ho, ← he])⟩
      · intro id hid
        by_cases hsame : id = userId
        · rw [hsame]
          dsimp only
          rw [Function.update_self]
          rfl
        · dsimp only
          rw [Function.update_of_ne hsame]
          exact hlive id ((List.mem_append.mp hid).resolve_right fun hm ↦
            hsame (List.mem_singleton.mp hm))

/-- Every step of the manager keeps the members different. -/
theorem State.Distinct.step {s t : State} {event : Event} (h : s.Distinct)
    (ht : s.step event = some t) : t.Distinct := by
  cases event with
  | acquire sessionId =>
    cases ht
    obtain ⟨_, _, he⟩ := acquire_eq s sessionId
    rw [he]
    exact h
  | release sessionId =>
    cases ht
    obtain ⟨_, _, _, _, he⟩ := release_eq s sessionId
    rw [he]
    exact h
  | markEnd sessionId =>
    cases ht
    rw [State.markEnd]
    split
    · exact h
    · split
      · next members _ =>
        obtain ⟨_, _, _, he⟩ := markAll_eq s members
        rw [he]
        exact h
      · obtain ⟨_, _, _, he⟩ := markEndSingle_eq
          { s with groupSessions := removeMember sessionId s.groupSessions } sessionId
        rw [he]
        exact nodup_removeMember h
  | getOrCreateSession sessionId choice =>
    cases ht
    rw [State.getOrCreateSession]
    split
    · exact h
    · split <;> exact h
  | registerSessionsBatch userIds groupId =>
    cases ht
    rw [State.registerSessionsBatch]
    split
    · exact h
    · have hids := nodup_registerAll s [] userIds List.nodup_nil fun _ hm ↦ by cases hm
      obtain ⟨ids, _, _, he, -, -⟩ := registerAll_eq s [] userIds
      rw [he] at hids ⊢
      exact nodup_assign hids h
  | freeze =>
    cases ht
    exact h
  | take =>
    change s.take = some t at ht
    rw [State.take] at ht
    split at ht
    · cases ht
      exact h
    · cases ht
  | safeClose =>
    change s.safeClose = some t at ht
    rw [State.safeClose] at ht
    split at ht
    · split at ht <;> cases ht <;> exact h
    · cases ht
  | closed =>
    change s.closed = some t at ht
    rw [State.closed] at ht
    split at ht
    · cases ht
      exact h
    · cases ht

/-! ## What the sessions hold -/

/-- Cookies as their constructor made them, and names in lower case. -/
structure Contents.Storable (env : Environment) (c : Contents ρ) : Prop where
  made : c.cookies.Made env.lowerString
  lowered : c.clientHints.Lowered env

theorem lowerString_idem (hlower : ∀ text, env.lower (env.lower text) = env.lower text)
    (text : String) : env.lowerString (env.lowerString text) = env.lowerString text := by
  rw [Environment.lowerString, Environment.lowerString, String.toList_ofList, hlower]

/-- An import leaves what can be stored again. -/
theorem Contents.Storable.restore {c : Contents ρ} (h : c.Storable env)
    (hlower : ∀ text, env.lower (env.lower text) = env.lower text) (state : Exported ρ) :
    (c.restore env state).1.Storable env := by
  have himported : ((c.cookies.importCookies env.lowerString state.cookies).1).Made
      env.lowerString :=
    CookieJar.made_setCookies (lowerString_idem hlower) _ _ fun c hc ↦ by cases hc
  rw [Contents.restore]
  split
  · exact ⟨himported, h.lowered.importState hlower state.clientHints⟩
  · exact ⟨himported, h.lowered⟩

/-- A record is restored as it was taken, whatever the session held. -/
theorem Contents.Storable.restore_exported {c : Contents ρ} (h : c.Storable env)
    (other : Contents ρ) :
    other.restore env c.exported = (⟨c.cookies, ⟨c.clientHints.origins, []⟩⟩, true) := by
  rw [Contents.restore, Contents.exported,
    CookieJar.importCookies_exportCookies c.cookies other.cookies h.made]
  dsimp only
  rw [if_pos rfl, h.lowered.importState_exportState]

namespace LiveSessions

/-- What is known in every state. -/
structure Sound (env : Environment) (s : LiveSessions ρ) : Prop where
  storable : ∀ id, (s.contents id).Storable env
  distinct : s.manager.Distinct

variable {defaults : CookieJar ρ} {s t : LiveSessions ρ} {event : LiveEvent ρ} {sessionId : String}

theorem storable_begins (hdefaults : defaults.Made env.lowerString) :
    (begins defaults).Storable env :=
  ⟨hdefaults, fun _ hm ↦ by cases hm⟩

/-- One session is changed. -/
theorem Sound.update (h : s.Sound env) {c : Contents ρ} (hc : c.Storable env) :
    Sound env { s with contents := Function.update s.contents sessionId c } := by
  refine { h with storable := fun id ↦ ?_ }
  by_cases hid : id = sessionId
  · rw [hid]
    dsimp only
    rw [Function.update_self]
    exact hc
  · dsimp only
    rw [Function.update_of_ne hid]
    exact h.storable id

/-- The groups after a snapshot is restored. -/
theorem groupSessions_importInto {state : Exported ρ} {choice : Nat} :
    (s.importInto env sessionId state choice).1.manager.groupSessions =
      s.manager.groupSessions := by
  rw [importInto]
  cases s.manager.resolve sessionId choice with
  | none => rfl
  | some concrete =>
    dsimp only
    rw [State.getOrCreateSession]
    split
    · rfl
    · split <;> rfl

theorem groupSessions_restoreMembers {choice : String → Nat} (records : List (String × Exported ρ)) :
    (s.restoreMembers env choice records).1.manager.groupSessions = s.manager.groupSessions := by
  induction records generalizing s with
  | nil => rfl
  | cons record rest ih =>
    rw [restoreMembers]
    split
    · rw [ih, groupSessions_importInto]
    · exact groupSessions_importInto

theorem Sound.restoreSnapshot (h : s.Sound env)
    (hlower : ∀ text, env.lower (env.lower text) = env.lower text) (choice : String → Nat)
    (snapshot : Snapshot ρ) : (s.restoreSnapshot env sessionId choice snapshot).1.Sound env := by
  constructor
  · exact all_restoreSnapshot snapshot (fun record _ c hc ↦ hc.restore hlower record.2) h.storable
  · cases snapshot with
    | session state =>
      show State.Distinct _
      rw [State.Distinct, LiveSessions.restoreSnapshot, groupSessions_importInto]
      exact h.distinct
    | group members =>
      rw [State.Distinct, LiveSessions.restoreSnapshot]
      dsimp only
      split
      · dsimp only
        rw [groupSessions_restoreMembers]
        exact nodup_assign members.nodup h.distinct
      · rw [groupSessions_restoreMembers]
        exact h.distinct

/-- One step of a run with normalised names. -/
theorem sound_step (hlower : ∀ text, env.lower (env.lower text) = env.lower text)
    (hdefaults : defaults.Made env.lowerString) (h : s.Sound env) (hg : Normalised env s event)
    (ht : step env defaults s event = some t) : t.Sound env := by
  cases event with
  | manager event =>
    obtain ⟨manager, hstep, rfl⟩ := Option.map_eq_some_iff.mp ht
    refine ⟨fun id ↦ ?_, h.distinct.step hstep⟩
    dsimp only
    split
    · exact storable_begins hdefaults
    · exact h.storable id
  | setCookie sessionId cookie =>
    obtain ⟨_, -, hcreates⟩ := Option.bind_eq_some_iff.mp ht
    obtain ⟨made, hmade, he⟩ := Option.bind_eq_some_iff.mp hcreates
    cases he
    have hagain := Cookie.create_idem (lowerString_idem hlower) hmade
    exact h.update ⟨(h.storable sessionId).made.setCookie hagain, (h.storable sessionId).lowered⟩
  | removeCookie sessionId key =>
    obtain ⟨_, -, he⟩ := Option.bind_eq_some_iff.mp ht
    cases he
    exact h.update ⟨(h.storable sessionId).made.remove key, (h.storable sessionId).lowered⟩
  | replaceRequested sessionId origin names =>
    obtain ⟨_, -, he⟩ := Option.bind_eq_some_iff.mp ht
    cases he
    exact h.update ⟨(h.storable sessionId).made,
      (h.storable sessionId).lowered.replaceRequested hg origin⟩
  | clearOrigin sessionId origin =>
    obtain ⟨_, -, he⟩ := Option.bind_eq_some_iff.mp ht
    cases he
    exact h.update ⟨(h.storable sessionId).made, (h.storable sessionId).lowered.clearOrigin origin⟩
  | setRuntimeValue sessionId origin profile name value =>
    obtain ⟨_, -, he⟩ := Option.bind_eq_some_iff.mp ht
    cases he
    exact h.update ⟨(h.storable sessionId).made,
      (h.storable sessionId).lowered.setRuntimeValue hlower origin profile name value⟩
  | markWarned sessionId origin profile name =>
    obtain ⟨_, -, he⟩ := Option.bind_eq_some_iff.mp ht
    cases he
    exact h.update ⟨(h.storable sessionId).made,
      (h.storable sessionId).lowered.markWarned origin profile name⟩
  | restoreSession sessionId choice snapshot =>
    cases ht
    exact h.restoreSnapshot hlower choice snapshot

/-- Every state of such a run. -/
theorem sound_of_reach (hlower : ∀ text, env.lower (env.lower text) = env.lower text)
    (hdefaults : defaults.Made env.lowerString)
    (h : (machine env defaults).Reach (Normalised env) s) : s.Sound env := by
  refine h.invariant ?_ fun _ _ _ _ hs hg ht ↦ sound_step hlower hdefaults hs hg ht
  rintro _ ⟨defaultSessionId, rfl⟩
  exact ⟨fun _ ↦ storable_begins hdefaults, fun _ hm ↦ by cases hm⟩

/-! ## Persisted and restored -/

/-- The sessions behind an id, and those behind it in another manager. -/
def pairs (s t : LiveSessions ρ) (sessionId : String) : List (String × String) :=
  match s.manager.groupSessions.lookup sessionId with
  | some members => members.map fun member ↦ (member, member)
  | none => [(s.manager.target sessionId, t.manager.target sessionId)]

/-- A manager has the session of another one, or its group with the sessions of the same members in
the same order: with the same cookies, preferences and values. -/
structure Restored (s t : LiveSessions ρ) (sessionId : String) : Prop where
  group : t.manager.groupSessions.lookup sessionId = s.manager.groupSessions.lookup sessionId
  live : ∀ pair ∈ pairs s t sessionId, (t.manager.sessions pair.2).isSome = true
  cookies : ∀ pair ∈ pairs s t sessionId, (t.contents pair.2).cookies = (s.contents pair.1).cookies
  clientHints : ∀ pair ∈ pairs s t sessionId,
    (t.contents pair.2).clientHints.origins = (s.contents pair.1).clientHints.origins

/-- The default session or a single one is live, or all the members of a group are. -/
def Live (s : LiveSessions ρ) (sessionId : String) : Prop :=
  ∀ pair ∈ pairs s s sessionId, (s.manager.sessions pair.1).isSome = true

/-- A record that was taken of a session is in the session of an id. -/
structure Holds (t : LiveSessions ρ) (id : String) (c : Contents ρ) : Prop where
  live : (t.manager.sessions id).isSome = true
  cookies : (t.contents id).cookies = c.cookies
  clientHints : (t.contents id).clientHints.origins = c.clientHints.origins

variable {c : String → Contents ρ}

/-- In a manager without groups a record is imported into the session of its id. -/
theorem importInto_exported (hc : (c sessionId).Storable env)
    (hgroups : s.manager.groupSessions = []) (choice : Nat) :
    (s.importInto env sessionId (c sessionId).exported choice).2 = true ∧
      (s.importInto env sessionId (c sessionId).exported choice).1.Holds
        (s.manager.target sessionId) (c sessionId) ∧
      ∀ id d, id ≠ s.manager.target sessionId → s.Holds id d →
        (s.importInto env sessionId (c sessionId).exported choice).1.Holds id d := by
  have hresolve : s.manager.resolve sessionId choice = some (s.manager.target sessionId) := by
    rw [State.resolve, hgroups]
    rfl
  rw [importInto, hresolve]
  dsimp only
  rw [hc.restore_exported]
  refine ⟨rfl, ⟨?_, ?_, ?_⟩, fun id d hid h ↦ ⟨?_, ?_, ?_⟩⟩
  · exact (isSome_getOrCreateSession s.manager sessionId choice).mpr (.inr hresolve)
  · dsimp only
    rw [Function.update_self]
  · dsimp only
    rw [Function.update_self]
  · exact (isSome_getOrCreateSession s.manager sessionId choice).mpr (.inl h.live)
  · dsimp only
    rw [Function.update_of_ne hid]
    exact h.cookies
  · dsimp only
    rw [Function.update_of_ne hid]
    exact h.clientHints

/-- In a manager without groups the records of a group are imported into its members. -/
theorem restoreMembers_exported (hc : ∀ id, (c id).Storable env)
    (hgroups : s.manager.groupSessions = []) (choice : String → Nat) (names : List String)
    (hnames : ∀ name ∈ names, name ≠ "") :
    (s.restoreMembers env choice (names.map fun name ↦ (name, (c name).exported))).2 = true ∧
      ∀ id, id ∈ names ∨ s.Holds id (c id) →
        (s.restoreMembers env choice (names.map fun name ↦ (name, (c name).exported))).1.Holds id
          (c id) := by
  induction names generalizing s with
  | nil => exact ⟨rfl, fun id hid ↦ hid.resolve_left fun hm ↦ by cases hm⟩
  | cons name rest ih =>
    have htarget : s.manager.target name = name := if_neg (hnames name List.mem_cons_self)
    obtain ⟨hok, hhere, hother⟩ :=
      importInto_exported (c := c) (hc name) hgroups (choice name)
    rw [htarget] at hhere hother
    obtain ⟨hall, hrest⟩ := ih (groupSessions_importInto.trans hgroups) fun later hlater ↦
      hnames later (List.mem_cons_of_mem _ hlater)
    rw [List.map_cons, restoreMembers, if_pos hok]
    refine ⟨hall, fun id hid ↦ hrest id ?_⟩
    by_cases hsame : id = name
    · rw [hsame]
      exact .inr hhere
    · rcases hid with hm | hheld
      · exact .inl ((List.mem_cons.mp hm).resolve_left hsame)
      · exact .inr (hother id _ hsame hheld)

/-- The id for which a session is looked up stays. -/
theorem target_importInto (state : Exported ρ) (choice : Nat) :
    (s.importInto env sessionId state choice).1.manager.target sessionId =
      s.manager.target sessionId := by
  rw [importInto]
  cases s.manager.resolve sessionId choice with
  | none => rfl
  | some concrete =>
    dsimp only
    rw [State.getOrCreateSession]
    split
    · rfl
    · split <;> rfl

/-- The records of a group whose members are live are those of its members, in their order. -/
theorem persistState_group {members : List String} (h : s.Sound env) (hlive : s.Live sessionId)
    (hgroup : s.manager.groupSessions.lookup sessionId = some members) :
    ∃ records, s.persistState sessionId = some (.group records) ∧
      records.entries = members.map fun member ↦ (member, (s.contents member).exported) := by
  have hall : ∀ member ∈ members, (s.manager.sessions member).isSome = true := by
    intro member hm
    apply hlive (member, member)
    rw [pairs, hgroup]
    exact List.mem_map.mpr ⟨member, hm, rfl⟩
  have hkeys : (members.map fun member ↦
      (member, (s.contents member).exported)).map Prod.fst = members := by
    rw [List.map_map]
    exact List.map_id _
  have hmembers : members.Nodup := by
    obtain ⟨before, after, hsplit, -⟩ := List.lookup_eq_some_iff.mp hgroup
    apply h.distinct (sessionId, members)
    rw [hsplit]
    simp
  refine ⟨_, by rw [persistState, hgroup], ?_⟩
  have hrecords : (members.filterMap fun member ↦ (s.manager.sessions member).map fun _ ↦
      (member, (s.contents member).exported)) =
        members.map fun member ↦ (member, (s.contents member).exported) := by
    rw [← List.filterMap_eq_map]
    apply List.filterMap_congr
    intro member hm
    obtain ⟨wrapper, hwrapper⟩ := Option.isSome_iff_exists.mp (hall member hm)
    rw [hwrapper]
    rfl
  rw [hrecords]
  exact Dict.entries_ofList (by rwa [hkeys])

/-- A live session, or a group of live sessions, is restored by a new manager. -/
theorem restored_start (h : s.Sound env) (hlive : s.Live sessionId)
    (hnames : ∀ member ∈ s.manager.members sessionId, member ≠ "") (choice : String → Nat)
    (newDefault : String) (newDefaults : CookieJar ρ) :
    ∃ snapshot, s.persistState sessionId = some snapshot ∧
      ((start newDefault newDefaults).restoreSnapshot env sessionId choice snapshot).2 = true ∧
        Restored s ((start newDefault newDefaults).restoreSnapshot env sessionId choice snapshot).1
          sessionId := by
  cases hgroup : s.manager.groupSessions.lookup sessionId with
  | none =>
    have hpair : ∀ t : LiveSessions ρ, pairs s t sessionId =
        [(s.manager.target sessionId, t.manager.target sessionId)] := by
      intro t
      rw [pairs, hgroup]
    obtain ⟨wrapper, hwrapper⟩ := Option.isSome_iff_exists.mp
      (hlive _ (by rw [hpair]; exact List.mem_singleton_self _))
    obtain ⟨hok, hholds, -⟩ := importInto_exported (s := start newDefault newDefaults)
      (c := fun _ ↦ s.contents (s.manager.target sessionId)) (h.storable _) rfl (choice sessionId)
    refine ⟨.session (s.contents (s.manager.target sessionId)).exported, ?_, hok, ?_⟩
    · rw [persistState, hgroup]
      dsimp only
      rw [hwrapper]
      rfl
    · have hhere : ∀ pair ∈ pairs s ((start newDefault newDefaults).importInto env sessionId
          (s.contents (s.manager.target sessionId)).exported (choice sessionId)).1 sessionId,
          pair = (s.manager.target sessionId,
            (start newDefault newDefaults).manager.target sessionId) := by
        intro pair hm
        rw [hpair, target_importInto] at hm
        exact List.mem_singleton.mp hm
      constructor
      · rw [LiveSessions.restoreSnapshot, groupSessions_importInto, hgroup]
        rfl
      · intro pair hm
        rw [hhere pair hm]
        exact hholds.live
      · intro pair hm
        rw [hhere pair hm]
        exact hholds.cookies
      · intro pair hm
        rw [hhere pair hm]
        exact hholds.clientHints
  | some members =>
    obtain ⟨records, hstate, hrecords⟩ := persistState_group h hlive hgroup
    have hmembers : s.manager.members sessionId = members := by
      rw [State.members, hgroup]
      rfl
    rw [hmembers] at hnames
    obtain ⟨hok, hholds⟩ := restoreMembers_exported (s := start newDefault newDefaults)
      h.storable rfl choice members hnames
    rw [← hrecords] at hok hholds
    have hkeys : records.keys = members := by
      rw [Dict.keys, hrecords, List.map_map]
      exact List.map_id _
    refine ⟨.group records, hstate, ?_⟩
    rw [LiveSessions.restoreSnapshot, if_pos hok]
    refine ⟨rfl, ?_⟩
    have hhere : ∀ t : LiveSessions ρ, ∀ pair ∈ pairs s t sessionId, pair.1 = pair.2 ∧
        pair.2 ∈ members := by
      intro t pair hm
      rw [pairs, hgroup] at hm
      obtain ⟨member, hmember, rfl⟩ := List.mem_map.mp hm
      exact ⟨rfl, hmember⟩
    constructor
    · dsimp only
      rw [lookup_assign, if_pos rfl, hkeys, hgroup]
    · intro pair hm
      exact (hholds pair.2 (.inl (hhere _ pair hm).2)).live
    · intro pair hm
      rw [(hhere _ pair hm).1]
      exact (hholds pair.2 (.inl (hhere _ pair hm).2)).cookies
    · intro pair hm
      rw [(hhere _ pair hm).1]
      exact (hholds pair.2 (.inl (hhere _ pair hm).2)).clientHints

end LiveSessions

/-! ## Stored and read -/

/-- Two sessions are never stored in the same field. -/
theorem stateField_injective : Function.Injective stateField := by
  intro first second h
  have hlist := congrArg String.toList h
  rw [stateField, stateField] at hlist
  by_cases hfirst : first = ""
  · by_cases hsecond : second = ""
    · rw [hfirst, hsecond]
    · rw [if_pos hfirst, if_neg hsecond, String.toList_append] at hlist
      cases hlist
  · by_cases hsecond : second = ""
    · rw [if_neg hfirst, if_pos hsecond, String.toList_append] at hlist
      cases hlist
    · rw [if_neg hfirst, if_neg hsecond, String.toList_append, String.toList_append] at hlist
      exact String.toList_inj.mp (List.append_cancel_left hlist)

variable {φ : Type} [PyFloat φ]

namespace LiveSessions

/-- `persist_session`: the hash behind its `hset`, or the exception of `encode_state`. -/
def persistSession (codec : Codec φ) (s : LiveSessions (Attributes φ))
    (hash : Marker → Option (List UInt8)) (stateKey sessionId : String) :
    Except PyError (Marker → Option (List UInt8)) :=
  match s.persistState sessionId with
  | none => .ok hash
  | some snapshot => do
    let payload ← encodeState codec snapshot.record 6 maxStateBytes
    return Function.update hash (marker stateKey sessionId) (some payload)

/-- `restore_session` of a field that is not marked; `none` when it raises. -/
def restoreSession (codec : Codec φ) (env : Environment) (s : LiveSessions (Attributes φ))
    (hash : Marker → Option (List UInt8)) (stateKey sessionId : String) (choice : String → Nat) :
    Option (LiveSessions (Attributes φ)) :=
  match hash (marker stateKey sessionId) with
  | none => some s
  | some payload => do
    let value ← (decodeState codec payload maxStateBytes).toOption
    let snapshot ← readSnapshot value
    let restored := s.restoreSnapshot env sessionId choice snapshot
    if restored.2 then some restored.1 else none

end LiveSessions

/-- `json` and `zlib` are inverse pairs on a value. -/
structure InversePairs (codec : Codec φ) (value : Value φ) : Prop where
  json : codec.ReadsJson value
  zlib : ∀ text, dumps value = .ok text → codec.Inflates 6 (utf8Encode text)

/-- The text of a value is within the limit of `encode_state`. -/
def Fits (value : Value φ) : Prop :=
  ∀ text, dumps value = .ok text → (utf8Encode text).length ≤ maxStateBytes

namespace LiveSessions

variable {codec : Codec φ} {defaults : CookieJar (Attributes φ)} {s : LiveSessions (Attributes φ)}
  {sessionId : String} {snapshot : Snapshot (Attributes φ)}

/-- What was persisted of a session is restored by any new manager with the same state key. -/
def RoundTrips (codec : Codec φ) (env : Environment) (s : LiveSessions (Attributes φ))
    (sessionId : String) : Prop :=
  ∀ hash stateKey newDefault newDefaults choice, ∃ stored t,
    s.persistSession codec hash stateKey sessionId = .ok stored ∧
      (start newDefault newDefaults).restoreSession codec env stored stateKey sessionId choice =
        some t ∧ Restored s t sessionId

/-- The stored snapshot is read by the next manager. -/
theorem restoreSession_persistSession (hstate : s.persistState sessionId = some snapshot)
    (hpairs : InversePairs codec snapshot.record) (hfits : Fits snapshot.record)
    (hash : Marker → Option (List UInt8)) (stateKey : String) :
    ∃ stored, s.persistSession codec hash stateKey sessionId = .ok stored ∧
      ∀ (env : Environment) (next : LiveSessions (Attributes φ)) (choice : String → Nat),
        next.restoreSession codec env stored stateKey sessionId choice =
          if (next.restoreSnapshot env sessionId choice snapshot).2 then
            some (next.restoreSnapshot env sessionId choice snapshot).1 else none := by
  obtain ⟨json, htext⟩ := snapshot.record.toJson_of_jsonTree (jsonTree_record snapshot)
  have hdumps : dumps snapshot.record = .ok (json.write false) := by
    rw [dumps, htext]
    rfl
  obtain ⟨payload, hpayload, hdecoded⟩ := decodeState_encodeState hdumps (hfits _ hdumps)
    (jsonTree_record snapshot) hpairs.json (hpairs.zlib _ hdumps)
  refine ⟨Function.update hash (marker stateKey sessionId) (some payload), ?_,
    fun env next choice ↦ ?_⟩
  · rw [persistSession, hstate]
    dsimp only
    rw [hpayload]
    rfl
  · rw [restoreSession, Function.update_self]
    dsimp only
    rw [hdecoded]
    show (readSnapshot snapshot.record).bind _ = _
    rw [readSnapshot_record]
    rfl

/-- In every run whose preferences have normalised names, a live session, or a group of live
sessions with ids of their own, is restored by a new manager as it was persisted, and different
sessions have different fields. -/
theorem snapshot_roundTrips (hlower : ∀ text, env.lower (env.lower text) = env.lower text)
    (hdefaults : defaults.Made env.lowerString)
    (h : (machine env defaults).Reach (Normalised env) s) (hlive : s.Live sessionId)
    (hnames : ∀ member ∈ s.manager.members sessionId, member ≠ "")
    (hpairs : ∀ snapshot, s.persistState sessionId = some snapshot →
      InversePairs codec snapshot.record)
    (hfits : ∀ snapshot, s.persistState sessionId = some snapshot → Fits snapshot.record) :
    RoundTrips codec env s sessionId ∧ Function.Injective stateField := by
  refine ⟨fun hash stateKey newDefault newDefaults choice ↦ ?_, stateField_injective⟩
  obtain ⟨snapshot, hstate, hok, hrestored⟩ := restored_start
    (sound_of_reach hlower hdefaults h) hlive hnames choice newDefault newDefaults
  obtain ⟨stored, hstored, hread⟩ := restoreSession_persistSession hstate
    (hpairs snapshot hstate) (hfits snapshot hstate) hash stateKey
  exact ⟨stored, _, hstored, (hread env _ choice).trans (if_pos hok), hrestored⟩

/-- A session that one manager restores differently is no round trip. -/
theorem not_roundTrips (hstate : s.persistState sessionId = some snapshot)
    (hpairs : InversePairs codec snapshot.record) (hfits : Fits snapshot.record)
    (h : ¬ Restored s ((start "new" .empty).restoreSnapshot env sessionId (fun _ ↦ 0) snapshot).1
      sessionId) : ¬ RoundTrips codec env s sessionId := by
  intro hall
  obtain ⟨stored, t, hstored, hread, hrestored⟩ := hall (fun _ ↦ none) "k" "new" .empty fun _ ↦ 0
  obtain ⟨stored', hstored', hread'⟩ := restoreSession_persistSession hstate hpairs hfits
    (fun _ ↦ none) "k"
  rw [hstored, Except.ok.injEq] at hstored'
  rw [hstored', hread'] at hread
  split at hread
  · cases hread
    exact h hrestored
  · cases hread

/-- A run of a process whose settings have no cookies. -/
def after (env : Environment) (events : List (LiveEvent (Attributes WholeFloat))) :
    LiveSessions (Attributes WholeFloat) :=
  ((machine env .empty).run (start "default" .empty) events).getD (start "default" .empty)

/-- A cookie that scripts cannot read. -/
def loginCookie : Cookie (Attributes WholeFloat) :=
  { sampleCookie "login" with rest := ⟨[(.str "HttpOnly", .none)], rfl⟩ }

/-- Two sessions of a group are given a cookie, a preference and a value. -/
def registered : List (LiveEvent (Attributes WholeFloat)) :=
  [.manager (.registerSessionsBatch ["a", "b"] "g"), .setCookie "a" loginCookie,
    .replaceRequested "b" ['h'] ⟨[(['d', 'p', 'r'], ['D', 'P', 'R'])], List.nodup_singleton _⟩,
    .setRuntimeValue "b" ['h'] ['c'] ['d', 'p', 'r'] ['2']]

/-- The snapshot of a session or a group. -/
def taken (s : LiveSessions (Attributes WholeFloat)) (sessionId : String) :
    Snapshot (Attributes WholeFloat) :=
  (s.persistState sessionId).getD (.group .empty)

/-- Its text as `zlib` compresses it. -/
def takenCompressed : List UInt8 :=
  [120, 156, 125, 144, 61, 79, 196, 48, 12, 134, 255, 139, 231, 74, 220, 221, 70, 103, 6, 54, 16,
    43, 66, 81, 46, 113, 175, 214, 229, 11, 55, 57, 129, 170, 254, 119, 156, 126, 1, 3, 100, 136,
    252, 218, 126, 100, 251, 29, 225, 74, 193, 66, 11, 23, 142, 37, 65, 3, 30, 253, 25, 121, 128,
    118, 4, 93, 63, 19, 227, 149, 80, 244, 235, 8, 55, 41, 80, 12, 208, 30, 26, 8, 218, 163, 96,
    46, 94, 40, 8, 118, 211, 174, 84, 125, 148, 56, 69, 206, 208, 134, 226, 220, 18, 171, 33, 161,
    161, 142, 80, 230, 116, 218, 13, 216, 128, 141, 94, 11, 215, 66, 15, 155, 248, 179, 75, 81,
    160, 76, 218, 41, 27, 243, 94, 74, 58, 247, 130, 223, 193, 18, 254, 132, 51, 23, 105, 24, 208,
    20, 198, 77, 225, 71, 34, 174, 87, 44, 91, 89, 26, 140, 230, 189, 215, 68, 239, 49, 236, 59,
    175, 82, 21, 118, 91, 74, 216, 92, 221, 120, 204, 57, 61, 5, 247, 185, 228, 39, 41, 116, 230,
    116, 60, 220, 175, 123, 77, 111, 66, 59, 170, 112, 79, 33, 207, 46, 70, 38, 177, 168, 134,
    211, 36, 192, 249, 183, 169, 255, 2, 226, 142, 124, 140, 239, 69, 198, 215, 211, 70, 176, 137,
    229, 236, 135, 231, 23, 168, 195, 75, 200, 228, 81, 205, 230, 207, 128, 249, 238, 57, 193,
    180, 190, 47, 215, 243, 167, 6]

theorem snapshot_roundTrips_registered :
    RoundTrips (recorded (taken (after plainEnvironment registered) "g").record takenCompressed)
        plainEnvironment (after plainEnvironment registered) "g" ∧
      Function.Injective stateField := by
  have hreach : (machine plainEnvironment .empty).Reach (Normalised plainEnvironment)
      (after plainEnvironment registered) := by
    have hstart : (machine plainEnvironment .empty).Reach (Normalised plainEnvironment)
        (start "default" .empty : LiveSessions (Attributes WholeFloat)) := .init ⟨"default", rfl⟩
    have hregistered : (machine plainEnvironment .empty).Reach (Normalised plainEnvironment)
        (after plainEnvironment (registered.take 1)) := by
      apply hstart.step (e := .manager (.registerSessionsBatch ["a", "b"] "g")) _ rfl
      trivial
    have hcookie : (machine plainEnvironment .empty).Reach (Normalised plainEnvironment)
        (after plainEnvironment (registered.take 2)) := by
      apply hregistered.step (e := .setCookie "a" loginCookie) _ rfl
      trivial
    have hpreference : (machine plainEnvironment .empty).Reach (Normalised plainEnvironment)
        (after plainEnvironment (registered.take 3)) := by
      apply hcookie.step (e := .replaceRequested "b" ['h']
        ⟨[(['d', 'p', 'r'], ['D', 'P', 'R'])], List.nodup_singleton _⟩) _ rfl
      intro _ _
      rfl
    apply hpreference.step (e := .setRuntimeValue "b" ['h'] ['c'] ['d', 'p', 'r'] ['2']) _ rfl
    trivial
  have htaken : (after plainEnvironment registered).persistState "g" =
      some (taken (after plainEnvironment registered) "g") := rfl
  apply snapshot_roundTrips (fun _ ↦ rfl) _ hreach
  · show ∀ pair ∈ pairs (after plainEnvironment registered) (after plainEnvironment registered) "g",
      _
    decide
  · decide
  · intro snapshot hsnapshot
    rw [htaken, Option.some.injEq] at hsnapshot
    rw [← hsnapshot]
    exact ⟨recorded_readsJson _ _, recorded_inflates _ _⟩
  · intro snapshot hsnapshot
    rw [htaken, Option.some.injEq] at hsnapshot
    rw [← hsnapshot]
    exact length_le_of_dumps (n := 484) (by decide +kernel) (by decide)
  · intro _ hm
    cases hm

/-! ## What is not restored -/

/-- ASCII letters are lowered. -/
def asciiEnvironment : Environment := { plainEnvironment with lower := List.map Char.toLower }

/-- A preference is given under a name in upper case. -/
def upperCase : List (LiveEvent (Attributes WholeFloat)) :=
  [.manager (.getOrCreateSession "" 0),
    .replaceRequested "default" ['h'] ⟨[(['D', 'P', 'R'], ['D', 'P', 'R'])], List.nodup_singleton _⟩]

/-- A group has a member with an empty id. -/
def emptyMember : List (LiveEvent (Attributes WholeFloat)) :=
  [.manager (.registerSessionsBatch ["", "a"] "g")]

/-- A preference is given for an origin. -/
def longOrigin (origin : Text) : List (LiveEvent (Attributes WholeFloat)) :=
  [.manager (.getOrCreateSession "" 0), .replaceRequested "default" origin .empty]

/-- A live session of a run is no round trip, with some inverse pairs. -/
def Unrestored (env : Environment) (events : List (LiveEvent (Attributes WholeFloat)))
    (sessionId : String) : Prop :=
  (machine env .empty).Reachable (after env events) ∧ (after env events).Live sessionId ∧
    ∃ codec, InversePairs codec (taken (after env events) sessionId).record ∧
      ¬ RoundTrips codec env (after env events) sessionId

theorem length_le_flatMap {α β : Type} {f : α → List β} (hf : ∀ a, f a ≠ []) (items : List α) :
    items.length ≤ (items.flatMap f).length := by
  induction items with
  | nil => exact Nat.le_refl _
  | cons a rest ih =>
    have ha := List.length_pos_iff.mpr (hf a)
    rw [List.flatMap_cons, List.length_append, List.length_cons]
    omega

/-- The text of a string is not shorter. -/
theorem length_le_quote (text : Text) :
    text.length ≤ (quote false (String.ofList text)).length := by
  have hescape : ∀ c, escape false c ≠ [] := by
    intro c
    rw [escape]
    split
    · simp
    · split
      · rw [unicodeEscape]
        split <;> simp
      · simp
  have hle := length_le_flatMap hescape text
  rw [quote, String.toList_ofList, List.length_cons, List.length_append]
  omega

theorem length_le_utf8Encode (text : List Char) : text.length ≤ (utf8Encode text).length := by
  apply length_le_flatMap
  intro c hempty
  have hpos := c.utf8Size_pos
  rw [← String.length_utf8EncodeChar, hempty] at hpos
  cases hpos

/-- The state of `longOrigin`. -/
def longOriginJson (origin : Text) : Json :=
  .object [("kind", .string "session"), ("cookies", .array []),
    ("client_hints", .object [("origins", .object [(String.ofList origin,
      .object [("requested", .object []), ("runtime_values", .object [])])])])]

/-- A state with an origin beyond the limit is refused. -/
theorem unrestored_longOrigin {origin : Text} (h : maxStateBytes < origin.length) :
    Unrestored plainEnvironment (longOrigin origin) "" := by
  have htaken : (after plainEnvironment (longOrigin origin)).persistState "" =
      some (taken (after plainEnvironment (longOrigin origin)) "") := rfl
  have hdumps : dumps (taken (after plainEnvironment (longOrigin origin)) "").record =
      .ok ((longOriginJson origin).write false) := rfl
  have hlong : maxStateBytes < (utf8Encode ((longOriginJson origin).write false)).length := by
    have hquote := length_le_quote origin
    have hbytes := length_le_utf8Encode ((longOriginJson origin).write false)
    simp only [longOriginJson, Json.write, Json.writeMembers, List.length_cons, List.length_append]
      at hbytes ⊢
    omega
  refine ⟨.run (longOrigin origin) (.init ⟨"default", rfl⟩) rfl, ?_, recorded _ [],
    ⟨recorded_readsJson _ _, recorded_inflates _ _⟩, fun hall ↦ ?_⟩
  · intro pair hm
    cases List.mem_singleton.mp hm
    rfl
  · obtain ⟨stored, t, hstored, -⟩ := hall (fun _ ↦ none) "k" "new" .empty fun _ ↦ 0
    rw [persistSession, htaken] at hstored
    simp [encodeState, hdumps, hlong, bind, Except.bind, throw, throwThe] at hstored

/-- An upper case name comes back in lower case, an empty member is taken for the default session,
and a state beyond the limit is refused. -/
theorem roundTrips_fails : Unrestored asciiEnvironment upperCase "" ∧
    Unrestored plainEnvironment emptyMember "g" ∧
    Unrestored plainEnvironment (longOrigin (List.replicate (maxStateBytes + 1) 'h')) "" := by
  refine ⟨⟨.run upperCase (.init ⟨"default", rfl⟩) rfl, ?_, recorded _ [],
      ⟨recorded_readsJson _ _, recorded_inflates _ _⟩, ?_⟩,
    ⟨.run emptyMember (.init ⟨"default", rfl⟩) rfl, ?_, recorded _ [],
      ⟨recorded_readsJson _ _, recorded_inflates _ _⟩, ?_⟩, ?_⟩
  · intro pair hm
    cases List.mem_singleton.mp hm
    rfl
  · apply not_roundTrips rfl ⟨recorded_readsJson _ _, recorded_inflates _ _⟩
      (length_le_of_dumps (n := 112) (by decide +kernel) (by decide))
    intro hrestored
    have horigins := hrestored.clientHints ("default", "new") List.mem_cons_self
    exact absurd horigins (by decide)
  · intro pair hm
    rcases List.mem_cons.mp hm with rfl | hm
    · rfl
    · cases List.mem_singleton.mp hm
      rfl
  · apply not_roundTrips rfl ⟨recorded_readsJson _ _, recorded_inflates _ _⟩
      (length_le_of_dumps (n := 125) (by decide +kernel) (by decide))
    intro hrestored
    have hlive := hrestored.live ("", "") List.mem_cons_self
    exact absurd hlive (by decide)
  · apply unrestored_longOrigin
    rw [List.length_replicate]
    exact Nat.lt_succ_self _

end LiveSessions

end ScrapyCffi.Sessions
