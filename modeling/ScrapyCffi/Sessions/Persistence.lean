import ScrapyCffi.ClientHints.State
import ScrapyCffi.Sessions.Cookies
import ScrapyCffi.Sessions.Manager

/-!
# Snapshots of sessions

`persist_session` and `restore_session` around their Redis calls, `core/sessions.py:910–987`, over
the cookie jars and the client hints of the sessions.
-/

namespace ScrapyCffi.Sessions

open ScrapyCffi.Base ScrapyCffi.ClientHints

/-- `_state_field`. -/
def stateField (sessionId : String) : String :=
  if sessionId = "" then "D" else "S:" ++ sessionId

/-- A state key and a field. -/
abbrev Marker := String × String

instance (m : Marker) (restored : List Marker) : Decidable (m ∈ restored) :=
  inferInstanceAs (Decidable (m ∈ (restored : List (String × String))))

/-- The marker of a session. -/
def marker (stateKey sessionId : String) : Marker := (stateKey, stateField sessionId)

variable {ρ : Type}

/-- What is persisted of a `SessionWrapper`. -/
@[ext]
structure Contents (ρ : Type) where
  cookies : CookieJar ρ
  clientHints : ClientHintsState

/-- The record of a session in a snapshot; older ones have no client hints. -/
structure Exported (ρ : Type) where
  cookies : List (Cookie ρ)
  clientHints : Option (Dict Text OriginClientHints)

/-- A snapshot of a session or of a group. -/
inductive Snapshot (ρ : Type)
  | session (state : Exported ρ)
  | group (members : Dict String (Exported ρ))

/-- The record of a session. -/
def Contents.exported (c : Contents ρ) : Exported ρ where
  cookies := c.cookies.exportCookies
  clientHints := some c.clientHints.exportState

/-- `import_cookies`, and `import_state` unless a record raised. -/
def Contents.restore (env : Environment) (c : Contents ρ) (state : Exported ρ) :
    Contents ρ × Bool :=
  let imported := c.cookies.importCookies env.lowerString state.cookies
  if imported.2 then (⟨imported.1, c.clientHints.importState env state.clientHints⟩, true)
  else (⟨imported.1, c.clientHints⟩, false)

/-- A manager and what its live sessions hold; under the id of no live session, what a new one
begins with. -/
@[ext]
structure LiveSessions (ρ : Type) where
  manager : State
  contents : String → Contents ρ

namespace LiveSessions

/-- A session begins with the cookies of the settings. -/
def begins (defaults : CookieJar ρ) : Contents ρ := ⟨defaults, .empty⟩

/-- A new manager. -/
def start (defaultSessionId : String) (defaults : CookieJar ρ) : LiveSessions ρ where
  manager := .start defaultSessionId
  contents _ := begins defaults

/-- The manager takes a step; a session that is popped is gone with its contents. -/
def manage (defaults : CookieJar ρ) (s : LiveSessions ρ) (event : Event) :
    Option (LiveSessions ρ) :=
  (s.manager.step event).map fun manager ↦
    { manager
      contents := fun sessionId ↦
        if (s.manager.sessions sessionId).isSome ∧ manager.sessions sessionId = none then
          begins defaults
        else s.contents sessionId }

/-- The cookies of a session are changed. -/
def updateCookies (s : LiveSessions ρ) (sessionId : String) (f : CookieJar ρ → CookieJar ρ) :
    LiveSessions ρ :=
  let contents := s.contents sessionId
  { s with
    contents := Function.update s.contents sessionId
      { contents with cookies := f contents.cookies } }

/-- `persist_session` up to its `hset`; `none` when there is no such session. -/
def persistState (s : LiveSessions ρ) (sessionId : String) : Option (Snapshot ρ) :=
  match s.manager.groupSessions.lookup sessionId with
  | some members => some (.group (Dict.ofList (members.filterMap fun member ↦
      (s.manager.sessions member).map fun _ ↦ (member, (s.contents member).exported))))
  | none =>
    let actual := s.manager.target sessionId
    (s.manager.sessions actual).map fun _ ↦ .session (s.contents actual).exported

variable (env : Environment)

/-- A session is created if there is none, and its record is imported; the flag tells that nothing
raised. -/
def importInto (s : LiveSessions ρ) (sessionId : String) (state : Exported ρ) (choice : Nat) :
    LiveSessions ρ × Bool :=
  match s.manager.resolve sessionId choice with
  | none => (s, false)
  | some concrete =>
    let restored := (s.contents concrete).restore env state
    ({ manager := (s.manager.getOrCreateSession sessionId choice).2
       contents := Function.update s.contents concrete restored.1 }, restored.2)

/-- The loop over the members of a group; `choice` gives the outcomes of `random.choice`. -/
def restoreMembers (s : LiveSessions ρ) (choice : String → Nat) :
    List (String × Exported ρ) → LiveSessions ρ × Bool
  | [] => (s, true)
  | (member, state) :: rest =>
    let imported := s.importInto env member state (choice member)
    if imported.2 then imported.1.restoreMembers choice rest else imported

/-- `restore_session` from its decoded snapshot on. -/
def restoreSnapshot (s : LiveSessions ρ) (sessionId : String) (choice : String → Nat) :
    Snapshot ρ → LiveSessions ρ × Bool
  | .session state => s.importInto env sessionId state (choice sessionId)
  | .group members =>
    let restored := s.restoreMembers env choice members.entries
    if restored.2 then
      ({ restored.1 with manager := { restored.1.manager with
          groupSessions := assign sessionId members.keys restored.1.manager.groupSessions } }, true)
    else restored

end LiveSessions

/-- The records of a snapshot, by the ids they are imported under. -/
def Snapshot.records (sessionId : String) : Snapshot ρ → List (String × Exported ρ)
  | .session state => [(sessionId, state)]
  | .group members => members.entries

namespace LiveSessions

/-- The sessions into which a snapshot is imported. -/
def targets (s : LiveSessions ρ) (sessionId : String) (choice : String → Nat)
    (snapshot : Snapshot ρ) : List String :=
  (snapshot.records sessionId).filterMap fun record ↦
    s.manager.resolve record.1 (choice record.1)

/-! ## The sessions that a snapshot does not reach -/

variable {env : Environment} {s : LiveSessions ρ} {sessionId other : String}

/-- Groups and the default id stay. -/
theorem resolve_importInto (state : Exported ρ) (choice n : Nat) :
    (s.importInto env sessionId state choice).1.manager.resolve other n =
      s.manager.resolve other n := by
  rw [importInto]
  cases s.manager.resolve sessionId choice with
  | none => rfl
  | some concrete =>
    dsimp only
    rw [State.getOrCreateSession]
    cases s.manager.resolve sessionId choice with
    | none => rfl
    | some found =>
      dsimp only
      cases s.manager.sessions found <;> rfl

/-- Another session keeps its contents. -/
theorem contents_importInto (state : Exported ρ) (choice : Nat)
    (h : s.manager.resolve sessionId choice ≠ some other) :
    (s.importInto env sessionId state choice).1.contents other = s.contents other := by
  rw [importInto]
  cases hresolve : s.manager.resolve sessionId choice with
  | none => rfl
  | some concrete =>
    rw [hresolve] at h
    have hne : other ≠ concrete := fun he ↦ h (by rw [he])
    exact Function.update_of_ne hne _ _

/-- Sessions that are no member keep their contents. -/
theorem contents_restoreMembers (choice : String → Nat) (records : List (String × Exported ρ))
    (h : ∀ record ∈ records, s.manager.resolve record.1 (choice record.1) ≠ some other) :
    (s.restoreMembers env choice records).1.contents other = s.contents other := by
  induction records generalizing s with
  | nil => rfl
  | cons record rest ih =>
    obtain ⟨member, state⟩ := record
    have hhead : (s.importInto env member state (choice member)).1.contents other =
        s.contents other := contents_importInto state _ (h (member, state) List.mem_cons_self)
    rw [restoreMembers]
    split
    · rw [ih, hhead]
      intro later hlater
      rw [resolve_importInto]
      exact h later (List.mem_cons_of_mem _ hlater)
    · exact hhead

/-- Sessions into which a snapshot is not imported keep their contents. -/
theorem contents_restoreSnapshot (choice : String → Nat) (snapshot : Snapshot ρ)
    (h : other ∉ s.targets sessionId choice snapshot) :
    (s.restoreSnapshot env sessionId choice snapshot).1.contents other = s.contents other := by
  have hrecords : ∀ record ∈ snapshot.records sessionId,
      s.manager.resolve record.1 (choice record.1) ≠ some other := fun record hrecord hresolve ↦
    h (List.mem_filterMap.mpr ⟨record, hrecord, hresolve⟩)
  cases snapshot with
  | session state => exact contents_importInto state _ (hrecords _ List.mem_cons_self)
  | group members =>
    have hmembers : (s.restoreMembers env choice members.entries).1.contents other =
        s.contents other := contents_restoreMembers choice members.entries hrecords
    rw [restoreSnapshot]
    dsimp only
    split <;> exact hmembers

/-! ## What a snapshot contains -/

end LiveSessions

/-- The keys of the cookies that the records of a session make. -/
def Exported.keys (lower : String → String) (state : Exported ρ) : List CookieKey :=
  (state.cookies.filterMap (Cookie.create lower)).map Cookie.key

/-- The records of a snapshot, of the session itself or of the members of a group. -/
def Snapshot.labelled : Snapshot ρ → List (Option String × Exported ρ)
  | .session state => [(none, state)]
  | .group members => members.entries.map fun entry ↦ (some entry.1, entry.2)

/-- The cookies contained in a snapshot. -/
def Snapshot.holds (lower : String → String) (snapshot : Snapshot ρ) :
    List (Option String × CookieKey) :=
  snapshot.labelled.flatMap fun record ↦ (record.2.keys lower).map (record.1, ·)

theorem Snapshot.mem_holds {lower : String → String} {snapshot : Snapshot ρ}
    {label : Option String} {key : CookieKey} : (label, key) ∈ snapshot.holds lower ↔
      ∃ state, (label, state) ∈ snapshot.labelled ∧ key ∈ state.keys lower := by
  rw [Snapshot.holds, List.mem_flatMap]
  constructor
  · rintro ⟨⟨found, state⟩, hrecord, hkey⟩
    obtain ⟨_, hkey, he⟩ := List.mem_map.mp hkey
    cases he
    exact ⟨state, hrecord, hkey⟩
  · rintro ⟨state, hrecord, hkey⟩
    exact ⟨(label, state), hrecord, List.mem_map_of_mem hkey⟩

/-- The record of a session contains its cookies. -/
theorem Contents.keys_exported {lower : String → String} {c : Contents ρ}
    (h : c.cookies.Made lower) : c.exported.keys lower = c.cookies.keys := by
  have hall : ∀ cookies : List (Cookie ρ), (∀ x ∈ cookies, x.create lower = some x) →
      cookies.filterMap (Cookie.create lower) = cookies := by
    intro cookies hcookies
    induction cookies with
    | nil => rfl
    | cons first rest ih =>
      rw [List.filterMap_cons_some (hcookies first List.mem_cons_self),
        ih fun x hx ↦ hcookies x (List.mem_cons_of_mem _ hx)]
  show (c.cookies.exportCookies.filterMap _).map _ = _
  rw [hall _ h]
  exact CookieJar.map_key_exportCookies _

namespace LiveSessions

/-- The live sessions whose records `persist_session` takes. -/
def exportSources (s : LiveSessions ρ) (sessionId : String) : List (Option String × String) :=
  match s.manager.groupSessions.lookup sessionId with
  | some members => members.filterMap fun member ↦
      (s.manager.sessions member).map fun _ ↦ (some member, member)
  | none => (s.manager.sessions (s.manager.target sessionId)).toList.map fun _ ↦
      (none, s.manager.target sessionId)

/-- The live sessions into which `restore_session` imports the records of a snapshot. -/
def restoreSources (s : LiveSessions ρ) (sessionId : String) (choice : String → Nat) :
    Snapshot ρ → List (Option String × String)
  | .session _ => (s.manager.resolve sessionId (choice sessionId)).toList.map (none, ·)
  | .group members => members.entries.filterMap fun entry ↦
      (s.manager.resolve entry.1 (choice entry.1)).map (some entry.1, ·)

variable {env : Environment} {s : LiveSessions ρ} {sessionId source : String}
  {label : Option String} {key : CookieKey}

/-- A snapshot contains the cookies of the sessions it was taken of. -/
theorem mem_holds_persistState {lower : String → String} {snapshot : Snapshot ρ}
    (hmade : ∀ id, (s.contents id).cookies.Made lower)
    (hstate : s.persistState sessionId = some snapshot)
    (hsource : (label, source) ∈ s.exportSources sessionId) :
    (label, key) ∈ snapshot.holds lower ↔ key ∈ (s.contents source).cookies.keys := by
  rw [Snapshot.mem_holds]
  rw [persistState] at hstate
  rw [exportSources] at hsource
  cases hgroup : s.manager.groupSessions.lookup sessionId with
  | some members =>
    rw [hgroup] at hstate hsource
    cases hstate
    obtain ⟨member, hmember, hlive⟩ := List.mem_filterMap.mp hsource
    obtain ⟨wrapper, hwrapper, he⟩ := Option.map_eq_some_iff.mp hlive
    cases he
    have hentries : ∀ state : Exported ρ,
        (some source, state) ∈ (Snapshot.group (Dict.ofList (members.filterMap fun member ↦
          (s.manager.sessions member).map fun _ ↦
            (member, (s.contents member).exported)))).labelled ↔
          state = (s.contents source).exported := by
      intro state
      have hfun : ∀ e ∈ members.filterMap (fun member ↦ (s.manager.sessions member).map fun _ ↦
          (member, (s.contents member).exported)), e.2 = (s.contents e.1).exported := by
        intro e he
        obtain ⟨found, -, hfound⟩ := List.mem_filterMap.mp he
        obtain ⟨_, -, rfl⟩ := Option.map_eq_some_iff.mp hfound
        rfl
      have hmem := @Dict.mem_ofList _ _ _ (fun id ↦ (s.contents id).exported) _ hfun
      constructor
      · intro h
        obtain ⟨entry, hentry, he⟩ := List.mem_map.mp h
        cases he
        exact hfun entry (hmem.mp hentry)
      · rintro rfl
        refine List.mem_map.mpr ⟨(source, _), hmem.mpr ?_, rfl⟩
        exact List.mem_filterMap.mpr ⟨source, hmember, by rw [hwrapper]; rfl⟩
    rw [← Contents.keys_exported (hmade source)]
    constructor
    · rintro ⟨state, hrecord, hkey⟩
      rwa [(hentries state).mp hrecord] at hkey
    · exact fun hkey ↦ ⟨_, (hentries _).mpr rfl, hkey⟩
  | none =>
    rw [hgroup] at hstate hsource
    dsimp only at hstate hsource
    cases hwrapper : s.manager.sessions (s.manager.target sessionId) with
    | none =>
      rw [hwrapper] at hstate
      cases hstate
    | some wrapper =>
      rw [hwrapper] at hstate hsource
      cases hstate
      cases List.mem_singleton.mp hsource
      rw [← Contents.keys_exported (hmade _)]
      constructor
      · rintro ⟨state, hrecord, hkey⟩
        cases List.mem_singleton.mp hrecord
        exact hkey
      · exact fun hkey ↦ ⟨_, List.mem_singleton_self _, hkey⟩

/-! ## What an import leaves -/

/-- The session of a record holds its cookies. -/
theorem mem_keys_importInto {state : Exported ρ} {choice : Nat}
    (hok : (s.importInto env sessionId state choice).2 = true)
    (hresolve : s.manager.resolve sessionId choice = some source)
    (hkey : key ∈ state.keys env.lowerString) :
    key ∈ ((s.importInto env sessionId state choice).1.contents source).cookies.keys := by
  rw [importInto, hresolve] at hok ⊢
  dsimp only at hok ⊢
  rw [Function.update_self]
  rw [Contents.restore] at hok ⊢
  split at hok
  · next hcookies =>
    rw [if_pos hcookies]
    exact CookieJar.mem_keys_setCookies _ _ hcookies (.inr hkey)
  · cases hok

/-- The members hold the cookies of their records, when they are different sessions. -/
theorem mem_keys_restoreMembers {choice : String → Nat} (records : List (String × Exported ρ))
    {record : String × Exported ρ} (hrecord : record ∈ records)
    (hok : (s.restoreMembers env choice records).2 = true)
    (hdistinct : (records.filterMap fun r ↦ s.manager.resolve r.1 (choice r.1)).Nodup)
    (hresolve : s.manager.resolve record.1 (choice record.1) = some source)
    (hkey : key ∈ record.2.keys env.lowerString) :
    key ∈ ((s.restoreMembers env choice records).1.contents source).cookies.keys := by
  induction records generalizing s with
  | nil => cases hrecord
  | cons first rest ih =>
    obtain ⟨member, state⟩ := first
    rw [restoreMembers] at hok ⊢
    split at hok
    · next hfirst =>
      rw [if_pos hfirst]
      rcases List.mem_cons.mp hrecord with rfl | hrest
      · have hhead := mem_keys_importInto hfirst hresolve hkey
        rw [List.filterMap_cons] at hdistinct
        dsimp only at hdistinct hresolve
        rw [hresolve] at hdistinct
        rw [contents_restoreMembers]
        · exact hhead
        · intro later hlater hsame
          rw [resolve_importInto] at hsame
          exact (List.nodup_cons.mp hdistinct).1
            (List.mem_filterMap.mpr ⟨later, hlater, hsame⟩)
      · apply ih hrest hok
        · simp only [resolve_importInto]
          exact hdistinct.sublist ((List.sublist_cons_self _ _).filterMap _)
        · rwa [resolve_importInto]
    · next hfirst => exact absurd hok hfirst

/-- A snapshot that is imported into different sessions leaves its cookies there. -/
theorem mem_keys_restoreSnapshot {choice : String → Nat} {snapshot : Snapshot ρ}
    (hok : (s.restoreSnapshot env sessionId choice snapshot).2 = true)
    (hdistinct : (s.targets sessionId choice snapshot).Nodup)
    (hsource : (label, source) ∈ s.restoreSources sessionId choice snapshot)
    (hkey : (label, key) ∈ snapshot.holds env.lowerString) :
    key ∈ ((s.restoreSnapshot env sessionId choice snapshot).1.contents source).cookies.keys := by
  obtain ⟨state, hrecord, hheld⟩ := Snapshot.mem_holds.mp hkey
  cases snapshot with
  | session found =>
    cases List.mem_singleton.mp hrecord
    obtain ⟨concrete, hconcrete, he⟩ := List.mem_map.mp hsource
    cases he
    exact mem_keys_importInto hok (Option.mem_toList.mp hconcrete) hheld
  | group members =>
    obtain ⟨record, hmember, he⟩ := List.mem_map.mp hrecord
    cases he
    obtain ⟨entry, hentry, he⟩ := List.mem_filterMap.mp hsource
    obtain ⟨concrete, hconcrete, he⟩ := Option.map_eq_some_iff.mp he
    rw [Prod.mk.injEq, Option.some.injEq] at he
    obtain ⟨hname, rfl⟩ := he
    rw [hname] at hconcrete
    rw [restoreSnapshot] at hok ⊢
    dsimp only at hok ⊢
    split at hok
    · next hmembers =>
      rw [if_pos hmembers]
      exact mem_keys_restoreMembers members.entries hmember hmembers hdistinct hconcrete hheld
    · next hmembers => exact absurd hok hmembers

variable {P : Contents ρ → Prop}

/-- What holds of every session, and is kept by the import of a record. -/
theorem all_importInto {state : Exported ρ} {choice : Nat}
    (hrestore : ∀ c, P c → P (c.restore env state).1) (h : ∀ id, P (s.contents id)) (id : String) :
    P ((s.importInto env sessionId state choice).1.contents id) := by
  rw [importInto]
  cases s.manager.resolve sessionId choice with
  | none => exact h id
  | some concrete =>
    dsimp only
    by_cases hid : id = concrete
    · rw [hid, Function.update_self]
      exact hrestore _ (h concrete)
    · rw [Function.update_of_ne hid]
      exact h id

theorem all_restoreMembers {choice : String → Nat} (records : List (String × Exported ρ))
    (hrestore : ∀ record ∈ records, ∀ c, P c → P (c.restore env record.2).1)
    (h : ∀ id, P (s.contents id)) (id : String) :
    P ((s.restoreMembers env choice records).1.contents id) := by
  induction records generalizing s with
  | nil => exact h id
  | cons record rest ih =>
    obtain ⟨member, state⟩ := record
    have hhead : ∀ other,
        P ((s.importInto env member state (choice member)).1.contents other) :=
      all_importInto (hrestore _ List.mem_cons_self) h
    rw [restoreMembers]
    split
    · exact ih (fun later hlater ↦ hrestore later (List.mem_cons_of_mem _ hlater)) hhead
    · exact hhead id

/-- What holds of every session, and is kept by the imports of a snapshot. -/
theorem all_restoreSnapshot {choice : String → Nat} (snapshot : Snapshot ρ)
    (hrestore : ∀ record ∈ snapshot.records sessionId, ∀ c, P c → P (c.restore env record.2).1)
    (h : ∀ id, P (s.contents id)) (id : String) :
    P ((s.restoreSnapshot env sessionId choice snapshot).1.contents id) := by
  cases snapshot with
  | session state => exact all_importInto (hrestore _ List.mem_cons_self) h id
  | group members =>
    have hmembers : P ((s.restoreMembers env choice members.entries).1.contents id) :=
      all_restoreMembers members.entries hrestore h id
    rw [restoreSnapshot]
    dsimp only
    split <;> exact hmembers

/-- An import keeps the cookies as constructors left them. -/
theorem made_restoreSnapshot {choice : String → Nat} (snapshot : Snapshot ρ)
    (hlower : ∀ text, env.lowerString (env.lowerString text) = env.lowerString text)
    (hmade : ∀ id, (s.contents id).cookies.Made env.lowerString) (id : String) :
    ((s.restoreSnapshot env sessionId choice snapshot).1.contents id).cookies.Made
      env.lowerString := by
  apply all_restoreSnapshot (P := fun c ↦ c.cookies.Made env.lowerString) snapshot _ hmade
  intro record _ c _
  have himported : ((c.cookies.importCookies env.lowerString record.2.cookies).1).Made
      env.lowerString := CookieJar.made_setCookies hlower _ _ fun c hc ↦ by cases hc
  rw [Contents.restore]
  split <;> exact himported

end LiveSessions

/-! ## A small setting -/

/-- A cookie of a host. -/
def sampleCookie (name : String) : Cookie Unit where
  version := some 0
  name
  value := some "1"
  port := none
  portSpecified := false
  domain := "h"
  domainSpecified := false
  domainInitialDot := false
  path := "/"
  pathSpecified := true
  secure := true
  expires := none
  discard := true
  comment := none
  commentUrl := none
  rest := ()
  rfc2109 := false

/-- Texts in lower case, and no profiles. -/
def plainEnvironment : Environment := ⟨id, (· = ' '), fun _ ↦ .error (), fun _ ↦ none⟩

end ScrapyCffi.Sessions
