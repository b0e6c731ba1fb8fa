import ScrapyCffi.Sessions.Persistence

/-!
# Concurrent restores

`restore_session` looks for its marker, awaits the `hget`, and only then adds the marker and imports
what it has read (`core/sessions.py:957–987`, called by `RedisScheduler.get` for each request,
`core/scheduler/redis.py:146–152,209–217`). Calls for one session may overlap.
-/

namespace ScrapyCffi.Sessions

open ScrapyCffi.Base ScrapyCffi.ClientHints

variable {ρ : Type}

/-- A manager whose sessions are restored. `calls` await their `hget`, by state key and session id.
The last three fields are history: the calls that have come back with the sessions they are for, the
markers whose snapshot was imported, and the cookies that the live sessions were given after such a
call and have not dropped themselves. -/
structure Restoring (ρ : Type) where
  live : LiveSessions ρ
  restored : List Marker
  calls : List (String × String)
  ended : List (Marker × List String)
  imported : List Marker
  setSince : String → CookieKey → Option (Cookie ρ)

namespace Restoring

/-- A new manager. -/
def start (defaultSessionId : String) (defaults : CookieJar ρ) : Restoring ρ where
  live := .start defaultSessionId defaults
  restored := []
  calls := []
  ended := []
  imported := []
  setSince _ _ := none

/-- Some call that has come back is for the session. -/
def Awaited (s : Restoring ρ) (sessionId : String) : Prop :=
  ∃ call ∈ s.ended, sessionId ∈ call.2

instance (s : Restoring ρ) (sessionId : String) : Decidable (s.Awaited sessionId) :=
  inferInstanceAs (Decidable (∃ call ∈ s.ended, _))

/-- A step of the manager, a cookie that a live session is given or drops, a `persist_session`, the
start of a `restore_session`, the reply to its `hget` with the outcomes of `random.choice`, or the
failure of its `hget`. -/
inductive RestoreEvent (ρ : Type)
  | manager (event : Event)
  | setCookie (sessionId : String) (cookie : Cookie ρ)
  | removeCookie (sessionId : String) (key : CookieKey)
  | persisted (stateKey sessionId : String)
  | restoreSession (stateKey sessionId : String)
  | hget (stateKey sessionId : String) (payload : Option (Snapshot ρ)) (choice : String → Nat)
  | hgetFails (stateKey sessionId : String)

/-- The manager takes a step. -/
def manage (defaults : CookieJar ρ) (s : Restoring ρ) (event : Event) : Option (Restoring ρ) :=
  (s.live.manage defaults event).map fun live ↦
    { s with
      live
      setSince := fun sessionId ↦
        if (s.live.manager.sessions sessionId).isSome ∧ live.manager.sessions sessionId = none then
          fun _ ↦ none
        else s.setSince sessionId }

/-- A live session is given a cookie. -/
def setCookie (s : Restoring ρ) (sessionId : String) (cookie : Cookie ρ) : Restoring ρ :=
  { s with
    live := s.live.updateCookies sessionId (·.setCookie cookie)
    setSince := Function.update s.setSince sessionId (Function.update (s.setSince sessionId)
      cookie.key (if s.Awaited sessionId then some cookie else none)) }

/-- A live session drops a cookie. -/
def removeCookie (s : Restoring ρ) (sessionId : String) (key : CookieKey) : Restoring ρ :=
  { s with
    live := s.live.updateCookies sessionId (·.remove key)
    setSince := Function.update s.setSince sessionId
      (Function.update (s.setSince sessionId) key none) }

/-- A call of `restore_session` has come back. -/
def ends (s : Restoring ρ) (stateKey sessionId : String) (targets : List String) : Restoring ρ :=
  { s with
    ended := (marker stateKey sessionId, s.live.manager.addressed sessionId ++ targets) :: s.ended }

/-- The part of `restore_session` behind its `hget`. -/
def resume (env : Environment) (s : Restoring ρ) (stateKey sessionId : String)
    (choice : String → Nat) : Option (Snapshot ρ) → Restoring ρ
  | none => s.ends stateKey sessionId []
  | some snapshot =>
    let t := { s with
      live := (s.live.restoreSnapshot env sessionId choice snapshot).1
      imported := marker stateKey sessionId :: s.imported }
    t.ends stateKey sessionId (s.live.targets sessionId choice snapshot)

/-- One step. -/
def step (env : Environment) (defaults : CookieJar ρ) (s : Restoring ρ) :
    RestoreEvent ρ → Option (Restoring ρ)
  | .manager event => s.manage defaults event
  | .setCookie sessionId cookie =>
    if (s.live.manager.sessions sessionId).isSome then some (s.setCookie sessionId cookie) else none
  | .removeCookie sessionId key =>
    if (s.live.manager.sessions sessionId).isSome then some (s.removeCookie sessionId key) else none
  | .persisted stateKey sessionId =>
    some { s with restored := marker stateKey sessionId :: s.restored }
  | .restoreSession stateKey sessionId =>
    if marker stateKey sessionId ∈ s.restored then some (s.ends stateKey sessionId [])
    else some { s with calls := (stateKey, sessionId) :: s.calls }
  | .hget stateKey sessionId payload choice =>
    if (stateKey, sessionId) ∈ s.calls then
      some ({ s with
        calls := s.calls.erase (stateKey, sessionId)
        restored := marker stateKey sessionId :: s.restored }.resume env stateKey sessionId choice
          payload)
    else none
  | .hgetFails stateKey sessionId =>
    if (stateKey, sessionId) ∈ s.calls then
      some { s with calls := s.calls.erase (stateKey, sessionId) }
    else none

/-- Every interleaving. -/
def machine (env : Environment) (defaults : CookieJar ρ) :
    Machine (Restoring ρ) (RestoreEvent ρ) where
  init s := ∃ defaultSessionId, s = start defaultSessionId defaults
  step := step env defaults

/-- A call comes back with a snapshot only while no call for its field has come back, nor one that
is for a session of the snapshot. -/
def Undisputed (s : Restoring ρ) : RestoreEvent ρ → Prop
  | .hget stateKey sessionId (some snapshot) choice =>
    ∀ call ∈ s.ended, call.1 ≠ marker stateKey sessionId ∧
      ∀ target ∈ s.live.targets sessionId choice snapshot, target ∉ call.2
  | _ => True

instance (s : Restoring ρ) : ∀ event, Decidable (s.Undisputed event)
  | .hget _ _ (some _) _ => inferInstanceAs (Decidable (∀ call ∈ s.ended, _))
  | .hget _ _ none _ | .manager _ | .setCookie .. | .removeCookie .. | .persisted ..
  | .restoreSession .. | .hgetFails .. => .isTrue trivial

/-- Each cookie that a live session was given after a call for it had come back is still there. -/
def Kept (s : Restoring ρ) : Prop :=
  ∀ sessionId key cookie, s.setSince sessionId key = some cookie →
    (s.live.contents sessionId).cookies.get key = some cookie

/-! ## One step -/

/-- What is known in every state. -/
structure Recorded (s : Restoring ρ) : Prop where
  once : s.imported.Nodup
  known : ∀ m ∈ s.imported, ∃ call ∈ s.ended, call.1 = m
  kept : s.Kept
  since : ∀ sessionId key cookie, s.setSince sessionId key = some cookie → s.Awaited sessionId

variable {env : Environment} {defaults : CookieJar ρ} {s t : Restoring ρ} {sessionId : String}
  {e : RestoreEvent ρ}

/-- A closed session takes its history with it. -/
theorem Recorded.manage {event : Event} (h : s.Recorded) (ht : s.manage defaults event = some t) :
    t.Recorded := by
  obtain ⟨live, hlive, rfl⟩ := Option.map_eq_some_iff.mp ht
  obtain ⟨manager, -, rfl⟩ := Option.map_eq_some_iff.mp hlive
  refine ⟨h.once, h.known, fun id key cookie hset ↦ ?_, fun id key cookie hset ↦ ?_⟩
  · dsimp only at hset ⊢
    split at hset
    · cases hset
    · next hopen =>
      rw [if_neg hopen]
      exact h.kept id key cookie hset
  · dsimp only at hset
    split at hset
    · cases hset
    · exact h.since id key cookie hset

/-- A cookie is set. -/
theorem Recorded.setCookie (h : s.Recorded) (cookie : Cookie ρ) :
    (s.setCookie sessionId cookie).Recorded := by
  refine ⟨h.once, h.known, fun id key c hset ↦ ?_, fun id key c hset ↦ ?_⟩
  · by_cases hid : id = sessionId
    · subst hid
      simp only [Restoring.setCookie, LiveSessions.updateCookies, Function.update_self] at hset ⊢
      rw [CookieJar.get_setCookie]
      by_cases hkey : key = cookie.key
      · subst hkey
        rw [Function.update_self] at hset
        rw [if_pos rfl]
        split at hset
        · exact hset
        · cases hset
      · rw [Function.update_of_ne hkey] at hset
        rw [if_neg hkey]
        exact h.kept id key c hset
    · simp only [Restoring.setCookie, LiveSessions.updateCookies, Function.update_of_ne hid] at hset ⊢
      exact h.kept id key c hset
  · by_cases hid : id = sessionId
    · subst hid
      simp only [Restoring.setCookie, Function.update_self] at hset
      by_cases hkey : key = cookie.key
      · subst hkey
        rw [Function.update_self] at hset
        split at hset
        · next hawaited => exact hawaited
        · cases hset
      · rw [Function.update_of_ne hkey] at hset
        exact h.since id key c hset
    · simp only [Restoring.setCookie, Function.update_of_ne hid] at hset
      exact h.since id key c hset

/-- A cookie is dropped. -/
theorem Recorded.removeCookie (h : s.Recorded) (removed : CookieKey) :
    (s.removeCookie sessionId removed).Recorded := by
  have hsub : ∀ id key c, (s.removeCookie sessionId removed).setSince id key = some c →
      s.setSince id key = some c ∧ ¬ (id = sessionId ∧ key = removed) := by
    intro id key c hset
    by_cases hid : id = sessionId
    · subst hid
      simp only [Restoring.removeCookie, Function.update_self] at hset
      by_cases hkey : key = removed
      · rw [hkey, Function.update_self] at hset
        cases hset
      · rw [Function.update_of_ne hkey] at hset
        exact ⟨hset, fun hboth ↦ hkey hboth.2⟩
    · simp only [Restoring.removeCookie, Function.update_of_ne hid] at hset
      exact ⟨hset, fun hboth ↦ hid hboth.1⟩
  refine ⟨h.once, h.known, fun id key c hset ↦ ?_, fun id key c hset ↦ ?_⟩
  · obtain ⟨hbefore, hne⟩ := hsub id key c hset
    have hkept := h.kept id key c hbefore
    by_cases hid : id = sessionId
    · subst hid
      simp only [Restoring.removeCookie, LiveSessions.updateCookies, Function.update_self]
      rw [CookieJar.get_remove, if_neg fun hkey ↦ hne ⟨rfl, hkey⟩]
      exact hkept
    · simp only [Restoring.removeCookie, LiveSessions.updateCookies, Function.update_of_ne hid]
      exact hkept
  · exact h.since id key c (hsub id key c hset).1

/-- A call comes back without an import. -/
theorem Recorded.ends (h : s.Recorded) (stateKey : String) (targets : List String) :
    (s.ends stateKey sessionId targets).Recorded where
  once := h.once
  known m hm := by
    obtain ⟨call, hcall, he⟩ := h.known m hm
    exact ⟨call, List.mem_cons_of_mem _ hcall, he⟩
  kept := h.kept
  since id key c hset := by
    obtain ⟨call, hcall, hid⟩ := h.since id key c hset
    exact ⟨call, List.mem_cons_of_mem _ hcall, hid⟩

/-- A call comes back with a snapshot, and no call for its field or its sessions has come back. -/
theorem Recorded.resume (h : s.Recorded) {stateKey : String} {snapshot : Snapshot ρ}
    {choice : String → Nat}
    (hg : ∀ call ∈ s.ended, call.1 ≠ marker stateKey sessionId ∧
      ∀ target ∈ s.live.targets sessionId choice snapshot, target ∉ call.2) :
    (s.resume env stateKey sessionId choice (some snapshot)).Recorded where
  once := by
    apply List.nodup_cons.mpr
    refine ⟨fun hm ↦ ?_, h.once⟩
    obtain ⟨call, hcall, he⟩ := h.known _ hm
    exact (hg call hcall).1 he
  known m hm := by
    rcases List.mem_cons.mp hm with rfl | hm
    · exact ⟨_, List.mem_cons_self, rfl⟩
    · obtain ⟨call, hcall, he⟩ := h.known m hm
      exact ⟨call, List.mem_cons_of_mem _ hcall, he⟩
  kept id key c hset := by
    -- a session with such cookies is one a call has come back for, so no target
    obtain ⟨call, hcall, hid⟩ := h.since id key c hset
    have hout : id ∉ s.live.targets sessionId choice snapshot := fun htarget ↦
      (hg call hcall).2 id htarget hid
    show ((s.live.restoreSnapshot env sessionId choice snapshot).1.contents id).cookies.get key = _
    rw [LiveSessions.contents_restoreSnapshot choice snapshot hout]
    exact h.kept id key c hset
  since id key c hset := by
    obtain ⟨call, hcall, hid⟩ := h.since id key c hset
    exact ⟨call, List.mem_cons_of_mem _ hcall, hid⟩

/-- What is known does not depend on the markers and the pending calls. -/
theorem Recorded.of_eq (h : s.Recorded) (restored : List Marker) (calls : List (String × String)) :
    { s with restored, calls }.Recorded :=
  ⟨h.once, h.known, h.kept, h.since⟩

/-- One undisputed step. -/
theorem recorded_step (h : s.Recorded) (hg : s.Undisputed e) (ht : step env defaults s e = some t) :
    t.Recorded := by
  cases e with
  | manager event => exact h.manage ht
  | setCookie sessionId cookie =>
    rw [step] at ht
    split at ht
    · cases ht
      exact h.setCookie cookie
    · cases ht
  | removeCookie sessionId key =>
    rw [step] at ht
    split at ht
    · cases ht
      exact h.removeCookie key
    · cases ht
  | persisted stateKey sessionId =>
    cases ht
    exact h.of_eq _ _
  | restoreSession stateKey sessionId =>
    rw [step] at ht
    split at ht
    · cases ht
      exact h.ends stateKey []
    · cases ht
      exact h.of_eq _ _
  | hget stateKey sessionId payload choice =>
    rw [step] at ht
    split at ht
    · cases ht
      have hmarked := h.of_eq (marker stateKey sessionId :: s.restored)
        (s.calls.erase (stateKey, sessionId))
      cases payload with
      | none => exact hmarked.ends stateKey []
      | some snapshot => exact hmarked.resume hg
    · cases ht
  | hgetFails stateKey sessionId =>
    rw [step] at ht
    split at ht
    · cases ht
      exact h.of_eq _ _
    · cases ht

/-! ## Runs -/

/-- A stored login. -/
def storedLogin : Snapshot Unit := .session ⟨[sampleCookie "login"], none⟩

/-- The default session is restored and given a cookie. -/
def restoredSession : List (RestoreEvent Unit) :=
  [.restoreSession "k" "", .hget "k" "" (some storedLogin) fun _ ↦ 0,
    .setCookie "default" (sampleCookie "visit")]

/-- The manager after events. -/
def after (events : List (RestoreEvent Unit)) : Restoring Unit :=
  ((machine plainEnvironment .empty).run (start "default" .empty) events).getD
    (start "default" .empty)

/-- Two calls overlap, and a cookie is set between their imports. -/
def overlappingCalls : List (RestoreEvent Unit) :=
  [.restoreSession "k" "", .restoreSession "k" "", .hget "k" "" (some storedLogin) fun _ ↦ 0,
    .setCookie "default" (sampleCookie "visit"), .hget "k" "" (some storedLogin) fun _ ↦ 0]

end Restoring

end ScrapyCffi.Sessions
