import ScrapyCffi.Base.Dict
import ScrapyCffi.Base.Double

/-!
# The cookies of a session

`http.cookiejar.Cookie`, the jar of a session, and `export_cookies` and `import_cookies` of a
`SessionWrapper`, `core/sessions.py:627–657`. `str.lower` and the type of the further attributes
are parameters.
-/

namespace ScrapyCffi.Sessions

open ScrapyCffi.Base

/-- A cookie, or its record: the arguments of `Cookie`. -/
structure Cookie (ρ : Type) where
  version : Option Int
  name : String
  value : Option String
  port : Option String
  portSpecified : Bool
  domain : String
  domainSpecified : Bool
  domainInitialDot : Bool
  path : String
  pathSpecified : Bool
  secure : Bool
  expires : Option Int
  discard : Bool
  comment : Option String
  commentUrl : Option String
  rest : ρ
  rfc2109 : Bool
  deriving DecidableEq, Repr

/-- Where a jar keeps a cookie: its domain, path and name. -/
abbrev CookieKey := String × String × String

variable {ρ : Type}

/-- `self._cookies[domain][path][name]`. -/
def Cookie.key (c : Cookie ρ) : CookieKey := (c.domain, c.path, c.name)

/-- `int(float(expires))`; `none` when it raises. -/
def cookieExpires : Option Int → Option (Option Int)
  | none => some none
  | some time => (intFloat time).map some

/-- `Cookie(**data)`; `none` when it raises. -/
def Cookie.create (lower : String → String) (data : Cookie ρ) : Option (Cookie ρ) :=
  if data.port = none ∧ data.portSpecified then none
  else
    (cookieExpires data.expires).map fun expires ↦
      { data with domain := lower data.domain, expires }

/-- A cookie jar, its cookies under their keys. -/
@[ext]
structure CookieJar (ρ : Type) where
  cookies : Dict CookieKey (Cookie ρ)
  keyed : ∀ entry ∈ cookies.entries, entry.1 = entry.2.key

namespace CookieJar

/-- An empty jar, which `clear` leaves. -/
def empty : CookieJar ρ := ⟨.empty, by intro _ h; cases h⟩

/-- `set_cookie`. -/
def setCookie (jar : CookieJar ρ) (c : Cookie ρ) : CookieJar ρ where
  cookies := jar.cookies.set c.key c
  keyed entry h := by
    rcases Dict.mem_set h with rfl | hentry
    · rfl
    · exact jar.keyed entry hentry

/-- A cookie is removed or expires. -/
def remove (jar : CookieJar ρ) (key : CookieKey) : CookieJar ρ where
  cookies := jar.cookies.erase key
  keyed entry h := jar.keyed entry (List.mem_filter.mp h).1

/-- The cookie under a key. -/
def get (jar : CookieJar ρ) (key : CookieKey) : Option (Cookie ρ) := jar.cookies.get key

/-- The keys of the cookies. -/
def keys (jar : CookieJar ρ) : List CookieKey := jar.cookies.keys

/-- `export_cookies`. -/
def exportCookies (jar : CookieJar ρ) : List (Cookie ρ) := jar.cookies.entries.map Prod.snd

/-- The loop of `import_cookies`; the flag tells that no record raised. -/
def setCookies (lower : String → String) (jar : CookieJar ρ) : List (Cookie ρ) → CookieJar ρ × Bool
  | [] => (jar, true)
  | data :: rest =>
    match data.create lower with
    | some c => (jar.setCookie c).setCookies lower rest
    | none => (jar, false)

/-- `import_cookies`, which replaces what the jar held. -/
def importCookies (lower : String → String) (_ : CookieJar ρ) (cookies : List (Cookie ρ)) :
    CookieJar ρ × Bool :=
  empty.setCookies lower cookies

end CookieJar

namespace CookieJar

variable {jar : CookieJar ρ} {key : CookieKey}

theorem get_setCookie (c : Cookie ρ) :
    (jar.setCookie c).get key = if key = c.key then some c else jar.get key :=
  Dict.get_set

theorem get_remove (removed : CookieKey) :
    (jar.remove removed).get key = if key = removed then none else jar.get key :=
  Dict.get_erase

theorem mem_keys_setCookie {c : Cookie ρ} :
    key ∈ (jar.setCookie c).keys ↔ key = c.key ∨ key ∈ jar.keys := by
  show key ∈ (Dict.assign c.key c jar.cookies.entries).map Prod.fst ↔ _
  rw [Dict.map_fst_assign]
  split
  · next hmem => exact ⟨.inr, fun h ↦ h.elim (fun he ↦ he ▸ hmem) id⟩
  · rw [List.mem_append, List.mem_singleton, or_comm]
    rfl

theorem mem_keys_remove {removed : CookieKey} :
    key ∈ (jar.remove removed).keys ↔ key ≠ removed ∧ key ∈ jar.keys := by
  show key ∈ (jar.cookies.entries.filter _).map Prod.fst ↔ _
  constructor
  · intro h
    obtain ⟨entry, hentry, rfl⟩ := List.mem_map.mp h
    obtain ⟨hmem, hne⟩ := List.mem_filter.mp hentry
    exact ⟨by simpa using hne, List.mem_map_of_mem hmem⟩
  · rintro ⟨hne, h⟩
    obtain ⟨entry, hentry, rfl⟩ := List.mem_map.mp h
    exact List.mem_map_of_mem (List.mem_filter.mpr ⟨hentry, by simpa using hne⟩)

/-- The cookies are as their constructor left them. -/
def Made (lower : String → String) (jar : CookieJar ρ) : Prop :=
  ∀ c ∈ jar.exportCookies, c.create lower = some c

theorem mem_exportCookies_setCookie {c other : Cookie ρ}
    (h : other ∈ (jar.setCookie c).exportCookies) : other = c ∨ other ∈ jar.exportCookies := by
  obtain ⟨entry, hentry, rfl⟩ := List.mem_map.mp h
  rcases Dict.mem_set hentry with rfl | hentry
  · exact .inl rfl
  · exact .inr (List.mem_map_of_mem hentry)

theorem Made.setCookie {lower : String → String} (h : jar.Made lower) {c : Cookie ρ}
    (hc : c.create lower = some c) : (jar.setCookie c).Made lower := by
  intro other ho
  rcases mem_exportCookies_setCookie ho with rfl | ho
  · exact hc
  · exact h other ho

theorem Made.remove {lower : String → String} (h : jar.Made lower) (removed : CookieKey) :
    (jar.remove removed).Made lower := by
  intro other ho
  obtain ⟨entry, hentry, rfl⟩ := List.mem_map.mp ho
  exact h _ (List.mem_map_of_mem (List.mem_filter.mp hentry).1)

end CookieJar

/-! ## Exported and imported -/

variable {lower : String → String}

/-- What a constructor has made, it makes of itself again. -/
theorem Cookie.create_idem (hlower : ∀ text, lower (lower text) = lower text) {data c : Cookie ρ}
    (h : data.create lower = some c) : c.create lower = some c := by
  rw [Cookie.create] at h
  split at h
  · cases h
  · next hport =>
    obtain ⟨expires, hexpires, rfl⟩ := Option.map_eq_some_iff.mp h
    have hagain : cookieExpires expires = some expires := by
      cases htime : data.expires with
      | none =>
        rw [htime] at hexpires
        cases hexpires
        rfl
      | some time =>
        rw [htime, cookieExpires] at hexpires
        obtain ⟨rounded, hrounded, rfl⟩ := Option.map_eq_some_iff.mp hexpires
        rw [cookieExpires, intFloat_idem hrounded]
        rfl
    rw [Cookie.create, if_neg hport]
    show (cookieExpires expires).map _ = _
    rw [hagain, Option.map_some, hlower]

namespace CookieJar

/-- Cookies with keys of their own come behind those of the jar. -/
theorem setCookies_entries (cookies : List (Cookie ρ)) (jar : CookieJar ρ)
    (hcreate : ∀ c ∈ cookies, c.create lower = some c)
    (hkeys : (jar.cookies.keys ++ cookies.map Cookie.key).Nodup) :
    (jar.setCookies lower cookies).2 = true ∧
      (jar.setCookies lower cookies).1.cookies.entries =
        jar.cookies.entries ++ cookies.map fun c ↦ (c.key, c) := by
  induction cookies generalizing jar with
  | nil => exact ⟨rfl, (List.append_nil _).symm⟩
  | cons c rest ih =>
    rw [List.map_cons] at hkeys
    have hfresh : c.key ∉ jar.cookies.keys := fun hmem ↦
      (List.nodup_append.mp hkeys).2.2 _ hmem _ List.mem_cons_self rfl
    have hset : (jar.setCookie c).cookies.entries = jar.cookies.entries ++ [(c.key, c)] :=
      Dict.assign_of_not_mem hfresh
    have hkeys' : ((jar.setCookie c).cookies.keys ++ rest.map Cookie.key).Nodup := by
      rw [Dict.keys, hset, List.map_append, List.append_assoc]
      exact hkeys
    obtain ⟨hok, hentries⟩ := ih (jar.setCookie c)
      (fun other ho ↦ hcreate other (List.mem_cons_of_mem _ ho)) hkeys'
    rw [setCookies, hcreate c List.mem_cons_self]
    refine ⟨hok, ?_⟩
    rw [hentries, hset, List.append_assoc, List.map_cons, List.singleton_append]

/-- The keys of the exported cookies are those of the jar. -/
theorem map_key_exportCookies (jar : CookieJar ρ) :
    jar.exportCookies.map Cookie.key = jar.keys := by
  rw [exportCookies, List.map_map]
  exact List.map_congr_left fun entry hentry ↦ (jar.keyed entry hentry).symm

/-- A jar is imported as it was exported, whatever the other one held. -/
theorem importCookies_exportCookies (jar other : CookieJar ρ)
    (hmade : jar.Made lower) : other.importCookies lower jar.exportCookies = (jar, true) := by
  have hkeys : (Dict.keys (.empty : Dict CookieKey (Cookie ρ)) ++
      jar.exportCookies.map Cookie.key).Nodup := by
    rw [map_key_exportCookies]
    exact jar.cookies.nodup
  obtain ⟨hok, hentries⟩ := setCookies_entries _ (.empty : CookieJar ρ) hmade hkeys
  have hall : jar.exportCookies.map (fun c ↦ (c.key, c)) = jar.cookies.entries := by
    rw [exportCookies, List.map_map]
    refine (List.map_congr_left fun entry hentry ↦ ?_).trans (List.map_id _)
    show (entry.2.key, entry.2) = entry
    rw [← jar.keyed entry hentry]
  refine Prod.ext ?_ hok
  apply CookieJar.ext
  apply Dict.ext
  rw [importCookies, hentries, hall]
  rfl

/-- The loop keeps the keys of the jar and adds those of the records, unless one raises. -/
theorem mem_keys_setCookies {key : CookieKey} (cookies : List (Cookie ρ)) (jar : CookieJar ρ)
    (hok : (jar.setCookies lower cookies).2 = true)
    (h : key ∈ jar.keys ∨ key ∈ (cookies.filterMap (Cookie.create lower)).map Cookie.key) :
    key ∈ (jar.setCookies lower cookies).1.keys := by
  induction cookies generalizing jar with
  | nil => exact h.resolve_right fun hmem ↦ by cases hmem
  | cons data rest ih =>
    rw [setCookies] at hok ⊢
    cases hcreate : data.create lower with
    | none =>
      rw [hcreate] at hok
      cases hok
    | some c =>
      rw [hcreate] at hok
      rw [List.filterMap_cons_some hcreate, List.map_cons, List.mem_cons] at h
      apply ih (jar.setCookie c) hok
      rw [mem_keys_setCookie]
      rcases h with hjar | hc | hrest
      · exact .inl (.inr hjar)
      · exact .inl (.inl hc)
      · exact .inr hrest

/-- Imported cookies are made by their constructor. -/
theorem made_setCookies (hlower : ∀ text, lower (lower text) = lower text)
    (cookies : List (Cookie ρ)) (jar : CookieJar ρ) (h : jar.Made lower) :
    (jar.setCookies lower cookies).1.Made lower := by
  induction cookies generalizing jar with
  | nil => exact h
  | cons data rest ih =>
    rw [setCookies]
    cases hcreate : data.create lower with
    | none => exact h
    | some c => exact ih _ (h.setCookie (Cookie.create_idem hlower hcreate))

end CookieJar

end ScrapyCffi.Sessions
