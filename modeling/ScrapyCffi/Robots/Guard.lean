import Mathlib.Logic.Function.Basic
import ScrapyCffi.Robots.Rules

/-!
# What the spiders may request

`RobotsManager` (`utils/robot.py:66–141`), `utils/domain.py:9–52` and the checks of
`RobotSpiderInterceptor.process_spider_output` (`interceptors/spiders.py:192–234`), for URLs that
`urlparse` takes. The crawler loads the rules once, for the robots URLs of its spiders
(`crawler.py:244–254`), and the downloads end in any order.
-/

namespace ScrapyCffi.Robots

/-- What the code takes from the interpreter: `str.lower`, and `urlparse(url).hostname` and
`urlparse(url).path`. -/
structure UrlParser where
  lower : Text → Text
  hostname : Text → Option Text
  path : Text → Text

variable (py : UrlParser)

/-! ### Domains -/

/-- `host.lower() if host else None`, `hostname_from_url`, `domain.py:9–11`. -/
def hostnameFromUrl (url : Text) : Option Text :=
  ((py.hostname url).filter fun host ↦ host ≠ []).map py.lower

/-- `hostname_from_allowed`, `domain.py:14–27`. -/
def hostnameFromAllowed (entry : Text) : Text :=
  let entry := py.lower (strip entry)
  if entry = [] then []
  else
    let url := if "://".toList <:+: entry then entry else "http://".toList ++ entry
    py.lower (((py.hostname url).filter fun host ↦ host ≠ []).getD (entry.takeWhile (· ≠ ':')))

/-- `url_is_from_allowed_domains`, `domain.py:30–45`. -/
def urlIsFromAllowedDomains (url : Text) (allowedDomains : List Text) : Bool :=
  if allowedDomains = [] then true
  else
    match hostnameFromUrl py url with
    | none | some [] => false
    | some host => allowedDomains.any fun entry ↦
      let allowed := hostnameFromAllowed py entry
      allowed ≠ [] ∧ (host = allowed ∨ ('.' :: allowed) <:+ host)

/-- `robots_txt_url`, `domain.py:48–56`. -/
def robotsTxtUrl (scheme allowedEntry : Text) : Text :=
  let entry := strip allowedEntry
  if entry = [] then scheme ++ "://localhost/robots.txt".toList
  else if "://".toList <:+: entry then entry.rdropWhile (· = '/') ++ "/robots.txt".toList
  else scheme ++ "://".toList ++ entry ++ "/robots.txt".toList

/-- `robot_urls`, from `robot_scheme` and `allowed_domains` of each spider, `crawler.py:246–252`. -/
def robotUrls (spiders : List (Text × List Text)) : List Text :=
  (spiders.flatMap fun spider ↦ spider.2.map (robotsTxtUrl (py.lower spider.1))).dedup

/-! ### The rules of the hosts -/

/-- How the download of a robots URL ends. -/
inductive Download
  | raised
  | response (statusCode : Nat) (text : Text)

/-- `_rules_cache`. -/
abbrev RulesCache := Option Text → Option (List Rule)

/-- The rules that `_load_single` keeps, `robot.py:110–133`. -/
def downloadedRules (userAgent : Text) : Download → List Rule
  | .raised => [(.disallow, ['/'])]
  | .response statusCode text =>
    if statusCode = 200 then parseRobotsTxt py.lower text userAgent else []

/-- `_load_single` ends, `robot.py:135–136`. -/
def loadSingle (userAgent : Text) (cache : RulesCache) (load : Text × Download) : RulesCache :=
  Function.update cache (py.hostname load.1) (some (downloadedRules py userAgent load.2))

/-- The URLs that `load_rules_for_hosts` downloads, `robot.py:99–106`. -/
def loadRulesForHosts (cache : RulesCache) (urls : List Text) : List Text :=
  urls.filter fun url ↦ (cache (py.hostname url)).isNone

/-- `RobotsManager.is_allowed`, `robot.py:138–141`. -/
def managerIsAllowed (cache : RulesCache) (url : Text) : Bool :=
  match cache (py.hostname url) with
  | some rules => isAllowed rules (py.path url)
  | none => true

/-! ### The interceptor -/

/-- What `process_spider_output` returns for a request: the request, or an error that names why. -/
inductive Verdict
  | passed
  | filteredDomain
  | blocked
  deriving DecidableEq

/-- `process_spider_output` for a request with a URL, `spiders.py:216–234`. -/
def processSpiderOutput (cache : RulesCache) (allowedDomains : List Text) (robotstxtObey : Bool)
    (isStartUrl : Bool) (url : Text) : Verdict :=
  if isStartUrl then .passed
  else if urlIsFromAllowedDomains py url allowedDomains = false then .filteredDomain
  else if robotstxtObey ∧ managerIsAllowed py cache url = false then .blocked
  else .passed

/-! ### What is allowed -/

/-- A URL is on an allowed host, or below one; every URL is where no host is named. -/
def OnAllowedDomain (url : Text) (allowedDomains : List Text) : Prop :=
  allowedDomains = [] ∨ ∃ host entry, hostnameFromUrl py url = some host ∧ host ≠ [] ∧
    entry ∈ allowedDomains ∧ hostnameFromAllowed py entry ≠ [] ∧
      (host = hostnameFromAllowed py entry ∨
        ∃ sub, host = sub ++ '.' :: hostnameFromAllowed py entry)

/-- A download of rules for a host behind which none for the host ends. -/
def LastFor (host : Option Text) (loads : List (Text × Download)) (load : Text × Download) : Prop :=
  ∃ before after, loads = before ++ load :: after ∧ py.hostname load.1 = host ∧
    ∀ later ∈ after, py.hostname later.1 ≠ host

variable {py} {url userAgent : Text} {allowedDomains : List Text} {cache : RulesCache}
  {loads : List (Text × Download)} {host : Option Text}

theorem urlIsFromAllowedDomains_iff :
    urlIsFromAllowedDomains py url allowedDomains = true ↔
      OnAllowedDomain py url allowedDomains := by
  rw [urlIsFromAllowedDomains, OnAllowedDomain]
  by_cases hnone : allowedDomains = []
  · simp [hnone]
  · rw [if_neg hnone]
    cases hhost : hostnameFromUrl py url with
    | none => simp [hnone]
    | some host =>
      cases host with
      | nil => simp [hnone]
      | cons c rest =>
        simp only [List.any_eq_true, decide_eq_true_eq, hnone, false_or]
        constructor
        · rintro ⟨entry, hentry, hne, hmatch⟩
          refine ⟨_, entry, rfl, List.cons_ne_nil _ _, hentry, hne, ?_⟩
          apply hmatch.imp_right
          rintro ⟨sub, hsub⟩
          exact ⟨sub, hsub.symm⟩
        · rintro ⟨host, entry, hsame, -, hentry, hne, hmatch⟩
          cases hsame
          refine ⟨entry, hentry, hne, ?_⟩
          apply hmatch.imp_right
          rintro ⟨sub, hsub⟩
          exact ⟨sub, hsub.symm⟩

/-- Downloads for other hosts leave the rules of a host. -/
theorem foldl_loadSingle_of_ne (h : ∀ load ∈ loads, py.hostname load.1 ≠ host) :
    loads.foldl (loadSingle py userAgent) cache host = cache host := by
  induction loads generalizing cache with
  | nil => rfl
  | cons load rest ih =>
    obtain ⟨hload, hrest⟩ := List.forall_mem_cons.mp h
    rw [List.foldl_cons, ih hrest, loadSingle, Function.update_of_ne (Ne.symm hload)]

/-- The rules of a host are those of the download that ended last. -/
theorem foldl_loadSingle_of_last {load : Text × Download} (h : LastFor py host loads load) :
    loads.foldl (loadSingle py userAgent) cache host =
      some (downloadedRules py userAgent load.2) := by
  obtain ⟨before, after, rfl, rfl, hafter⟩ := h
  rw [List.foldl_append, List.foldl_cons, foldl_loadSingle_of_ne hafter, loadSingle,
    Function.update_self]

/-- Rules of a host were downloaded, or not. -/
theorem exists_lastFor (py : UrlParser) (host : Option Text) (loads : List (Text × Download)) :
    (∀ load ∈ loads, py.hostname load.1 ≠ host) ∨ ∃ load, LastFor py host loads load := by
  induction loads with
  | nil => exact .inl fun load hload ↦ absurd hload List.not_mem_nil
  | cons first rest ih =>
    rcases ih with hnone | ⟨load, before, after, rfl, hhost, hafter⟩
    · by_cases hfirst : py.hostname first.1 = host
      · exact .inr ⟨first, [], rest, rfl, hfirst, hnone⟩
      · exact .inl (List.forall_mem_cons.mpr ⟨hfirst, hnone⟩)
    · exact .inr ⟨load, first :: before, after, rfl, hhost, hafter⟩

/-- What the manager allows once the rules are loaded. -/
theorem managerIsAllowed_iff {urls : List Text}
    (hloads : (loads.map Prod.fst).Perm (loadRulesForHosts py (fun _ ↦ none) urls)) :
    managerIsAllowed py (loads.foldl (loadSingle py userAgent) fun _ ↦ none) url = true ↔
      (∀ robotUrl ∈ urls, py.hostname robotUrl ≠ py.hostname url) ∨
        ∃ load, LastFor py (py.hostname url) loads load ∧
          isAllowed (downloadedRules py userAgent load.2) (py.path url) = true := by
  have hmem : ∀ robotUrl, robotUrl ∈ urls ↔ ∃ load ∈ loads, load.1 = robotUrl := by
    intro robotUrl
    rw [← List.mem_map, hloads.mem_iff, loadRulesForHosts, List.mem_filter]
    exact (and_iff_left rfl).symm
  rw [managerIsAllowed]
  rcases exists_lastFor py (py.hostname url) loads with hnone | ⟨load, hlast⟩
  · rw [foldl_loadSingle_of_ne hnone]
    apply iff_of_true rfl
    left
    intro robotUrl hurl
    obtain ⟨load, hload, rfl⟩ := (hmem robotUrl).mp hurl
    exact hnone load hload
  · rw [foldl_loadSingle_of_last hlast]
    dsimp only
    constructor
    · exact fun h ↦ .inr ⟨load, hlast, h⟩
    · rintro (hnone | ⟨other, hother, h⟩)
      · obtain ⟨before, after, rfl, hhost, -⟩ := hlast
        have hin : load ∈ before ++ load :: after := List.mem_append_right _ List.mem_cons_self
        exact absurd hhost (hnone load.1 ((hmem load.1).mpr ⟨load, hin, rfl⟩))
      · have hsame : some (downloadedRules py userAgent load.2) =
            some (downloadedRules py userAgent other.2) :=
          (foldl_loadSingle_of_last hlast).symm.trans
            (@foldl_loadSingle_of_last _ _ (fun _ ↦ none) _ _ _ hother)
        rw [Option.some.inj hsame]
        exact h

/-- A request passes by what the two checks say. -/
theorem processSpiderOutput_eq_passed (robotstxtObey isStartUrl : Bool) :
    processSpiderOutput py cache allowedDomains robotstxtObey isStartUrl url = .passed ↔
      isStartUrl = true ∨ urlIsFromAllowedDomains py url allowedDomains = true ∧
        (robotstxtObey = true → managerIsAllowed py cache url = true) := by
  rw [processSpiderOutput]
  cases isStartUrl with
  | true => simp
  | false =>
    cases urlIsFromAllowedDomains py url allowedDomains with
    | false => simp
    | true =>
      cases robotstxtObey with
      | false => simp
      | true =>
        cases managerIsAllowed py cache url with
        | false => simp
        | true => simp

/-- ASCII letters and URLs of a scheme, a host and a path. -/
def plainParser : UrlParser where
  lower text := text.map Char.toLower
  hostname url := some (((url.dropWhile (· ≠ '/')).drop 2).takeWhile (· ≠ '/'))
  path url := ((url.dropWhile (· ≠ '/')).drop 2).dropWhile (· ≠ '/')

end ScrapyCffi.Robots
