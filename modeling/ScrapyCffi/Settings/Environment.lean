import ScrapyCffi.Base.NestedMap
import ScrapyCffi.Robots.Rules

/-!
# The environment overlay

`_parse_env_value`, `_set_nested` and `_environment_overlay` (`utils/envConfig.py:114–174`). A text
is the list of its characters; what the interpreter knows of letters and `json.loads`, which reads
a text or raises `JSONDecodeError`, are parameters, and so are the numbers that it reads.
-/

namespace ScrapyCffi.Settings

open ScrapyCffi.Base ScrapyCffi.Robots

/-- A value that is neither a list nor a dictionary. -/
inductive Scalar (ν : Type)
  | none
  | bool (b : Bool)
  | number (n : ν)
  | str (s : Text)
  deriving DecidableEq

/-- A value of an environment variable. -/
inductive EnvValue (ν : Type)
  | scalar (s : Scalar ν)
  | list (items : List (EnvValue ν))
  | dict (entries : List (Text × EnvValue ν))

/-- What the code takes from the interpreter. -/
structure Interpreter (ν : Type) where
  isAlpha : Char → Bool
  upper : Text → Text
  loads : Text → Option (EnvValue ν)

/-- The keyword arguments of `_environment_overlay`. -/
structure OverlayOptions where
  namePrefix : Text
  acceptLegacyNames : Bool
  allowedRoots : Option (List Text)

variable {ν : Type} (py : Interpreter ν) (options : OverlayOptions)

/-- `_parse_env_value`, `envConfig.py:114–126`. -/
def parseEnvValue (value : Text) : EnvValue ν :=
  let stripped := strip value
  match stripped with
  | [] => .scalar (.str [])
  | c :: _ =>
    if c = '{' ∨ c = '[' then (py.loads stripped).getD (.scalar (.str stripped))
    else if stripped = "null".toList then .scalar .none
    else .scalar (.str stripped)

/-- `current.get(key)`, when it is a dictionary, or else a new one. -/
def nestedEntries : Option (EnvValue ν) → List (Text × EnvValue ν)
  | some (.dict entries) => entries
  | _ => []

/-- `_set_nested`, `envConfig.py:139–148`. -/
def setNested (target : List (Text × EnvValue ν)) (value : EnvValue ν) :
    List Text → List (Text × EnvValue ν)
  | [] => target
  | [key] => Dict.assign key value target
  | key :: next :: rest =>
    Dict.assign key (.dict (setNested (nestedEntries (Dict.lookup key target)) value
      (next :: rest))) target

/-- `key.split("__")`. -/
def splitKey : Text → List Text
  | [] => [[]]
  | '_' :: '_' :: rest => [] :: splitKey rest
  | c :: rest =>
    match splitKey rest with
    | [] => [[c]]
    | part :: parts => (c :: part) :: parts

/-- The key behind the prefix, or the whole one where these are accepted. -/
def unprefixed (rawKey : Text) : Option Text :=
  if options.namePrefix <+: rawKey then some (rawKey.drop options.namePrefix.length)
  else if options.acceptLegacyNames then some rawKey
  else none

/-- The path of a variable that is a setting. -/
def envPath (rawKey : Text) : Option (List Text) :=
  match unprefixed options rawKey with
  | none | some [] => none
  | some (c :: rest) =>
    let path := ((splitKey (c :: rest)).filter (· ≠ [])).map py.upper
    if py.isAlpha c = false then none
    else
      match path, options.allowedRoots with
      | [], _ => none
      | root :: _, some roots => if roots.contains root then some path else none
      | _ :: _, none => some path

/-- The path and the value of an entry of the mapping, if it is a setting. -/
def envVariable (entry : Text × Option Text) : Option (List Text × EnvValue ν) :=
  match entry.2, envPath py options entry.1 with
  | some rawValue, some path => some (path, parseEnvValue py rawValue)
  | _, _ => none

/-- `_environment_overlay`, `envConfig.py:151–174`. -/
def environmentOverlay (values : Dict Text (Option Text)) : List (Text × EnvValue ν) :=
  values.entries.foldl (fun overlay entry ↦
    match envVariable py options entry with
    | some (path, value) => setNested overlay value path
    | none => overlay) []

/-! ## Dictionaries without order -/

mutual

/-- A value as `==` compares it: the entries of dictionaries have no order. -/
def EnvValue.tree : EnvValue ν → Tree Text (Scalar ν)
  | .scalar s => .leaf s
  | .list items => .list (itemTrees items)
  | .dict entries => .node (entryTrees entries)
  termination_by structural v => v

/-- The items of a list. -/
def itemTrees : List (EnvValue ν) → List (Tree Text (Scalar ν))
  | [] => []
  | item :: rest => item.tree :: itemTrees rest
  termination_by structural l => l

/-- The entries of a dictionary. -/
def entryTrees : List (Text × EnvValue ν) → Text → Option (Tree Text (Scalar ν))
  | [], _ => none
  | (key, value) :: rest, name => if key = name then some value.tree else entryTrees rest name
  termination_by structural l => l

end

variable {py options}

/-- A key is looked up. -/
theorem entryTrees_eq (entries : List (Text × EnvValue ν)) (name : Text) :
    entryTrees entries name = (Dict.lookup name entries).map EnvValue.tree := by
  induction entries with
  | nil => rfl
  | cons entry rest ih =>
    obtain ⟨key, value⟩ := entry
    rw [entryTrees, Dict.lookup, ih]
    split <;> rfl

/-- A key is assigned. -/
theorem entryTrees_assign (key : Text) (value : EnvValue ν) (entries : List (Text × EnvValue ν)) :
    entryTrees (Dict.assign key value entries) =
      Function.update (entryTrees entries) key (some value.tree) := by
  funext name
  rw [entryTrees_eq, Dict.lookup_assign, Function.update_apply, entryTrees_eq]
  by_cases hname : name = key
  · rw [if_pos hname, if_pos hname, Option.map_some]
  · rw [if_neg hname, if_neg hname]

/-- The dictionary under a key, or a new one. -/
theorem entryTrees_nestedEntries (value : Option (EnvValue ν)) :
    entryTrees (nestedEntries value) = Tree.children (value.map EnvValue.tree) := by
  rcases value with _ | ⟨_ | _ | _⟩ <;> rfl

/-- `_set_nested` puts the value at its path. -/
theorem entryTrees_setNested (target : List (Text × EnvValue ν)) (value : EnvValue ν)
    (path : List Text) :
    entryTrees (setNested target value path) = value.tree.put path (entryTrees target) := by
  induction path generalizing target with
  | nil => rfl
  | cons key rest ih =>
    cases rest with
    | nil => exact entryTrees_assign key value target
    | cons next rest =>
      rw [setNested, entryTrees_assign, EnvValue.tree, ih, entryTrees_nestedEntries,
        ← entryTrees_eq]
      rfl

/-- The paths of variables have a part. -/
theorem envPath_ne_nil {rawKey : Text} {path : List Text}
    (h : envPath py options rawKey = some path) : path ≠ [] := by
  unfold envPath at h
  split at h
  · cases h
  · cases h
  · next c rest =>
    dsimp only at h
    split at h
    · cases h
    · split at h
      · cases h
      · next root parts roots hpath hroots =>
        split at h
        · cases h
          rw [hpath]
          exact List.cons_ne_nil _ _
        · cases h
      · next root parts hpath hroots =>
        cases h
        rw [hpath]
        exact List.cons_ne_nil _ _

/-! ## The order of the variables -/

variable (py options)

/-- The variables of the mapping that are settings, with their paths. -/
def envVariables (values : Dict Text (Option Text)) : List (List Text × EnvValue ν) :=
  values.entries.filterMap (envVariable py options)

/-- The overlay is the same for every order of the mapping. -/
def OrderIndependent (values : Dict Text (Option Text)) : Prop :=
  ∀ others : Dict Text (Option Text), others.entries.Perm values.entries →
    entryTrees (environmentOverlay py options others) =
      entryTrees (environmentOverlay py options values)

/-- The overlay has every value at its path; a dictionary may have got more keys there. -/
def KeepsValues (values : Dict Text (Option Text)) : Prop :=
  ∀ p ∈ envVariables py options values, ∃ found,
    Tree.find p.1 (.node (entryTrees (environmentOverlay py options values))) = some found ∧
      found.Keeps p.2.tree

/-- Where the path of a variable goes on from that of another one, the other one's value has the
variable's value at that place already. -/
def NoConflicts (values : Dict Text (Option Text)) : Prop :=
  ∀ p ∈ envVariables py options values, ∀ q ∈ envVariables py options values, ∀ rest ≠ [],
    q.1 = p.1 ++ rest → Tree.find rest p.2.tree = some q.2.tree

variable {py options} {values : Dict Text (Option Text)}

/-- The values of the variables are put at their paths one after the other. -/
theorem entryTrees_environmentOverlay (values : Dict Text (Option Text)) :
    entryTrees (environmentOverlay py options values) = Tree.putAll (fun _ ↦ none)
      ((envVariables py options values).map fun p ↦ (p.1, p.2.tree)) := by
  have hfold : ∀ (entries : List (Text × Option Text)) (overlay : List (Text × EnvValue ν)),
      entryTrees (entries.foldl (fun overlay entry ↦
        match envVariable py options entry with
        | some (path, value) => setNested overlay value path
        | none => overlay) overlay) = Tree.putAll (entryTrees overlay)
          ((entries.filterMap (envVariable py options)).map fun p ↦ (p.1, p.2.tree)) := by
    intro entries
    induction entries with
    | nil => exact fun _ ↦ rfl
    | cons entry rest ih =>
      intro overlay
      rw [List.foldl_cons, ih]
      cases hvariable : envVariable py options entry with
      | none => rw [List.filterMap_cons_none hvariable]
      | some p =>
        rw [List.filterMap_cons_some hvariable, List.map_cons, Tree.putAll, Tree.putAll,
          List.foldl_cons, entryTrees_setNested]
  exact hfold values.entries []

/-- The path of a variable has a part. -/
theorem path_ne_nil {p : List Text × EnvValue ν} (h : p ∈ envVariables py options values) :
    p.1 ≠ [] := by
  obtain ⟨entry, -, hentry⟩ := List.mem_filterMap.mp h
  unfold envVariable at hentry
  split at hentry
  · next hvalue hpath =>
    cases hentry
    exact envPath_ne_nil hpath
  · cases hentry

/-- Variables do not conflict where their values can be put in any order. -/
theorem noConflicts_iff : NoConflicts py options values ↔
    Tree.Compatible ((envVariables py options values).map fun p ↦ (p.1, p.2.tree)) := by
  simp only [NoConflicts, Tree.Compatible, List.forall_mem_map]

/-- In some order of the mapping, a variable comes last. -/
theorem find_of_orderIndependent (h : OrderIndependent py options values)
    {p : List Text × EnvValue ν} (hp : p ∈ envVariables py options values) :
    Tree.find p.1 (.node (entryTrees (environmentOverlay py options values))) =
      some p.2.tree := by
  obtain ⟨entry, hentry, hvariable⟩ := List.mem_filterMap.mp hp
  obtain ⟨before, after, hsplit⟩ := List.append_of_mem hentry
  have hperm : (before ++ after ++ [entry]).Perm values.entries := by
    have hcomm : (after ++ [entry]).Perm ([entry] ++ after) := List.perm_append_comm
    rw [hsplit, List.append_assoc]
    exact hcomm.append_left before
  have hnodup : ((before ++ after ++ [entry]).map Prod.fst).Nodup :=
    (hperm.map Prod.fst).nodup_iff.mpr values.nodup
  rw [← h ⟨before ++ after ++ [entry], hnodup⟩ hperm, entryTrees_environmentOverlay,
    envVariables, List.filterMap_append, List.filterMap_cons_some hvariable, List.filterMap_nil,
    List.map_append]
  exact Tree.find_putAll_append p.1 (path_ne_nil hp)

/-- The overlay has no order and loses nothing, exactly when no variable has a conflict. -/
theorem overlay_order_iff
    (hdistinct : ((envVariables py options values).map Prod.fst).Nodup) :
    (OrderIndependent py options values ∧ KeepsValues py options values) ↔
      NoConflicts py options values := by
  constructor
  · rintro ⟨horder, -⟩
    rw [noConflicts_iff]
    apply Tree.compatible_of_find (m := entryTrees (environmentOverlay py options values))
    intro p hp
    obtain ⟨q, hq, rfl⟩ := List.mem_map.mp hp
    exact find_of_orderIndependent horder hq
  · intro h
    have hne : ∀ p ∈ (envVariables py options values).map fun p ↦ (p.1, p.2.tree), p.1 ≠ [] := by
      intro p hp
      obtain ⟨q, hq, rfl⟩ := List.mem_map.mp hp
      exact path_ne_nil hq
    have hpaths : (((envVariables py options values).map fun p ↦ (p.1, p.2.tree)).map
        Prod.fst).Nodup := by
      rw [List.map_map]
      exact hdistinct
    have horder : OrderIndependent py options values := by
      intro others hperm
      rw [entryTrees_environmentOverlay, entryTrees_environmentOverlay]
      apply (noConflicts_iff.mp h).putAll_perm hne hpaths
      exact (hperm.filterMap _).map _
    refine ⟨horder, fun p hp ↦ ?_⟩
    exact ⟨p.2.tree, find_of_orderIndependent horder hp, .refl _⟩

/-- A text that is neither JSON nor `null` is itself. -/
theorem parseEnvValue_text (value : Text) (hstrip : strip value = value)
    (hjson : value.head?.any (fun c ↦ c = '\x7b' ∨ c = '[') = false)
    (hnull : value ≠ "null".toList) : parseEnvValue py value = .scalar (.str value) := by
  unfold parseEnvValue
  rw [hstrip]
  cases value with
  | nil => rfl
  | cons c rest =>
    have hc : ¬ (c = '\x7b' ∨ c = '[') := by simpa using hjson
    dsimp only
    rw [if_neg hc, if_neg hnull]

/-- ASCII letters, and `json.loads` of one text. -/
def asciiInterpreter : Interpreter Nat where
  isAlpha c := c.isAlpha
  upper text := text.map Char.toUpper
  loads text :=
    if text = "\x7b\"URL\": \"redis://a\"\x7d".toList then
      some (.dict [("URL".toList, .scalar (.str "redis://a".toList))])
    else none

/-- Variables are read without their prefix, for two settings. -/
def processOptions : OverlayOptions where
  namePrefix := "SCRAPY_CFFI_".toList
  acceptLegacyNames := true
  allowedRoots := some ["TIMEOUT".toList, "REDIS_INFO".toList]

/-- A setting and a field of another one. -/
def fieldValues : Dict Text (Option Text) where
  entries := [("TIMEOUT".toList, some "45".toList),
    ("REDIS_INFO__URL".toList, some "redis://a".toList)]
  nodup := by decide

theorem overlay_order_fieldValues :
    OrderIndependent asciiInterpreter processOptions fieldValues ∧
      KeepsValues asciiInterpreter processOptions fieldValues := by
  have htimeout : envPath asciiInterpreter processOptions "TIMEOUT".toList =
      some ["TIMEOUT".toList] := by decide
  have hurl : envPath asciiInterpreter processOptions "REDIS_INFO__URL".toList =
      some ["REDIS_INFO".toList, "URL".toList] := by decide
  have hvariables : envVariables asciiInterpreter processOptions fieldValues =
      [(["TIMEOUT".toList], .scalar (.str "45".toList)),
        (["REDIS_INFO".toList, "URL".toList], .scalar (.str "redis://a".toList))] := by
    simp only [envVariables, fieldValues, List.filterMap_cons, List.filterMap_nil, envVariable,
      htimeout, hurl]
    rw [parseEnvValue_text _ (by decide) (by decide) (by decide),
      parseEnvValue_text _ (by decide) (by decide) (by decide)]
  apply (overlay_order_iff (by rw [hvariables]; decide)).mpr
  intro p hp q hq rest hrest hpath
  rw [hvariables] at hp hq
  simp only [List.mem_cons, List.not_mem_nil, or_false] at hp hq
  rcases hp with rfl | rfl <;> rcases hq with rfl | rfl <;> simp_all

/-- A whole section and a field that it leaves out. -/
def sectionValues : Dict Text (Option Text) where
  entries := [("REDIS_INFO".toList, some "\x7b\"URL\": \"redis://a\"\x7d".toList),
    ("REDIS_INFO__PASSWORD".toList, some "secret".toList)]
  nodup := by decide

/-- The section takes the place of the field when it comes last. -/
theorem section_drops_field :
    ¬ ∀ (py : Interpreter Nat) (options : OverlayOptions) (values : Dict Text (Option Text)),
      ((envVariables py options values).map Prod.fst).Nodup →
      OrderIndependent py options values ∧ KeepsValues py options values := by
  intro hall
  have hsection : envPath asciiInterpreter processOptions "REDIS_INFO".toList =
      some ["REDIS_INFO".toList] := by decide
  have hpassword : envPath asciiInterpreter processOptions "REDIS_INFO__PASSWORD".toList =
      some ["REDIS_INFO".toList, "PASSWORD".toList] := by decide
  have hstrip : strip "\x7b\"URL\": \"redis://a\"\x7d".toList =
      "\x7b\"URL\": \"redis://a\"\x7d".toList := by decide
  have hvariables : envVariables asciiInterpreter processOptions sectionValues =
      [(["REDIS_INFO".toList], .dict [("URL".toList, .scalar (.str "redis://a".toList))]),
        (["REDIS_INFO".toList, "PASSWORD".toList], .scalar (.str "secret".toList))] := by
    simp only [envVariables, sectionValues, List.filterMap_cons, List.filterMap_nil, envVariable,
      hsection, hpassword]
    rw [parseEnvValue_text "secret".toList (by decide) (by decide) (by decide)]
    simp only [parseEnvValue, hstrip, asciiInterpreter]
    rfl
  have horder := (hall asciiInterpreter processOptions sectionValues
    (by rw [hvariables]; decide)).1
  have hwhole := find_of_orderIndependent horder
    (by rw [hvariables]; exact List.mem_cons_self)
  have hfield := find_of_orderIndependent horder
    (by rw [hvariables]; exact List.mem_cons_of_mem _ List.mem_cons_self)
  have hbelow := Tree.find_append ["REDIS_INFO".toList] ["PASSWORD".toList]
    (.node (entryTrees (environmentOverlay asciiInterpreter processOptions sectionValues)))
  rw [hwhole] at hbelow
  cases hbelow.symm.trans hfield

end ScrapyCffi.Settings
