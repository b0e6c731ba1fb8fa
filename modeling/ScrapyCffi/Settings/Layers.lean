import ScrapyCffi.Base.Merge
import ScrapyCffi.Settings.Environment

/-!
# The layers of the settings

`_deep_merge` and `load_env_settings` (`utils/envConfig.py:130–137,198–266`), up to the data that
are validated. Dictionaries are compared as `==` compares them, and what a default holds beside
texts, lists and dictionaries counts among the numbers. The dictionaries of the defaults that the
code updates in place are not shared here.
-/

namespace ScrapyCffi.Settings

open ScrapyCffi.Base ScrapyCffi.Robots

/-- A dictionary of settings. -/
abbrev Data (ν : Type) := Text → Option (Tree Text (Scalar ν))

variable {ν : Type}

/-- `_deep_merge`, `envConfig.py:130–137`. -/
def deepMerge (base overlay : Data ν) : Data ν := Tree.mergeMaps base overlay

theorem nodup_filter (values : Dict Text (Option Text)) (keep : Text × Option Text → Bool) :
    ((values.entries.filter keep).map Prod.fst).Nodup :=
  values.nodup.sublist (List.filter_sublist.map _)

/-- `{key: value for key, value in values.items() if not key.startswith(env_prefix)}`. -/
def direct (lead : Text) (values : Dict Text (Option Text)) : Dict Text (Option Text) :=
  ⟨values.entries.filter fun entry ↦ ¬lead <+: entry.1, nodup_filter values _⟩

/-- The calls of `_environment_overlay` in their order, `envConfig.py:215–264`. -/
def layers (lead : Text) (fields : List Text) (dotenv process : Dict Text (Option Text)) :
    List (OverlayOptions × Dict Text (Option Text)) :=
  [(⟨lead, false, some fields⟩, dotenv),
    (⟨lead, true, some fields⟩, direct lead dotenv),
    (⟨lead, false, some fields⟩, process),
    (⟨lead, true, some fields⟩, direct lead process)]

variable (py : Interpreter ν)

/-- One layer is merged into the data. -/
def applyLayer (data : Data ν) (layer : OverlayOptions × Dict Text (Option Text)) : Data ν :=
  deepMerge data (entryTrees (environmentOverlay py layer.1 layer.2))

/-- `load_env_settings`, `envConfig.py:198–265`, from the data of the defaults, the entries of the
dotenv file and those of the environment. -/
def loadEnvSettings (defaults : Data ν) (lead : Text) (fields : List Text)
    (dotenv process : Dict Text (Option Text)) : Data ν :=
  (layers lead fields dotenv process).foldl (applyLayer py) defaults

/-! ### One layer -/

variable {py} {data defaults : Data ν} {path : List Text} {lead : Text} {fields : List Text}
  {dotenv process : Dict Text (Option Text)} {options : OverlayOptions}
  {values : Dict Text (Option Text)}

/-- A layer changes nothing at the paths apart from those of its variables. -/
theorem find_applyLayer_of_apart (hne : path ≠ [])
    (h : ∀ q ∈ envVariables py options values, Tree.Apart path q.1) :
    Tree.find path (.node (applyLayer py data (options, values))) =
      Tree.find path (.node data) := by
  rw [applyLayer, deepMerge, ← Tree.merge_node]
  apply Tree.find_merge_of_free
  rw [entryTrees_environmentOverlay]
  apply Tree.free_putAll hne
  intro q hq
  obtain ⟨p, hp, rfl⟩ := List.mem_map.mp hq
  exact h p hp

/-- The last of the variables along a path stands there. -/
theorem find_applyLayer {p : List Text × EnvValue ν} {before after : List (List Text × EnvValue ν)}
    (hvariables : envVariables py options values = before ++ p :: after)
    (hafter : ∀ q ∈ after, Tree.Apart p.1 q.1) :
    ∃ found, Tree.find p.1 (.node (applyLayer py data (options, values))) = some found ∧
      found.Keeps p.2.tree := by
  have hmem : p ∈ envVariables py options values := by
    rw [hvariables]
    exact List.mem_append_right _ List.mem_cons_self
  have hoverlay : Tree.find p.1 (.node (entryTrees (environmentOverlay py options values))) =
      some p.2.tree := by
    rw [entryTrees_environmentOverlay, hvariables, List.map_append, List.map_cons]
    apply Tree.find_putAll_of_last (p := (p.1, p.2.tree)) (path_ne_nil hmem)
    intro q hq
    obtain ⟨other, hother, rfl⟩ := List.mem_map.mp hq
    exact hafter other hother
  exact Tree.find_merge hoverlay (.node data)

/-- Layers change nothing at the paths apart from those of their variables. -/
theorem find_foldl_applyLayer (hne : path ≠ [])
    {rest : List (OverlayOptions × Dict Text (Option Text))}
    (h : ∀ layer ∈ rest, ∀ q ∈ envVariables py layer.1 layer.2, Tree.Apart path q.1) :
    Tree.find path (.node (rest.foldl (applyLayer py) data)) = Tree.find path (.node data) := by
  induction rest generalizing data with
  | nil => rfl
  | cons layer rest ih =>
    obtain ⟨hlayer, hrest⟩ := List.forall_mem_cons.mp h
    rw [List.foldl_cons, ih hrest, find_applyLayer_of_apart hne hlayer]

/-! ### All layers -/

/-- The environment in the place of the dotenv file, and a direct name in the place of one with the
prefix: what is loaded has, at the path of a variable, the value of the last variable along it. A
dictionary may have got more keys from the others. -/
theorem find_loadEnvSettings {before after : List (OverlayOptions × Dict Text (Option Text))}
    {p : List Text × EnvValue ν} {first rest : List (List Text × EnvValue ν)}
    (hlayers : layers lead fields dotenv process = before ++ (options, values) :: after)
    (hvariables : envVariables py options values = first ++ p :: rest)
    (hrest : ∀ q ∈ rest, Tree.Apart p.1 q.1)
    (hafter : ∀ layer ∈ after, ∀ q ∈ envVariables py layer.1 layer.2, Tree.Apart p.1 q.1) :
    ∃ found, Tree.find p.1 (.node (loadEnvSettings py defaults lead fields dotenv process)) =
        some found ∧ found.Keeps p.2.tree := by
  have hmem : p ∈ envVariables py options values := by
    rw [hvariables]
    exact List.mem_append_right _ List.mem_cons_self
  rw [loadEnvSettings, hlayers, List.foldl_append, List.foldl_cons,
    find_foldl_applyLayer (path_ne_nil hmem) hafter]
  exact find_applyLayer hvariables hrest

/-- One variable with the prefix. -/
def timeoutValues : Dict Text (Option Text) :=
  ⟨[("SCRAPY_CFFI_TIMEOUT".toList, some "5".toList)], List.nodup_singleton _⟩

theorem envPath_timeout (acceptLegacyNames : Bool) : envPath asciiInterpreter
    ⟨"SCRAPY_CFFI_".toList, acceptLegacyNames, some ["TIMEOUT".toList, "REDIS_INFO".toList]⟩
      "SCRAPY_CFFI_TIMEOUT".toList = some ["TIMEOUT".toList] := by
  cases acceptLegacyNames <;> decide

theorem direct_timeoutValues :
    (direct "SCRAPY_CFFI_".toList timeoutValues).entries = [] := by decide

theorem envVariables_timeout : envVariables asciiInterpreter
    ⟨"SCRAPY_CFFI_".toList, false, some ["TIMEOUT".toList, "REDIS_INFO".toList]⟩ timeoutValues =
      [(["TIMEOUT".toList], .scalar (.str "5".toList))] := by
  simp only [envVariables, timeoutValues, List.filterMap_cons, List.filterMap_nil, envVariable,
    envPath_timeout]
  rw [parseEnvValue_text _ (by decide) (by decide) (by decide)]

theorem find_loadEnvSettings_timeout :
    ∃ found, Tree.find ["TIMEOUT".toList] (.node (loadEnvSettings asciiInterpreter (fun _ ↦ none)
      "SCRAPY_CFFI_".toList ["TIMEOUT".toList, "REDIS_INFO".toList] fieldValues timeoutValues)) =
        some found ∧ found.Keeps (.leaf (.str "5".toList)) := by
  have hlayers : layers "SCRAPY_CFFI_".toList ["TIMEOUT".toList, "REDIS_INFO".toList] fieldValues
      timeoutValues = [_, _] ++ (_, timeoutValues) :: [_] := rfl
  have hlast : ∀ layer ∈ [((⟨"SCRAPY_CFFI_".toList, true,
      some ["TIMEOUT".toList, "REDIS_INFO".toList]⟩ : OverlayOptions),
        direct "SCRAPY_CFFI_".toList timeoutValues)],
      ∀ q ∈ envVariables asciiInterpreter layer.1 layer.2,
        Tree.Apart ["TIMEOUT".toList] q.1 := by
    intro layer hlayer q hq
    cases List.mem_singleton.mp hlayer
    rw [envVariables, direct_timeoutValues] at hq
    cases hq
  have hvariables := envVariables_timeout.trans (List.nil_append _).symm
  exact find_loadEnvSettings hlayers hvariables (fun q hq ↦ absurd hq List.not_mem_nil) hlast

/-- At a path apart from those of all variables, what is loaded is what the defaults have. -/
theorem find_loadEnvSettings_of_apart (hne : path ≠ [])
    (h : ∀ layer ∈ layers lead fields dotenv process,
      ∀ q ∈ envVariables py layer.1 layer.2, Tree.Apart path q.1) :
    Tree.find path (.node (loadEnvSettings py defaults lead fields dotenv process)) =
      Tree.find path (.node defaults) :=
  find_foldl_applyLayer hne h

theorem find_loadEnvSettings_redisInfo :
    Tree.find ["REDIS_INFO".toList] (.node (loadEnvSettings asciiInterpreter
      (fun _ ↦ some (.leaf .none)) "SCRAPY_CFFI_".toList ["TIMEOUT".toList, "REDIS_INFO".toList]
        Dict.empty timeoutValues)) = some (.leaf .none) := by
  apply find_loadEnvSettings_of_apart (List.cons_ne_nil _ _)
  intro layer hlayer q hq
  simp only [layers, List.mem_cons, List.not_mem_nil, or_false] at hlayer
  rcases hlayer with rfl | rfl | rfl | rfl
  · exact absurd hq List.not_mem_nil
  · exact absurd hq List.not_mem_nil
  · rw [envVariables_timeout] at hq
    cases List.mem_singleton.mp hq
    exact ⟨by decide, by decide⟩
  · rw [envVariables, direct_timeoutValues] at hq
    cases hq

end ScrapyCffi.Settings
