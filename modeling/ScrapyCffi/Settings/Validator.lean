import ScrapyCffi.Settings.Info

/-!
# The cross-field validator

What `check_after` (`settings.py:185–218`) accepts and which fields it derives from others, and the
types of the fields of `SettingsInfo` under a dump.
-/

namespace ScrapyCffi.Settings

open ScrapyCffi.Base ScrapyCffi.Base.Typed

variable {φ : Type} [DecidableEq φ] {py : Python φ}

/-! ## The fields and their types -/

theorem map_name_settingsFields (py : Python φ) :
    (settingsFields py).map Field.name = settingsNames := by
  have hcomponents :
      (componentFields.map (componentField py)).map Field.name = componentFields := by
    rw [List.map_map]
    exact List.map_id componentFields
  simp only [settingsFields, settingsNames, List.map_append, map_name_rows, hcomponents,
    List.map_cons, List.map_nil]

theorem nodup_settingsNames : settingsNames.Nodup := by decide

theorem nodup_settingsFields : ((settingsFields py).map Field.name).Nodup := by
  rw [map_name_settingsFields]
  exact nodup_settingsNames

/-- The types of all fields obey the laws of a dump. -/
theorem settingsFields_lawful (hpy : py.checker.Lawful) :
    ∀ f ∈ settingsFields py, f.type.Lawful := by
  intro f hf
  simp only [settingsFields, List.mem_append, or_assoc] at hf
  rcases hf with hf | hf | hf | hf | hf | hf | hf | hf
  · exact rows_lawful hpy f hf
  · simp only [List.mem_cons, List.not_mem_nil, or_false] at hf
    rcases hf with rfl | rfl
    · exact emailInfo_lawful hpy
    · exact rowSchema_lawful hpy (by decide)
  · exact rows_lawful hpy f hf
  · obtain ⟨name, -, rfl⟩ := List.mem_map.mp hf
    exact componentType_lawful name
  · exact rows_lawful hpy f hf
  · rw [List.mem_singleton.mp hf]
    exact FieldType.optional_lawful (rowSchema_lawful hpy (by decide))
  · exact rows_lawful hpy f hf
  · simp only [List.mem_cons, List.not_mem_nil, or_false] at hf
    rcases hf with rfl | rfl | rfl | rfl | rfl | rfl | rfl | rfl | rfl | rfl
    · exact FieldType.optional_lawful (logInfo_lawful hpy)
    · exact redisInfo_lawful hpy
    · exact FieldType.optional_lawful (rowSchema_lawful hpy (by decide))
    · exact mysqlInfo_lawful hpy
    · exact postgresInfo_lawful hpy
    · exact FieldType.optional_lawful (postgresInfo_lawful hpy)
    · exact mongodbInfo_lawful hpy
    · exact rabbitMQInfo_lawful hpy
    · exact kafkaInfo_lawful hpy
    · exact FieldType.optional_lawful (cpyExtensionsConfig_lawful hpy)

omit [DecidableEq φ] in
/-- Values of rows without free parts are kept. -/
theorem Aligned.kept_of_typed {rows : List Row} {values : List (String × Datum φ)}
    (h : Aligned FieldType.Valid (rows.map (Row.field py)) values)
    (htyped : ∀ row ∈ rows, row.type.typed = true) :
    Aligned FieldType.Kept (rows.map (Row.field py)) values := by
  induction rows generalizing values with
  | nil =>
    cases h
    exact .nil
  | cons row rest ih =>
    rw [List.forall_mem_cons] at htyped
    cases h with
    | cons hfirst hrest =>
      refine .cons ⟨hfirst.1, ?_⟩ (ih hrest htyped.2)
      exact FieldType.kept_of_typed htyped.1 hfirst.2

/-- The connections to PostgreSQL have no free parts. -/
theorem kept_of_postgres {v : Datum φ} (h : (postgresInfo py).type.Valid v) :
    (postgresInfo py).type.Kept v := by
  obtain ⟨values, rfl, haligned, -⟩ := h
  have htyped : ∀ row ∈ sqlRows "postgresql+asyncpg", row.type.typed = true := by decide
  exact ⟨values, rfl, Aligned.kept_of_typed haligned htyped⟩

/-! ## Settings -/

/-- Settings whose values have their types and are not changed by the validator. -/
structure ValidSettings (py : Python φ) (settings : SettingsInfo φ) : Prop where
  aligned : Aligned FieldType.Valid (settingsFields py) settings.fields
  extra : ∀ p ∈ settings.extra, settingsNames.contains p.1 = false
  distinct : (settings.extra.map Prod.fst).Nodup
  settled : checkAfter py settings = .ok settings

/-- A field of valid settings. -/
theorem ValidSettings.get_field {self : SettingsInfo φ} (h : ValidSettings py self)
    {f : Typed.Field φ} (hf : f ∈ settingsFields py) :
    self.get f.name = some (self.value f.name) ∧ f.type.Valid (self.value f.name) := by
  obtain ⟨v, hv, hvalid⟩ := h.aligned.of_lookup nodup_settingsFields hf
  have hget : self.get f.name = some v := by
    rw [SettingsInfo.get, hv]
    rfl
  rw [SettingsInfo.value, hget]
  exact ⟨rfl, hvalid⟩

omit [DecidableEq φ] in
theorem SettingsInfo.get_set {self : SettingsInfo φ} {key name : String} {v : Datum φ} :
    (self.set key v).get name = if name = key then some v else self.get name := by
  rw [SettingsInfo.get, SettingsInfo.set, Dict.lookup_assign, SettingsInfo.get]
  split
  · rfl
  · rfl

omit [DecidableEq φ] in
theorem SettingsInfo.value_set {self : SettingsInfo φ} {key name : String} {v : Datum φ} :
    (self.set key v).value name = if name = key then v else self.value name := by
  rw [SettingsInfo.value, SettingsInfo.get_set]
  split
  · rfl
  · rfl

/-! ## The validator -/

/-- The value that the validator puts in the place of another one. -/
def derivedValue (py : Python φ) (value : String → Datum φ) (name : String) : Option (Datum φ) :=
  if name = "CURL_CFFI_RUNTIME_DIR" ∧ (value "CURL_CFFI_RUNTIME_DIR").isNone = true then
    some (value "CURL_CFFI_NATIVE_DIR")
  else if name = "PROXIES" ∧ truthy py (value "PROXY_URL") = true then
    some (proxiesOf (value "PROXY_URL"))
  else if name = "POSTGRES_INFO" ∧ truthy py (value "POSTGRESS_INFO") = true ∧
      truthy py (urlOf (value "POSTGRES_INFO")) = false then
    some (value "POSTGRESS_INFO")
  else none

/-- The two directories are the same, where both are given, and persistent sessions come with a
persistent scheduler. -/
structure Consistent (py : Python φ) (value : String → Datum φ) : Prop where
  directories : (value "CURL_CFFI_RUNTIME_DIR").isNone = true ∨
    (value "CURL_CFFI_NATIVE_DIR").isNone = true ∨
      (value "CURL_CFFI_NATIVE_DIR").same (value "CURL_CFFI_RUNTIME_DIR") = true
  sessions : truthy py (value "SCHEDULER_PERSIST_SESSIONS") = true →
    truthy py (value "SCHEDULER_PERSIST") = true

/-- What the first step of the validator returns. -/
theorem get_selectRuntimeDir {self result : SettingsInfo φ}
    (h : selectRuntimeDir self = .ok result) (name : String) :
    result.get name = if name = "CURL_CFFI_RUNTIME_DIR" ∧
        (self.value "CURL_CFFI_RUNTIME_DIR").isNone = true then
      some (self.value "CURL_CFFI_NATIVE_DIR") else self.get name := by
  unfold selectRuntimeDir at h
  split at h
  · next hnone =>
    cases h
    rw [SettingsInfo.get_set]
    simp only [hnone, and_true]
  · next hsome =>
    have hresult : result = self := by
      split at h
      · cases h
      · cases h
        rfl
    rw [hresult, if_neg (fun h ↦ hsome h.2)]

/-- When the first step of the validator returns. -/
theorem selectRuntimeDir_isOk {self : SettingsInfo φ} :
    (∃ result, selectRuntimeDir self = .ok result) ↔
      (self.value "CURL_CFFI_RUNTIME_DIR").isNone = true ∨
        (self.value "CURL_CFFI_NATIVE_DIR").isNone = true ∨
          (self.value "CURL_CFFI_NATIVE_DIR").same (self.value "CURL_CFFI_RUNTIME_DIR") = true := by
  unfold selectRuntimeDir
  cases (self.value "CURL_CFFI_RUNTIME_DIR").isNone <;>
    cases (self.value "CURL_CFFI_NATIVE_DIR").isNone <;>
      cases (self.value "CURL_CFFI_NATIVE_DIR").same (self.value "CURL_CFFI_RUNTIME_DIR") <;> simp

omit [DecidableEq φ] in
/-- The same value under a name. -/
theorem value_of_get {self result : SettingsInfo φ} {name other : String}
    (h : result.get name = self.get other) : result.value name = self.value other := by
  rw [SettingsInfo.value, h, SettingsInfo.value]

/-- The first step of the validator changes one directory. -/
theorem value_selectRuntimeDir {self selected : SettingsInfo φ}
    (h : selectRuntimeDir self = .ok selected) {name : String}
    (hne : name ≠ "CURL_CFFI_RUNTIME_DIR") : selected.value name = self.value name := by
  apply value_of_get
  rw [get_selectRuntimeDir h, if_neg (fun hname ↦ hne hname.1)]

/-- The steps of the validator. -/
theorem checkAfter_eq_ok {self result : SettingsInfo φ} : checkAfter py self = .ok result ↔
    ∃ selected, selectRuntimeDir self = .ok selected ∧
      (truthy py (self.value "SCHEDULER_PERSIST_SESSIONS") = true →
        truthy py (self.value "SCHEDULER_PERSIST") = true) ∧
      withSeenNames py (selectPostgres py (selectProxies py selected)) = result := by
  unfold checkAfter
  rw [bind_eq_ok]
  apply exists_congr
  intro selected
  apply and_congr_right
  intro hselected
  rw [value_selectRuntimeDir hselected (by decide), value_selectRuntimeDir hselected (by decide)]
  cases truthy py (self.value "SCHEDULER_PERSIST_SESSIONS") <;>
    cases truthy py (self.value "SCHEDULER_PERSIST") <;> simp [pure, Except.pure, throw, throwThe,
      MonadExceptOf.throw]

/-- When the validator returns. -/
theorem checkAfter_isOk {self : SettingsInfo φ} :
    (∃ result, checkAfter py self = .ok result) ↔ Consistent py self.value := by
  constructor
  · rintro ⟨result, h⟩
    obtain ⟨selected, hselected, hsessions, -⟩ := checkAfter_eq_ok.mp h
    exact ⟨selectRuntimeDir_isOk.mp ⟨selected, hselected⟩, hsessions⟩
  · intro h
    obtain ⟨selected, hselected⟩ := selectRuntimeDir_isOk.mpr h.directories
    exact ⟨_, checkAfter_eq_ok.mpr ⟨selected, hselected, h.sessions, rfl⟩⟩

omit [DecidableEq φ] in
/-- What the proxies are. -/
theorem get_selectProxies {self : SettingsInfo φ} {name : String} :
    (selectProxies py self).get name =
      if name = "PROXIES" ∧ truthy py (self.value "PROXY_URL") = true then
        some (proxiesOf (self.value "PROXY_URL"))
      else self.get name := by
  unfold selectProxies
  split
  · next h =>
    rw [SettingsInfo.get_set]
    simp only [h, and_true]
  · next h => rw [if_neg (fun hboth ↦ h hboth.2)]

omit [DecidableEq φ] in
/-- What the connection to PostgreSQL is. -/
theorem get_selectPostgres {self : SettingsInfo φ} {name : String} :
    (selectPostgres py self).get name =
      if name = "POSTGRES_INFO" ∧ truthy py (self.value "POSTGRESS_INFO") = true ∧
          truthy py (urlOf (self.value "POSTGRES_INFO")) = false then
        some (self.value "POSTGRESS_INFO")
      else self.get name := by
  unfold selectPostgres
  split
  · next h =>
    rw [Bool.and_eq_true, Bool.not_eq_true'] at h
    rw [SettingsInfo.get_set]
    simp only [h, and_true]
  · next h =>
    rw [Bool.and_eq_true, Bool.not_eq_true'] at h
    rw [if_neg (fun hall ↦ h hall.2)]

/-- What the validator returns. -/
theorem get_checkAfter {self result : SettingsInfo φ} (h : checkAfter py self = .ok result)
    (name : String) :
    result.get name = (derivedValue py self.value name).or (self.get name) := by
  obtain ⟨selected, hselected, -, rfl⟩ := checkAfter_eq_ok.mp h
  have hproxies : ∀ {other : String}, other ≠ "PROXIES" →
      (selectProxies py selected).value other = selected.value other := by
    intro other hne
    apply value_of_get
    rw [get_selectProxies, if_neg (fun hboth ↦ hne hboth.1)]
  show (selectPostgres py (selectProxies py selected)).get name = _
  rw [get_selectPostgres, get_selectProxies, get_selectRuntimeDir hselected,
    hproxies (by decide), hproxies (by decide), value_selectRuntimeDir hselected (by decide),
    value_selectRuntimeDir hselected (by decide), value_selectRuntimeDir hselected (by decide),
    derivedValue]
  by_cases hruntime : name = "CURL_CFFI_RUNTIME_DIR"
  · subst hruntime
    simp
    split <;> rfl
  · simp only [hruntime, false_and, if_false]
    by_cases hname : name = "PROXIES"
    · subst hname
      simp
      split <;> rfl
    · simp only [hname, false_and, if_false]
      split <;> rfl

end ScrapyCffi.Settings
