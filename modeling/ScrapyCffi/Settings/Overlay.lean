import ScrapyCffi.Settings.Defaults

/-!
# What an overlay leaves

When `merge_spider_settings` returns settings with the values of the overlay under the names that
it gives and those of the base under all others. A component field that is not `None` is lost in
the dump of the base, and so are records in its free-form values.
-/

namespace ScrapyCffi.Settings

open ScrapyCffi.Base ScrapyCffi.Base.Typed

variable {φ : Type} [DecidableEq φ] {py : Python φ}

/-! ## The data of a merge -/

/-- Data after the assignments of an overlay. -/
def overlaid (data : List (Atom φ × Datum φ)) (entries : List (String × Datum φ)) :
    List (Atom φ × Datum φ) :=
  entries.foldl (fun d entry ↦ Dict.assign (.str entry.1) entry.2 d) data

/-- The names of known fields can be overlaid. -/
theorem applyOverlay_eq {base : SettingsInfo φ} {entries : List (String × Datum φ)}
    (h : ∀ entry ∈ entries, (base.get entry.1).isSome = true) (data : List (Atom φ × Datum φ)) :
    applyOverlay py base entries data = .ok (overlaid data entries) := by
  induction entries generalizing data with
  | nil => rfl
  | cons entry rest ih =>
    obtain ⟨key, value⟩ := entry
    rw [List.forall_mem_cons] at h
    have hknown : (base.get key).isNone = false := by
      rw [Option.isNone_eq_false_iff]
      exact h.1
    rw [applyOverlay, hknown, if_neg (by simp), ih h.2]
    rfl

/-- The data under a name: what the overlay gives, or what was there. -/
theorem lookup_overlaid {entries : List (String × Datum φ)}
    (hnodup : (entries.map Prod.fst).Nodup) (data : List (Atom φ × Datum φ)) (name : String) :
    Dict.lookup (.str name) (overlaid data entries) =
      (Dict.lookup name entries).or (Dict.lookup (.str name) data) := by
  induction entries generalizing data with
  | nil => rfl
  | cons entry rest ih =>
    rw [List.map_cons, List.nodup_cons] at hnodup
    rw [overlaid, List.foldl_cons]
    change Dict.lookup _ (overlaid _ rest) = _
    rw [ih hnodup.2, Dict.lookup_assign, Dict.lookup]
    by_cases hkey : entry.1 = name
    · subst hkey
      rw [Dict.lookup_eq_none.mpr hnodup.1, if_pos rfl, if_pos rfl]
      rfl
    · rw [if_neg (fun heq ↦ hkey (Atom.str.inj heq).symm), if_neg hkey]

/-- Known names are no extra ones. -/
theorem extraOf_overlaid {entries : List (String × Datum φ)}
    (h : ∀ entry ∈ entries, settingsNames.contains entry.1 = true)
    (data : List (Atom φ × Datum φ)) : extraOf (overlaid data entries) = extraOf data := by
  have hassign : ∀ (key : String) (v : Datum φ), settingsNames.contains key = true →
      ∀ data : List (Atom φ × Datum φ), extraOf (Dict.assign (.str key) v data) = extraOf data := by
    intro key v hkey data
    induction data with
    | nil =>
      rw [Dict.assign, extraOf, List.filterMap_cons_none]
      · rfl
      · simp only [hkey, if_true]
    | cons first rest ih =>
      rw [Dict.assign]
      split
      · next hfirst =>
        rw [extraOf, extraOf, List.filterMap_cons, List.filterMap_cons, hfirst]
        simp only [hkey, if_true]
      · rw [extraOf, extraOf, List.filterMap_cons, List.filterMap_cons]
        rw [extraOf, extraOf] at ih
        rw [ih]
  induction entries generalizing data with
  | nil => rfl
  | cons entry rest ih =>
    rw [List.forall_mem_cons] at h
    rw [overlaid, List.foldl_cons]
    change extraOf (overlaid _ rest) = _
    rw [ih h.2, hassign _ _ h.1]

omit [DecidableEq φ] in
/-- What is extra in a dump. -/
theorem extraOf_modelDump {base : SettingsInfo φ}
    (hfields : ∀ p ∈ base.fields, settingsNames.contains p.1 = true)
    (hextra : ∀ p ∈ base.extra, settingsNames.contains p.1 = false) :
    extraOf base.modelDump = base.extra.map fun p ↦ (p.1, p.2.dump) := by
  have hnone : ∀ fields : List (String × Datum φ),
      (∀ p ∈ fields, settingsNames.contains p.1 = true) → extraOf (dumpFields fields) = [] := by
    intro fields h
    induction fields with
    | nil => rfl
    | cons p rest ih =>
      rw [List.forall_mem_cons] at h
      rw [dumpFields, extraOf, List.filterMap_cons_none]
      · exact ih h.2
      · simp only [h.1, if_true]
  have hall : ∀ extra : List (String × Datum φ),
      (∀ p ∈ extra, settingsNames.contains p.1 = false) →
        extraOf (dumpFields extra) = extra.map fun p ↦ (p.1, p.2.dump) := by
    intro extra h
    induction extra with
    | nil => rfl
    | cons p rest ih =>
      rw [List.forall_mem_cons] at h
      rw [dumpFields, extraOf, List.filterMap_cons_some, List.map_cons]
      · exact congrArg _ (ih h.2)
      · simp only [h.1, Bool.false_eq_true, if_false]
  have happend : extraOf base.modelDump =
      extraOf (dumpFields base.fields) ++ extraOf (dumpFields base.extra) :=
    List.filterMap_append
  rw [happend, hnone _ hfields, hall _ hextra, List.nil_append]

/-- The dump has the data of every value. -/
theorem lookup_modelDump (base : SettingsInfo φ) (name : String) :
    Dict.lookup (.str name) base.modelDump = (base.get name).map Datum.dump := by
  rw [SettingsInfo.modelDump, Dict.lookup_append, lookup_dumpFields, lookup_dumpFields,
    SettingsInfo.get]
  cases Dict.lookup name base.fields <;> rfl

/-- What a field is read as in a merge. -/
theorem read_overlaid {base : SettingsInfo φ} (hbase : ValidSettings py base)
    (overlay : Dict String (Datum φ)) {f : Typed.Field φ} (hf : f ∈ settingsFields py) :
    f.read (overlaid base.modelDump overlay.entries) = below f.name
      (f.type.check ((overlay.get f.name).getD (base.value f.name).dump)) := by
  rw [Field.read, lookup_overlaid overlay.nodup, lookup_modelDump, (hbase.get_field hf).1]
  have hget : overlay.get f.name = Dict.lookup f.name overlay.entries := rfl
  rw [hget]
  cases Dict.lookup f.name overlay.entries <;> rfl

/-- All fields are read when each one is. -/
theorem readSettings_isOk {data : List (Atom φ × Datum φ)}
    (h : ∀ f ∈ settingsFields py, ∃ v, f.read data = .ok v) :
    ∃ settings, readSettings py data = .ok settings := by
  have hfields : ∀ fields : List (Typed.Field φ), (∀ f ∈ fields, ∃ v, f.read data = .ok v) →
      ∃ values, readFields data fields = .ok values := by
    intro fields hall
    induction fields with
    | nil => exact ⟨[], rfl⟩
    | cons f rest ih =>
      rw [List.forall_mem_cons] at hall
      obtain ⟨v, hv⟩ := hall.1
      obtain ⟨values, hvalues⟩ := ih hall.2
      refine ⟨(f.name, v) :: values, ?_⟩
      rw [readFields, hv, hvalues]
  obtain ⟨values, hvalues⟩ := hfields _ h
  exact ⟨_, bind_eq_ok.mpr ⟨values, hvalues, rfl⟩⟩

/-- What the fields are read as. -/
theorem get_readSettings {data : List (Atom φ × Datum φ)} {settings : SettingsInfo φ}
    (h : readSettings py data = .ok settings) {f : Typed.Field φ} (hf : f ∈ settingsFields py) :
    ∃ v, settings.get f.name = some v ∧ f.read data = .ok v := by
  obtain ⟨values, hvalues, heq⟩ := bind_eq_ok.mp h
  cases heq
  rw [readFields_eq_ok] at hvalues
  obtain ⟨v, hv, hread⟩ := lookup_of_forall₂ (R := fun f v ↦ f.read data = .ok v) hvalues
    nodup_settingsFields hf
  refine ⟨v, ?_, hread⟩
  rw [SettingsInfo.get, hv]
  rfl

/-! ## The merge -/

/-- An overlay of known fields, and what its values are read as. -/
structure ReadOverlay (py : Python φ) (overlay : Dict String (Datum φ))
    (values : String → Datum φ) : Prop where
  nonempty : overlay.entries ≠ []
  known : ∀ entry ∈ overlay.entries, settingsNames.contains entry.1 = true
  read : ∀ f ∈ settingsFields py, ∀ raw, overlay.get f.name = some raw →
    f.type.check raw = .ok (values f.name)

/-- The value that the overlay gives, or that of the base. -/
def overlaidValue (base : SettingsInfo φ) (overlay : Dict String (Datum φ))
    (values : String → Datum φ) (name : String) : Datum φ :=
  if (overlay.get name).isSome then values name else base.value name

/-- The validator derives the field from one that the overlay gives. -/
def DerivedFromOverlay (py : Python φ) (overlay : Dict String (Datum φ))
    (value : String → Datum φ) (name : String) : Prop :=
  (derivedValue py value name).isSome = true ∧
    ((name = "CURL_CFFI_RUNTIME_DIR" ∧ (overlay.get "CURL_CFFI_NATIVE_DIR").isSome = true) ∨
      (name = "PROXIES" ∧ (overlay.get "PROXY_URL").isSome = true) ∨
      (name = "POSTGRES_INFO" ∧ (overlay.get "POSTGRESS_INFO").isSome = true))

/-- The merge returns settings with the values of the overlay and, where the validator derives
nothing from them, those of the base, which stays as it is. -/
def MergesOverlay (py : Python φ) (heap : List (SettingsInfo φ)) (base : Fin heap.length)
    (overlay : Dict String (Datum φ)) (values : String → Datum φ) : Prop :=
  ∃ (id : Nat) (after : List (SettingsInfo φ)) (merged : SettingsInfo φ),
    mergeSpiderSettings py heap base overlay = (.ok id, after) ∧ after[id]? = some merged ∧
    after[base.val]? = some (heap.get base) ∧
    (∀ name, (overlay.get name).isSome = true → merged.get name = some (values name)) ∧
    ∀ name, overlay.get name = none →
      ¬ DerivedFromOverlay py overlay (overlaidValue (heap.get base) overlay values) name →
      merged.get name = (heap.get base).get name

/-- What the code needs: all values that it leaves to the base are kept by a dump, `None` for the
component fields, the validator accepts the values together, and it derives none that the overlay
gives in another way. -/
structure Mergeable (py : Python φ) (base : SettingsInfo φ) (overlay : Dict String (Datum φ))
    (values : String → Datum φ) : Prop where
  kept : ∀ f ∈ settingsFields py, overlay.get f.name = none →
    ¬ DerivedFromOverlay py overlay (overlaidValue base overlay values) f.name →
    f.type.Kept (base.value f.name)
  extra : ∀ p ∈ base.extra, p.2.plain = true
  consistent : Consistent py (overlaidValue base overlay values)
  derived : ∀ name, (overlay.get name).isSome = true → ∀ v,
    derivedValue py (overlaidValue base overlay values) name = some v → v = values name

section

variable {base : SettingsInfo φ} {overlay : Dict String (Datum φ)} {values : String → Datum φ}

/-- A known name is that of a field. -/
theorem exists_field (py : Python φ) {name : String} (h : settingsNames.contains name = true) :
    ∃ f ∈ settingsFields py, f.name = name := by
  rw [List.contains_iff_mem, ← map_name_settingsFields py] at h
  obtain ⟨f, hf, rfl⟩ := List.mem_map.mp h
  exact ⟨f, hf, rfl⟩

/-- The merge validates the dump of the base under the overlay. -/
theorem mergeSpiderSettings_eq {heap : List (SettingsInfo φ)} {base : Fin heap.length}
    (hbase : ValidSettings py (heap.get base)) (hoverlay : ReadOverlay py overlay values) :
    mergeSpiderSettings py heap base overlay =
      modelValidate py heap (overlaid (heap.get base).modelDump overlay.entries) := by
  have hknown : ∀ entry ∈ overlay.entries, ((heap.get base).get entry.1).isSome = true := by
    intro entry hentry
    obtain ⟨f, hf, hname⟩ := exists_field py (hoverlay.known entry hentry)
    rw [← hname, (hbase.get_field hf).1]
    rfl
  have hnonempty : overlay.entries.isEmpty = false := by
    rw [List.isEmpty_eq_false_iff]
    exact hoverlay.nonempty
  rw [mergeSpiderSettings, hnonempty, applyOverlay_eq hknown]
  rfl

/-- A validation returns when the fields are read and the validator accepts them. -/
theorem modelValidate_eq_ok {heap after : List (SettingsInfo φ)} {data : List (Atom φ × Datum φ)}
    {id : Nat} : modelValidate py heap data = (.ok id, after) ↔
      ∃ settings result, readSettings py data = .ok settings ∧
        checkAfter py settings = .ok result ∧ id = heap.length ∧ after = heap ++ [result] := by
  unfold modelValidate
  constructor
  · intro h
    split at h
    · cases h
    · next settings hread =>
      split at h
      · cases h
      · next result hcheck =>
        cases h
        exact ⟨settings, result, hread, hcheck, rfl, rfl⟩
  · rintro ⟨settings, result, hread, hcheck, rfl, rfl⟩
    rw [hread]
    dsimp only
    rw [hcheck]

/-- A field that is kept, or overlaid, is read as its value. -/
theorem read_eq_ok (hpy : py.checker.Lawful) (hbase : ValidSettings py base)
    (hoverlay : ReadOverlay py overlay values) {f : Typed.Field φ} (hf : f ∈ settingsFields py)
    (hkept : overlay.get f.name = none → f.type.Kept (base.value f.name)) :
    f.read (overlaid base.modelDump overlay.entries) =
      .ok (overlaidValue base overlay values f.name) := by
  rw [read_overlaid hbase overlay hf, below_eq_ok, overlaidValue]
  cases hget : overlay.get f.name with
  | none =>
    exact (settingsFields_lawful hpy f hf).check_dump _ (hbase.get_field hf).2 (hkept hget)
  | some raw => exact hoverlay.read f hf raw hget

/-- The fields of rows in valid settings. -/
theorem kept_row {row : Row} (hbase : ValidSettings py base)
    (hrow : Row.field py row ∈ settingsFields py) (htyped : row.type.typed = true) :
    (Row.field py row).type.Kept (base.value row.name) :=
  FieldType.kept_of_typed htyped (hbase.get_field hrow).2

/-- The fields that the validator looks at are kept in every dump. -/
theorem exists_kept (hbase : ValidSettings py base) {name : String}
    (hname : name = "CURL_CFFI_RUNTIME_DIR" ∨ name = "CURL_CFFI_NATIVE_DIR" ∨
      name = "SCHEDULER_PERSIST_SESSIONS" ∨ name = "SCHEDULER_PERSIST" ∨ name = "PROXY_URL" ∨
      name = "POSTGRESS_INFO" ∨ name = "POSTGRES_INFO") :
    ∃ f ∈ settingsFields py, f.name = name ∧ f.type.Kept (base.value f.name) := by
  have hrow : ∀ row : Row, Row.field py row ∈ settingsFields py → row.type.typed = true →
      ∃ f ∈ settingsFields py, f.name = row.name ∧ f.type.Kept (base.value f.name) :=
    fun row hmem htyped ↦ ⟨_, hmem, rfl, kept_row hbase hmem htyped⟩
  rcases hname with rfl | rfl | rfl | rfl | rfl | rfl | rfl
  · exact hrow ⟨"CURL_CFFI_RUNTIME_DIR", .optional .path, some .none⟩
      (by simp [settingsFields, requestRows]) rfl
  · exact hrow ⟨"CURL_CFFI_NATIVE_DIR", .optional .path, some .none⟩
      (by simp [settingsFields, requestRows]) rfl
  · exact hrow ⟨"SCHEDULER_PERSIST_SESSIONS", .bool, some (.bool false)⟩
      (by simp [settingsFields, schedulingRows]) rfl
  · exact hrow ⟨"SCHEDULER_PERSIST", .bool, some (.bool false)⟩
      (by simp [settingsFields, schedulingRows]) rfl
  · exact hrow ⟨"PROXY_URL", .optional .str, some .none⟩
      (by simp [settingsFields, resourceRows]) rfl
  · have hmem : ⟨"POSTGRESS_INFO", (postgresInfo py).type.optional, some .none⟩ ∈
        settingsFields py := by simp [settingsFields]
    exact ⟨_, hmem, rfl, (hbase.get_field hmem).2.imp_right kept_of_postgres⟩
  · have hmem : ⟨"POSTGRES_INFO", (postgresInfo py).type, instanceOf (postgresInfo py)⟩ ∈
        settingsFields py := by simp [settingsFields]
    exact ⟨_, hmem, rfl, kept_of_postgres (hbase.get_field hmem).2⟩

/-- What the validator looks at is read as it is given. -/
theorem value_readSettings (hpy : py.checker.Lawful) (hbase : ValidSettings py base)
    (hoverlay : ReadOverlay py overlay values) {settings : SettingsInfo φ}
    (hread : readSettings py (overlaid base.modelDump overlay.entries) = .ok settings)
    {f : Typed.Field φ} (hf : f ∈ settingsFields py)
    (hkept : overlay.get f.name = none → f.type.Kept (base.value f.name)) :
    settings.get f.name = some (overlaidValue base overlay values f.name) := by
  obtain ⟨v, hget, hv⟩ := get_readSettings hread hf
  rw [read_eq_ok hpy hbase hoverlay hf hkept] at hv
  cases hv
  exact hget

/-- The validator sees the values of the overlay and of the base. -/
theorem derivedValue_readSettings (hpy : py.checker.Lawful) (hbase : ValidSettings py base)
    (hoverlay : ReadOverlay py overlay values) {settings : SettingsInfo φ}
    (hread : readSettings py (overlaid base.modelDump overlay.entries) = .ok settings) :
    derivedValue py settings.value = derivedValue py (overlaidValue base overlay values) ∧
      (Consistent py settings.value ↔
        Consistent py (overlaidValue base overlay values)) := by
  have hvalue : ∀ name, name = "CURL_CFFI_RUNTIME_DIR" ∨ name = "CURL_CFFI_NATIVE_DIR" ∨
      name = "SCHEDULER_PERSIST_SESSIONS" ∨ name = "SCHEDULER_PERSIST" ∨ name = "PROXY_URL" ∨
      name = "POSTGRESS_INFO" ∨ name = "POSTGRES_INFO" →
      settings.value name = overlaidValue base overlay values name := by
    intro name hname
    obtain ⟨f, hf, rfl, hkept⟩ := exists_kept hbase hname
    rw [SettingsInfo.value, value_readSettings hpy hbase hoverlay hread hf fun _ ↦ hkept]
    rfl
  have hruntime := hvalue "CURL_CFFI_RUNTIME_DIR" (by decide)
  have hnative := hvalue "CURL_CFFI_NATIVE_DIR" (by decide)
  have hsessions := hvalue "SCHEDULER_PERSIST_SESSIONS" (by decide)
  have hpersist := hvalue "SCHEDULER_PERSIST" (by decide)
  have hproxy := hvalue "PROXY_URL" (by decide)
  have halias := hvalue "POSTGRESS_INFO" (by decide)
  have hpostgres := hvalue "POSTGRES_INFO" (by decide)
  constructor
  · funext name
    simp only [derivedValue, hruntime, hnative, hproxy, halias, hpostgres]
  · constructor
    · rintro ⟨hdirectories, hpersistent⟩
      rw [hruntime, hnative] at hdirectories
      rw [hsessions, hpersist] at hpersistent
      exact ⟨hdirectories, hpersistent⟩
    · rintro ⟨hdirectories, hpersistent⟩
      rw [← hruntime, ← hnative] at hdirectories
      rw [← hsessions, ← hpersist] at hpersistent
      exact ⟨hdirectories, hpersistent⟩

omit [DecidableEq φ] in
/-- The validator derives three fields. -/
theorem derivedValue_names {value : String → Datum φ} {name : String} {v : Datum φ}
    (h : derivedValue py value name = some v) :
    name = "CURL_CFFI_RUNTIME_DIR" ∧ v = value "CURL_CFFI_NATIVE_DIR" ∨
      name = "PROXIES" ∧ v = proxiesOf (value "PROXY_URL") ∨
      name = "POSTGRES_INFO" ∧ v = value "POSTGRESS_INFO" := by
  unfold derivedValue at h
  split at h
  · next hname => exact .inl ⟨hname.1, (Option.some.inj h).symm⟩
  · split at h
    · next hname => exact .inr (.inl ⟨hname.1, (Option.some.inj h).symm⟩)
    · split at h
      · next hname => exact .inr (.inr ⟨hname.1, (Option.some.inj h).symm⟩)
      · cases h

omit [DecidableEq φ] in
/-- Fields that the overlay does not give and that are not derived from it are derived as in the
base. -/
theorem derivedValue_base {name : String} {v : Datum φ} (hname : overlay.get name = none)
    (hderived : ¬ DerivedFromOverlay py overlay (overlaidValue base overlay values) name)
    (h : derivedValue py (overlaidValue base overlay values) name = some v) :
    derivedValue py base.value name = some v := by
  have hbase : ∀ {other : String}, overlay.get other = none →
      overlaidValue base overlay values other = base.value other := by
    intro other hother
    rw [overlaidValue, hother]
    rfl
  have hsource : ∀ {source : String}, ¬ (overlay.get source).isSome = true →
      overlaidValue base overlay values source = base.value source := by
    intro source hnone
    exact hbase (Option.not_isSome_iff_eq_none.mp hnone)
  have hsome : (derivedValue py (overlaidValue base overlay values) name).isSome = true := by
    rw [h]
    rfl
  rcases derivedValue_names h with ⟨rfl, -⟩ | ⟨rfl, -⟩ | ⟨rfl, -⟩
  · have hnative := hsource fun hgiven ↦ hderived ⟨hsome, .inl ⟨rfl, hgiven⟩⟩
    rw [← h]
    simp only [derivedValue, hnative, hbase hname]
    simp
  · have hproxy := hsource fun hgiven ↦ hderived ⟨hsome, .inr (.inl ⟨rfl, hgiven⟩)⟩
    rw [← h]
    simp only [derivedValue, hproxy]
    simp
  · have halias := hsource fun hgiven ↦ hderived ⟨hsome, .inr (.inr ⟨rfl, hgiven⟩)⟩
    rw [← h]
    simp only [derivedValue, halias, hbase hname]
    simp

/-- Other names than those of the fields are extra. -/
theorem get_eq_extra (hbase : ValidSettings py base) {name : String}
    (hname : settingsNames.contains name = false) :
    base.get name = Dict.lookup name base.extra := by
  have hunknown : Dict.lookup name base.fields = none := by
    rw [Dict.lookup_eq_none, hbase.aligned.names, map_name_settingsFields,
      ← List.contains_iff_mem, hname]
    exact Bool.false_ne_true
  rw [SettingsInfo.get, hunknown]
  rfl

/-- Other names are read as their dumps. -/
theorem get_readSettings_extra (hbase : ValidSettings py base)
    (hoverlay : ReadOverlay py overlay values) {settings : SettingsInfo φ}
    (hread : readSettings py (overlaid base.modelDump overlay.entries) = .ok settings)
    {name : String} (hname : settingsNames.contains name = false) :
    settings.get name = (base.get name).map Datum.dump := by
  have hbasefields : ∀ p ∈ base.fields, settingsNames.contains p.1 = true := by
    intro p hp
    rw [List.contains_iff_mem, ← map_name_settingsFields py, ← hbase.aligned.names]
    exact List.mem_map_of_mem hp
  obtain ⟨fields, hfields, heq⟩ := bind_eq_ok.mp hread
  cases heq
  have hunknown : Dict.lookup name fields = none := by
    rw [Dict.lookup_eq_none,
      names_of_forall₂ (R := fun f v ↦ f.read _ = .ok v) (readFields_eq_ok.mp hfields),
      map_name_settingsFields, ← List.contains_iff_mem, hname]
    exact Bool.false_ne_true
  rw [get_eq_extra hbase hname, SettingsInfo.get, hunknown, extraOf_overlaid hoverlay.known,
    extraOf_modelDump hbasefields hbase.extra, Dict.lookup_map_snd]
  rfl

/-- A name that the overlay gives is known. -/
theorem known_of_get (hoverlay : ReadOverlay py overlay values) {name : String}
    (h : (overlay.get name).isSome = true) : settingsNames.contains name = true := by
  obtain ⟨raw, hraw⟩ := Option.isSome_iff_exists.mp h
  exact hoverlay.known _ (Dict.mem_of_get hraw)

/-- A merge that does what the overlay says, as it goes on. -/
theorem mergesOverlay_iff_read {heap : List (SettingsInfo φ)} {base : Fin heap.length}
    (hbase : ValidSettings py (heap.get base)) (hoverlay : ReadOverlay py overlay values) :
    MergesOverlay py heap base overlay values ↔ ∃ settings merged,
      readSettings py (overlaid (heap.get base).modelDump overlay.entries) = .ok settings ∧
      checkAfter py settings = .ok merged ∧
      (∀ name, (overlay.get name).isSome = true → merged.get name = some (values name)) ∧
      ∀ name, overlay.get name = none →
        ¬ DerivedFromOverlay py overlay (overlaidValue (heap.get base) overlay values) name →
        merged.get name = (heap.get base).get name := by
  rw [MergesOverlay, mergeSpiderSettings_eq hbase hoverlay]
  constructor
  · rintro ⟨id, after, merged, hmerge, hmerged, -, hnamed, hother⟩
    obtain ⟨settings, result, hread, hcheck, rfl, rfl⟩ := modelValidate_eq_ok.mp hmerge
    rw [List.getElem?_concat_length] at hmerged
    cases hmerged
    exact ⟨settings, merged, hread, hcheck, hnamed, hother⟩
  · rintro ⟨settings, merged, hread, hcheck, hnamed, hother⟩
    refine ⟨heap.length, heap ++ [merged], merged,
      modelValidate_eq_ok.mpr ⟨settings, merged, hread, hcheck, rfl, rfl⟩,
      List.getElem?_concat_length, ?_, hnamed, hother⟩
    rw [List.getElem?_append_left base.isLt]
    exact List.getElem?_eq_getElem base.isLt

/-- Two of the derived fields are kept in every dump. -/
theorem kept_of_name (hbase : ValidSettings py base) {f : Typed.Field φ}
    (hf : f ∈ settingsFields py)
    (hname : f.name = "CURL_CFFI_RUNTIME_DIR" ∨ f.name = "POSTGRES_INFO") :
    f.type.Kept (base.value f.name) := by
  obtain ⟨g, hg, hgname, hkept⟩ : ∃ g ∈ settingsFields py, g.name = f.name ∧
      g.type.Kept (base.value g.name) :=
    exists_kept hbase (hname.elim .inl fun h ↦ .inr (.inr (.inr (.inr (.inr (.inr h))))))
  have heq : f = g := List.inj_on_of_nodup_map nodup_settingsFields hf hg hgname.symm
  rw [heq]
  exact hkept

/-- The proxies are a dictionary of any values. -/
theorem eq_proxies {f : Typed.Field φ} (hf : f ∈ settingsFields py) (hname : f.name = "PROXIES") :
    f = Row.field py ⟨"PROXIES", .optional .dict, some .none⟩ := by
  have hmem : Row.field py ⟨"PROXIES", .optional .dict, some .none⟩ ∈ settingsFields py := by
    simp [settingsFields, resourceRows]
  exact List.inj_on_of_nodup_map nodup_settingsFields hf hmem hname

/-- The proxies are read from any dump of them. -/
theorem check_proxies (hpy : py.checker.Lawful) (hbase : ValidSettings py base) {f : Typed.Field φ}
    (hf : f ∈ settingsFields py) (hname : f.name = "PROXIES") :
    ∃ v, f.type.check (base.value f.name).dump = .ok v := by
  cases eq_proxies hf hname
  have hvalid := (hbase.get_field hf).2.2.1
  have hdump : ( Annotation.optional .dict).holds py.checker.toInstances
      (base.value "PROXIES").dump = true := by
    change ( Annotation.optional .dict).holds py.checker.toInstances
      (base.value "PROXIES") = true at hvalid
    revert hvalid
    cases base.value "PROXIES" with
    | atom a => exact id
    | dict entries => exact fun _ ↦ rfl
    | list items => exact fun h ↦ by cases h
    | tuple items => exact fun h ↦ by cases h
    | record title fields => exact fun h ↦ by cases h
  have hconform := hpy.conform_of_holds _ _ hdump
  refine ⟨_, here_eq_ok.mpr (bind_eq_ok.mpr ⟨(), rfl, bind_eq_ok.mpr ⟨_, hconform, rfl⟩⟩)⟩

/-- What the merge needs is enough. -/
theorem mergesOverlay_of_mergeable (hpy : py.checker.Lawful) {heap : List (SettingsInfo φ)}
    {base : Fin heap.length} (hbase : ValidSettings py (heap.get base))
    (hoverlay : ReadOverlay py overlay values)
    (h : Mergeable py (heap.get base) overlay values) :
    MergesOverlay py heap base overlay values := by
  have hfields : ∀ f ∈ settingsFields py, ∃ v,
      f.read (overlaid (heap.get base).modelDump overlay.entries) = .ok v := by
    intro f hf
    by_cases hderived : overlay.get f.name = none ∧
        DerivedFromOverlay py overlay (overlaidValue (heap.get base) overlay values) f.name
    · rcases hderived.2.2 with ⟨hname, -⟩ | ⟨hname, -⟩ | ⟨hname, -⟩
      · exact ⟨_, read_eq_ok hpy hbase hoverlay hf fun _ ↦
          kept_of_name hbase hf (.inl hname)⟩
      · obtain ⟨v, hv⟩ := check_proxies hpy hbase hf hname
        rw [read_overlaid hbase overlay hf, hderived.1]
        exact ⟨v, below_eq_ok.mpr hv⟩
      · exact ⟨_, read_eq_ok hpy hbase hoverlay hf fun _ ↦
          kept_of_name hbase hf (.inr hname)⟩
    · exact ⟨_, read_eq_ok hpy hbase hoverlay hf fun hnone ↦
        h.kept f hf hnone fun hfrom ↦ hderived ⟨hnone, hfrom⟩⟩
  obtain ⟨settings, hread⟩ := readSettings_isOk hfields
  have hsame := derivedValue_readSettings hpy hbase hoverlay hread
  obtain ⟨merged, hcheck⟩ := checkAfter_isOk.mpr (hsame.2.mpr h.consistent)
  have hget : ∀ name, merged.get name =
      (derivedValue py (overlaidValue (heap.get base) overlay values) name).or
        (settings.get name) := by
    intro name
    rw [get_checkAfter hcheck, hsame.1]
  rw [mergesOverlay_iff_read hbase hoverlay]
  refine ⟨settings, merged, hread, hcheck, fun name hnamed ↦ ?_, fun name hnone hfrom ↦ ?_⟩
  · rw [hget]
    cases hvalue : derivedValue py (overlaidValue (heap.get base) overlay values) name with
    | some v =>
      rw [h.derived name hnamed v hvalue]
      rfl
    | none =>
      obtain ⟨f, hf, rfl⟩ := exists_field py (known_of_get hoverlay hnamed)
      have hgiven : overlay.get f.name ≠ none := fun hnone ↦ by
        rw [hnone] at hnamed
        cases hnamed
      rw [value_readSettings hpy hbase hoverlay hread hf fun hnone ↦ absurd hnone hgiven,
        overlaidValue, if_pos hnamed]
      rfl
  · rw [hget]
    cases hvalue : derivedValue py (overlaidValue (heap.get base) overlay values) name with
    | some v =>
      rw [get_checkAfter hbase.settled name, derivedValue_base hnone hfrom hvalue]
      rfl
    | none =>
      cases hknown : settingsNames.contains name with
      | true =>
        obtain ⟨f, hf, rfl⟩ := exists_field py hknown
        rw [value_readSettings hpy hbase hoverlay hread hf fun _ ↦ h.kept f hf hnone hfrom,
          overlaidValue, hnone, (hbase.get_field hf).1]
        rfl
      | false =>
        rw [get_readSettings_extra hbase hoverlay hread hknown]
        cases hextra : (heap.get base).get name with
        | none => rfl
        | some v =>
          have hmem := (get_eq_extra hbase hknown).symm.trans hextra
          rw [Option.map_some, v.dump_eq_self (h.extra _ (Dict.mem_of_lookup hmem))]
          rfl

omit [DecidableEq φ] in
/-- The fields that the validator derives are known. -/
theorem known_of_derived {value : String → Datum φ} {name : String}
    (h : (derivedValue py value name).isSome = true) : settingsNames.contains name = true := by
  obtain ⟨v, hv⟩ := Option.isSome_iff_exists.mp h
  rcases derivedValue_names hv with ⟨rfl, -⟩ | ⟨rfl, -⟩ | ⟨rfl, -⟩
  · decide
  · decide
  · decide

/-- A field whose value is derived as in the base is kept. -/
theorem kept_of_derived (hbase : ValidSettings py base) {f : Typed.Field φ}
    (hf : f ∈ settingsFields py)
    (h : derivedValue py base.value f.name = some (base.value f.name)) :
    f.type.Kept (base.value f.name) := by
  rcases derivedValue_names h with ⟨hname, -⟩ | ⟨hname, hvalue⟩ | ⟨hname, -⟩
  · exact kept_of_name hbase hf (.inl hname)
  · have hmem : Row.field py ⟨"PROXY_URL", .optional .str, some .none⟩ ∈ settingsFields py := by
      simp [settingsFields, resourceRows]
    have hurl : (base.value "PROXY_URL").plain = true := kept_row hbase hmem rfl
    rw [hvalue]
    cases eq_proxies hf hname
    show ((base.value "PROXY_URL").plain && ((base.value "PROXY_URL").plain && true)) = true
    rw [hurl]
    rfl
  · exact kept_of_name hbase hf (.inr hname)

/-- A merge that does what the overlay says had what it needs. -/
theorem mergeable_of_mergesOverlay (hpy : py.checker.Lawful) {heap : List (SettingsInfo φ)}
    {base : Fin heap.length} (hbase : ValidSettings py (heap.get base))
    (hoverlay : ReadOverlay py overlay values)
    (h : MergesOverlay py heap base overlay values) :
    Mergeable py (heap.get base) overlay values := by
  obtain ⟨settings, merged, hread, hcheck, hnamed, hother⟩ :=
    (mergesOverlay_iff_read hbase hoverlay).mp h
  have hsame := derivedValue_readSettings hpy hbase hoverlay hread
  have hget : ∀ name, merged.get name =
      (derivedValue py (overlaidValue (heap.get base) overlay values) name).or
        (settings.get name) := by
    intro name
    rw [get_checkAfter hcheck, hsame.1]
  constructor
  case kept =>
    intro f hf hnone hfrom
    have hvalue := (hother f.name hnone hfrom).trans (hbase.get_field hf).1
    rw [hget] at hvalue
    cases hderived : derivedValue py (overlaidValue (heap.get base) overlay values) f.name with
    | some v =>
      rw [hderived] at hvalue
      cases hvalue
      exact kept_of_derived hbase hf (derivedValue_base hnone hfrom hderived)
    | none =>
      rw [hderived] at hvalue
      obtain ⟨w, hw, hwread⟩ := get_readSettings hread hf
      cases hw.symm.trans hvalue
      rw [read_overlaid hbase overlay hf, hnone, below_eq_ok] at hwread
      exact (settingsFields_lawful hpy f hf).kept_of_check _ _ (hbase.get_field hf).2 hwread
  case extra =>
    intro p hp
    have hunknown := hbase.extra p hp
    have hnone : overlay.get p.1 = none := by
      by_contra hsome
      rw [known_of_get hoverlay (Option.isSome_iff_ne_none.mpr hsome)] at hunknown
      cases hunknown
    have hderived : ¬ (derivedValue py (overlaidValue (heap.get base) overlay values) p.1).isSome =
        true := by
      intro hsome
      rw [known_of_derived hsome] at hunknown
      cases hunknown
    have hextra : (heap.get base).get p.1 = some p.2 :=
      (get_eq_extra hbase hunknown).trans (Dict.lookup_of_mem hbase.distinct hp)
    have hvalue := (hother p.1 hnone fun hfrom ↦ hderived hfrom.1).trans hextra
    rw [hget, Option.not_isSome_iff_eq_none.mp hderived, Option.none_or,
      get_readSettings_extra hbase hoverlay hread hunknown, hextra] at hvalue
    rw [← Option.some.inj hvalue]
    exact p.2.plain_dump
  case consistent => exact hsame.2.mp (checkAfter_isOk.mp ⟨merged, hcheck⟩)
  case derived =>
    intro name hsome v hv
    have hvalue := hnamed name hsome
    rw [hget, hv] at hvalue
    exact Option.some.inj hvalue

end

/-! ## Default settings -/

/-- Floats that are integers; no class has a base and no object is called. -/
def plainInstances : Instances Int where
  within x := Bound.holds x
  subclass _ _ := false
  callable _ := false

/-- Values of the type are read, others raise. -/
def strictChecker : Checker Int where
  toInstances := plainInstances
  conform t v := if t.holds plainInstances v then .ok v else .error "Input should be valid"

/-- An interpreter that finds no modules. -/
def strictPython : Python Int where
  checker := strictChecker
  ofInt := id
  isZero x := x == 0
  lessFloat _ _ := false
  format _ := ""
  upper := id
  knowsEncoding name := name == "utf-8"
  importObject _ _ := .error "No module"
  componentAttribute _ := none
  classAttribute _ := false

theorem strictChecker_lawful : strictChecker.Lawful where
  conform_of_holds t v h := if_pos h
  holds_of_conform t v w h := by
    change (if t.holds plainInstances v = true then Except.ok v else .error _) = _ at h
    split at h
    · next hholds =>
      cases h
      exact hholds
    · cases h
  plain_of_conform t v w hplain h := by
    change (if t.holds plainInstances v = true then Except.ok v else .error _) = _ at h
    split at h
    · cases h
      exact hplain
    · cases h

theorem knowsDefaults_strictPython : KnowsDefaults strictPython where
  within n b := rfl
  upper := rfl
  encoding := by decide

/-- `settings_overlay = {"TIMEOUT": 5}`. -/
def timeoutOverlay : Dict String (Datum Int) where
  entries := [("TIMEOUT", .atom (.int 5))]
  nodup := List.nodup_singleton _

theorem get_timeoutOverlay (name : String) : timeoutOverlay.get name =
    if "TIMEOUT" = name then some (.atom (.int 5)) else none := rfl

theorem readOverlay_timeout :
    ReadOverlay strictPython timeoutOverlay fun _ ↦ .atom (.int 5) where
  nonempty := List.cons_ne_nil _ _
  known := by
    intro entry hentry
    cases List.mem_singleton.mp hentry
    decide
  read := by
    intro f hf raw hraw
    rw [get_timeoutOverlay] at hraw
    split at hraw
    · next hname =>
      cases hraw
      have hmem : Row.field strictPython ⟨"TIMEOUT", .optional (.int []), some (.int 30)⟩ ∈
          settingsFields strictPython := by simp [settingsFields, requestRows]
      cases List.inj_on_of_nodup_map nodup_settingsFields hmem hf hname
      rfl
    · cases hraw

/-- Nothing is lost of default settings without components. -/
theorem mergeable_timeout : Mergeable strictPython (defaultSettings strictPython .none)
    timeoutOverlay fun _ ↦ .atom (.int 5) where
  kept f hf _ _ := by
    obtain ⟨v, hv, hkept⟩ := kept_defaultSettings.of_lookup nodup_settingsFields hf
    have hvalue : (defaultSettings strictPython .none).value f.name = v := by
      rw [SettingsInfo.value, SettingsInfo.get, hv]
      rfl
    rw [hvalue]
    exact hkept
  extra p hp := by cases hp
  consistent := by
    refine ⟨.inl rfl, fun h ↦ ?_⟩
    have hsessions : truthy strictPython (overlaidValue (defaultSettings strictPython .none)
        timeoutOverlay (fun _ ↦ .atom (.int 5)) "SCHEDULER_PERSIST_SESSIONS") = false := rfl
    rw [hsessions] at h
    cases h
  derived name hsome v hv := by
    rw [get_timeoutOverlay] at hsome
    split at hsome
    · next hname =>
      subst hname
      rcases derivedValue_names hv with ⟨h, -⟩ | ⟨h, -⟩ | ⟨h, -⟩
      · exact absurd h (by decide)
      · exact absurd h (by decide)
      · exact absurd h (by decide)
    · cases hsome

/-- `ComponentInfo()`. -/
def noComponents : Datum Int := .record "ComponentInfo" [("value", .list [])]

theorem valid_noComponents : (componentInfo strictPython).type.Valid noComponents := by
  have hfits : ∀ row ∈ componentRows, row.fits = true := by decide
  exact valid_record knowsDefaults_strictPython rfl hfits rfl

/-- An overlay is merged as it says exactly when the merge has what it needs. -/
theorem mergesOverlay_iff {values : String → Datum φ} {overlay : Dict String (Datum φ)}
    (hpy : py.checker.Lawful) {heap : List (SettingsInfo φ)} {base : Fin heap.length}
    (hbase : ValidSettings py (heap.get base))
    (hoverlay : ReadOverlay py overlay values) :
    MergesOverlay py heap base overlay values ↔ Mergeable py (heap.get base) overlay values :=
  ⟨mergeable_of_mergesOverlay hpy hbase hoverlay, mergesOverlay_of_mergeable hpy hbase hoverlay⟩

theorem mergesOverlay_timeout :
    MergesOverlay strictPython [defaultSettings strictPython .none] ⟨0, Nat.one_pos⟩
      timeoutOverlay fun _ ↦ .atom (.int 5) :=
  (mergesOverlay_iff strictChecker_lawful
    (valid_defaultSettings knowsDefaults_strictPython (.inl rfl)) readOverlay_timeout).mpr
      mergeable_timeout

/-- The default settings cannot be merged with any overlay: their components are lost. -/
theorem default_components_lost :
    ¬ ∀ (py : Python Int) (heap : List (SettingsInfo Int)) (base : Fin heap.length)
      (overlay : Dict String (Datum Int)) (values : String → Datum Int), py.checker.Lawful →
      ValidSettings py (heap.get base) → ReadOverlay py overlay values →
      MergesOverlay py heap base overlay values := by
  intro hall
  have hvalid : ValidSettings strictPython (defaultSettings strictPython noComponents) :=
    valid_defaultSettings knowsDefaults_strictPython (.inr valid_noComponents)
  have hmerge := hall strictPython [defaultSettings strictPython noComponents] ⟨0, Nat.one_pos⟩
    timeoutOverlay (fun _ ↦ .atom (.int 5)) strictChecker_lawful hvalid readOverlay_timeout
  have hneeds := mergeable_of_mergesOverlay strictChecker_lawful hvalid readOverlay_timeout hmerge
  have hmem : componentField strictPython "EXTENSIONS_PATH" ∈ settingsFields strictPython := by
    simp [settingsFields, componentFields]
  have hkept : noComponents = .none := by
    apply hneeds.kept _ hmem rfl
    rintro ⟨-, ⟨h, -⟩ | ⟨h, -⟩ | ⟨h, -⟩⟩
    · exact absurd h (by decide)
    · exact absurd h (by decide)
    · exact absurd h (by decide)
  cases hkept

end ScrapyCffi.Settings
