import ScrapyCffi.Protobuf.Inferred

/-!
# Definitions as dictionaries

`decode_message` returns its definition as a dictionary, and `encode_message` takes one. An inferred
definition that is written and read back says what it said.
-/

namespace ScrapyCffi.Protobuf

open ScrapyCffi.Base

theorem altsToDict_eq_map (types : List (Text × FieldType)) :
    altsToDict types = types.map fun entry ↦ (entry.1, entry.2.toDict) := by
  induction types with
  | nil => rfl
  | cons entry rest ih =>
    obtain ⟨altNumber, type⟩ := entry
    rw [altsToDict, ih, List.map_cons]

theorem lookup_map_snd {α β : Type} (g : α → β) (key : Text) (entries : List (Text × α)) :
    Dict.lookup key (entries.map fun entry ↦ (entry.1, g entry.2)) =
      (Dict.lookup key entries).map g :=
  Dict.lookup_map Function.injective_id g key entries

theorem lookup_filter_ne {α : Type} {key other : Text} (h : key ≠ other)
    (entries : List (Text × α)) :
    Dict.lookup key (entries.filter fun entry ↦ entry.1 ≠ other) = Dict.lookup key entries := by
  induction entries with
  | nil => rfl
  | cons entry rest ih =>
    by_cases hother : entry.1 = other
    · have hkey : ¬entry.1 = key := fun heq ↦ h (heq.symm.trans hother)
      rw [List.filter_cons_of_neg (by simpa using hother), ih, Dict.lookup, if_neg hkey]
    · rw [List.filter_cons_of_pos (by simpa using hother), Dict.lookup, Dict.lookup, ih]

/-- The alternatives stand before the types that there were. -/
theorem lookup_altsFromDict {alts : List (Text × AltTypedef)} (hnodup : (alts.map Prod.fst).Nodup)
    (types : List (Text × FieldType)) (altTypeId : Text) :
    Dict.lookup altTypeId (altsFromDict alts types) =
      ((Dict.lookup altTypeId alts).map FieldType.fromDict).or (Dict.lookup altTypeId types) := by
  induction alts generalizing types with
  | nil => rfl
  | cons entry rest ih =>
    obtain ⟨altNumber, alt⟩ := entry
    rw [List.map_cons, List.nodup_cons] at hnodup
    rw [altsFromDict, ih hnodup.2, Dict.lookup_assign, Dict.lookup]
    by_cases hid : altNumber = altTypeId
    · rw [if_pos hid, if_pos hid.symm, Dict.lookup_eq_none.mpr (hid ▸ hnodup.1)]
      rfl
    · rw [if_neg hid, if_neg (Ne.symm hid)]

theorem nodup_altsFromDict (alts : List (Text × AltTypedef)) {types : List (Text × FieldType)}
    (h : (types.map Prod.fst).Nodup) : ((altsFromDict alts types).map Prod.fst).Nodup := by
  induction alts generalizing types with
  | nil => exact h
  | cons entry rest ih =>
    obtain ⟨altNumber, alt⟩ := entry
    exact ih (Dict.nodup_assign h)

/-- A type written as a dictionary and read back. -/
def FieldType.reread (type : FieldType) : FieldType := .fromDict type.toDict

theorem reread_named (name : TypeName) : FieldType.reread (.named name) = .named name := rfl

theorem reread_message (t : TypeDef) :
    FieldType.reread (.message t) = .message (.fromDict t.toDict) := rfl

/-- The type under "0". -/
theorem typeFromDict_toDict {fieldId : Text} {f : FieldDef} (h : InferredField fieldId f) :
    typeFromDict f.toDict.type f.toDict.messageTypedef =
      ((Dict.lookup "0".toList f.types).map fun type ↦ ("0".toList, type.reread)).toList := by
  obtain ⟨name, id, messageTypeName, types, seenRepeated, fieldOrder⟩ := f
  rw [FieldDef.toDict]
  dsimp only
  rw [altsToDict_eq_map, lookup_map_snd]
  cases hzero : Dict.lookup "0".toList types with
  | none => rfl
  | some type =>
    cases type with
    | named name =>
      obtain ⟨kind, rfl, -⟩ := h.types.named _ _ hzero
      rfl
    | message c => rfl

theorem isSome_type_toDict {fieldId : Text} {f : FieldDef} (h : InferredField fieldId f)
    (hne : f.types ≠ []) : f.toDict.type.isSome = true := by
  obtain ⟨type, hzero⟩ := h.types.zero hne
  obtain ⟨name, id, messageTypeName, types, seenRepeated, fieldOrder⟩ := f
  rw [FieldDef.toDict]
  dsimp only
  rw [altsToDict_eq_map, lookup_map_snd, show Dict.lookup "0".toList types = some type from hzero]
  cases type with
  | named name =>
    obtain ⟨kind, rfl, -⟩ := h.types.named _ _ hzero
    rfl
  | message c => rfl

/-- The other types. -/
theorem altTypedefs_toDict {fieldId : Text} {f : FieldDef} (h : InferredField fieldId f) :
    f.toDict.altTypedefs = (altsToDict f.types).filter fun entry ↦ entry.1 ≠ "0".toList := by
  have hcases : f.toDict.altTypedefs = if f.toDict.type.isSome ∧ f.types.length > 1 then
      (altsToDict f.types).filter fun entry ↦ entry.1 ≠ "0".toList else [] := by
    cases f
    rfl
  rw [hcases]
  cases htypes : f.types with
  | nil =>
    rw [if_neg (by simp)]
    rfl
  | cons entry rest =>
    have hne : f.types ≠ [] := by
      rw [htypes]
      exact List.cons_ne_nil entry rest
    cases rest with
    | cons next more => rw [if_pos ⟨isSome_type_toDict h hne, by simp⟩]
    | nil =>
      obtain ⟨type, hzero⟩ := h.types.zero hne
      rw [htypes, Dict.lookup] at hzero
      rw [if_neg (by simp), altsToDict_eq_map]
      split at hzero
      · next hid =>
        rw [List.map_cons, List.filter_cons_of_neg (by simpa using hid)]
        rfl
      · cases hzero

/-- A field written as a dictionary and read back. -/
theorem reread_field {fieldId : Text} {f : FieldDef} (h : InferredField fieldId f) :
    (FieldDef.fromDict f.toDict fieldId).name = none ∧
      (FieldDef.fromDict f.toDict fieldId).fieldId = fieldId ∧
      ((FieldDef.fromDict f.toDict fieldId).types.map Prod.fst).Nodup ∧
      ∀ altTypeId, Dict.lookup altTypeId (FieldDef.fromDict f.toDict fieldId).types =
        (Dict.lookup altTypeId f.types).map FieldType.reread := by
  have htypes : (FieldDef.fromDict f.toDict fieldId).types = altsFromDict f.toDict.altTypedefs
      (typeFromDict f.toDict.type f.toDict.messageTypedef) := by
    cases f
    rfl
  have hname : (FieldDef.fromDict f.toDict fieldId).name = f.name.filter (· ≠ []) := by
    cases f
    rfl
  have hfieldId : (FieldDef.fromDict f.toDict fieldId).fieldId = fieldId := by
    cases f
    rfl
  have halts : ((altsToDict f.types).map Prod.fst).Nodup := by
    rw [altsToDict_eq_map, List.map_map]
    exact h.types.nodup
  have hothers : (((altsToDict f.types).filter fun entry ↦ entry.1 ≠ "0".toList).map
      Prod.fst).Nodup := halts.sublist (List.filter_sublist.map _)
  refine ⟨by rw [hname, h.name]; rfl, hfieldId, ?_, fun altTypeId ↦ ?_⟩
  · rw [htypes, typeFromDict_toDict h]
    apply nodup_altsFromDict
    cases Dict.lookup "0".toList f.types with
    | none => exact List.nodup_nil
    | some type => exact List.nodup_singleton _
  · rw [htypes, altTypedefs_toDict h, lookup_altsFromDict hothers, typeFromDict_toDict h]
    by_cases hid : altTypeId = "0".toList
    · have hnone : Dict.lookup altTypeId
          ((altsToDict f.types).filter fun entry ↦ entry.1 ≠ "0".toList) = none := by
        rw [Dict.lookup_eq_none]
        intro hmem
        obtain ⟨entry, hentry, heq⟩ := List.mem_map.mp hmem
        rw [List.mem_filter, decide_eq_true_iff] at hentry
        exact hentry.2 (heq.trans hid)
      rw [hnone, hid]
      cases Dict.lookup "0".toList f.types with
      | none => rfl
      | some type => rfl
    · rw [lookup_filter_ne hid, altsToDict_eq_map, lookup_map_snd]
      have hbase : Dict.lookup altTypeId ((Dict.lookup "0".toList f.types).map fun type ↦
          ("0".toList, type.reread)).toList = none := by
        cases Dict.lookup "0".toList f.types with
        | none => rfl
        | some type =>
          rw [Option.map_some, Option.toList, Dict.lookup, if_neg (Ne.symm hid)]
          rfl
      rw [hbase, Option.or_none, Option.map_map]
      rfl

/-! ### Whole definitions -/

theorem lookup_fieldsFromDict (fields : List (Text × FieldDef)) (fieldId : Text) :
    Dict.lookup fieldId (fieldsFromDict (fieldsToDict fields)) =
      (Dict.lookup fieldId fields).map fun f ↦ .fromDict f.toDict fieldId := by
  induction fields with
  | nil => rfl
  | cons entry rest ih =>
    obtain ⟨id, f⟩ := entry
    rw [fieldsToDict, fieldsFromDict, Dict.lookup, Dict.lookup, ih]
    by_cases hid : id = fieldId
    · rw [if_pos hid, if_pos hid, hid]
      rfl
    · rw [if_neg hid, if_neg hid]

theorem map_fst_fieldsFromDict (fields : List (Text × FieldDef)) :
    (fieldsFromDict (fieldsToDict fields)).map Prod.fst = fields.map Prod.fst := by
  induction fields with
  | nil => rfl
  | cons entry rest ih =>
    obtain ⟨id, f⟩ := entry
    rw [fieldsToDict, fieldsFromDict, List.map_cons, ih, List.map_cons]

/-- Fields without names give no names. -/
theorem fieldNames_fromDict {fields : List (Text × FieldDef)}
    (h : ∀ entry ∈ fields, entry.2.name = none)
    (names : List (Text × Text)) :
    (fieldsToDict fields).foldl (fun names entry ↦
      match entry.2.name with
      | some name => if name = [] then names else Dict.assign name entry.1 names
      | none => names) names = names := by
  induction fields with
  | nil => rfl
  | cons entry rest ih =>
    obtain ⟨id, f⟩ := entry
    have hname : f.toDict.name = f.name.filter (· ≠ []) := by
      cases f
      rfl
    have hnone : f.name = none := h _ List.mem_cons_self
    rw [fieldsToDict, List.foldl_cons]
    dsimp only
    rw [hname, hnone]
    exact ih fun entry hentry ↦ h entry (List.mem_cons_of_mem _ hentry)

/-- An inferred definition that is written as a dictionary and read back says what it said. -/
theorem reread_inferred {t : TypeDef} (h : Inferred t) :
    Inferred (.fromDict t.toDict) ∧ t.Extends (.fromDict t.toDict) := by
  induction h with
  | @mk t names nodup fields named nested ih =>
    have hinferred : Inferred t := .mk names nodup fields named nested
    have hlookup : ∀ fieldId, Dict.lookup fieldId (TypeDef.fromDict t.toDict).fields =
        (Dict.lookup fieldId t.fields).map fun f ↦ .fromDict f.toDict fieldId := by
      intro fieldId
      cases t
      exact lookup_fieldsFromDict _ fieldId
    constructor
    · apply Inferred.of_fields
      · cases t
        apply fieldNames_fromDict
        intro entry hentry
        exact (hinferred.field (Dict.lookup_of_mem nodup hentry)).name
      · cases t
        rw [← map_fst_fieldsFromDict] at nodup
        exact nodup
      · intro fieldId f' hf'
        rw [hlookup] at hf'
        obtain ⟨f, hf, rfl⟩ := Option.map_eq_some_iff.mp hf'
        have hfield := hinferred.field hf
        obtain ⟨hname, hid, htypes, hall⟩ := reread_field hfield
        refine ⟨hname, hid, htypes, ?_, ?_, ?_⟩
        · intro hne
          have hsome : f.types ≠ [] := by
            intro hnil
            apply hne
            apply List.eq_nil_iff_forall_not_mem.mpr
            intro entry hentry
            have hmem := Dict.lookup_of_mem htypes hentry
            rw [hall, hnil] at hmem
            cases hmem
          obtain ⟨type, htype⟩ := hfield.types.zero hsome
          exact ⟨type.reread, by rw [hall, htype, Option.map_some]⟩
        · intro altTypeId name hnamed
          rw [hall] at hnamed
          obtain ⟨type, htype, heq⟩ := Option.map_eq_some_iff.mp hnamed
          cases type with
          | named name' =>
            cases heq
            exact hfield.types.named altTypeId name htype
          | message c => cases heq
        · intro altTypeId c hc
          rw [hall] at hc
          obtain ⟨type, htype, heq⟩ := Option.map_eq_some_iff.mp hc
          cases type with
          | named name => cases heq
          | message c' =>
            cases heq
            exact (ih fieldId f altTypeId c' hf htype).1
    · apply TypeDef.Extends.of_typeAt
      intro fieldId altTypeId type htype
      obtain ⟨f, hf, halt⟩ := Option.bind_eq_some_iff.mp htype
      obtain ⟨-, -, -, hall⟩ := reread_field (hinferred.field hf)
      refine ⟨type.reread, ?_, ?_⟩
      · rw [TypeDef.typeAt, hlookup, hf, Option.map_some, Option.bind_some, hall, halt,
          Option.map_some]
      · cases type with
        | named name => exact .refl _
        | message c => exact (ih fieldId f altTypeId c hf halt).2

end ScrapyCffi.Protobuf
