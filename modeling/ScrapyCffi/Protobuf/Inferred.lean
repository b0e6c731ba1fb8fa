import Mathlib.Data.List.TakeWhile
import ScrapyCffi.Base.Traverse
import ScrapyCffi.Protobuf.SameFields

/-!
# Inferred definitions

The definitions that decoding without one makes up: fields without names, whose types are of known
kinds or again such definitions. While more is decoded, a definition is extended and nothing of it
is taken back.
-/

namespace ScrapyCffi.Protobuf

open ScrapyCffi.Base

/-! ### Numbers as texts -/

theorem isDigit_of_mem_str {n : Nat} {c : Char} (h : c ∈ str n) : c.isDigit = true :=
  Nat.isDigit_of_mem_toDigits (by omega) (by omega) h

theorem dash_not_mem_str (n : Nat) : '-' ∉ str n := fun h ↦ by
  have hdigit := isDigit_of_mem_str h
  exact absurd hdigit (by decide)

theorem natOfDigits_str (n : Nat) : natOfDigits (str n) = some n := by
  have hall : (str n).all Char.isDigit = true :=
    List.all_eq_true.mpr fun c hc ↦ isDigit_of_mem_str hc
  have hne : str n ≠ [] := Nat.toDigits_ne_nil
  have hvalue : Nat.ofDigitChars 10 (str n) 0 = n := Nat.ofDigitChars_ten_toDigits
  rw [natOfDigits, if_pos ⟨hne, hall⟩, hvalue]

theorem intOfText_str (n : Nat) : intOfText (str n) = some (n : Int) := by
  rw [intOfText.eq_def]
  split
  · next rest heq => exact absurd (by rw [heq]; exact List.mem_cons_self) (dash_not_mem_str n)
  · next rest heq =>
    have hplus : '+' ∈ str n := by
      rw [heq]
      exact List.mem_cons_self
    exact absurd (isDigit_of_mem_str hplus) (by decide)
  · rw [natOfDigits_str, Option.map_some]

theorem intOfText_strInt (n : Int) : intOfText (strInt n) = some n := by
  rw [strInt]
  split
  · rw [intOfText, natOfDigits_str, Option.map_some]
    congr 1
    omega
  · rw [intOfText_str]
    congr 1
    omega

/-- The key of a field with one of its types. -/
def keyOf (fieldId altTypeId : Text) : Text :=
  if altTypeId = "0".toList then fieldId else fieldId ++ '-' :: altTypeId

theorem ne_dash_of_mem {fieldId : Text} (h : '-' ∉ fieldId) :
    ∀ c ∈ fieldId, decide (c ≠ '-') = true := by
  intro c hc
  rw [decide_eq_true_iff]
  intro heq
  exact h (heq ▸ hc)

theorem beforeDash_keyOf {fieldId : Text} (h : '-' ∉ fieldId) (altTypeId : Text) :
    beforeDash (keyOf fieldId altTypeId) = fieldId := by
  rw [keyOf]
  split
  · exact List.takeWhile_eq_self_iff.mpr (ne_dash_of_mem h)
  · rw [beforeDash, List.takeWhile_append_of_pos (ne_dash_of_mem h),
      List.takeWhile_cons_of_neg (by simp), List.append_nil]

theorem afterDash_keyOf {fieldId : Text} (h : '-' ∉ fieldId) (altTypeId : Text) :
    (afterDash (keyOf fieldId altTypeId)).getD "0".toList = altTypeId := by
  rw [keyOf]
  split
  · next hzero =>
    rw [afterDash, List.dropWhile_eq_nil_iff.mpr (ne_dash_of_mem h), hzero]
    rfl
  · rw [afterDash, List.dropWhile_append_of_pos (ne_dash_of_mem h),
      List.dropWhile_cons_of_neg (by simp)]
    rfl

/-! ### Extension -/

/-- The type of a field under an id. -/
def TypeDef.typeAt (t : TypeDef) (fieldId altTypeId : Text) : Option FieldType :=
  (Dict.lookup fieldId t.fields).bind fun f ↦ Dict.lookup altTypeId f.types

/-- The name of a type; a definition has none. -/
def FieldType.shape : FieldType → Option TypeName
  | .named type => some type
  | .message _ => none

/-- The type behind some fields and ids, one inside the other. -/
def FieldType.reach : List (Text × Text) → FieldType → Option FieldType
  | [], type => some type
  | _ :: _, .named _ => none
  | (fieldId, altTypeId) :: rest, .message t => (t.typeAt fieldId altTypeId).bind (reach rest)

/-- What one type says at any depth, another says too. -/
def FieldType.Extends (type type' : FieldType) : Prop :=
  ∀ path shape, (type.reach path).map FieldType.shape = some shape →
    (type'.reach path).map FieldType.shape = some shape

/-- What one definition says at any depth, another says too. -/
def TypeDef.Extends (t t' : TypeDef) : Prop := (FieldType.message t).Extends (.message t')

namespace FieldType.Extends

theorem refl (type : FieldType) : type.Extends type := fun _ _ h ↦ h

theorem trans {a b c : FieldType} (h : a.Extends b) (h' : b.Extends c) : a.Extends c :=
  fun path shape hshape ↦ h' path shape (h path shape hshape)

theorem of_named {name : TypeName} {type' : FieldType} (h : (FieldType.named name).Extends type') :
    type' = .named name := by
  have hshape := h [] (some name) rfl
  cases type' with
  | named name' =>
    cases hshape
    rfl
  | message t => cases hshape

theorem of_message {t : TypeDef} {type' : FieldType} (h : (FieldType.message t).Extends type') :
    ∃ t', type' = .message t' ∧ t.Extends t' := by
  have hshape := h [] none rfl
  cases type' with
  | named name => cases hshape
  | message t' => exact ⟨t', rfl, h⟩

end FieldType.Extends

namespace TypeDef.Extends

variable {t t' : TypeDef}

theorem refl (t : TypeDef) : t.Extends t := FieldType.Extends.refl _

theorem trans {t'' : TypeDef} (h : t.Extends t') (h' : t'.Extends t'') : t.Extends t'' :=
  FieldType.Extends.trans h h'

theorem typeAt (h : t.Extends t') {fieldId altTypeId : Text} {type : FieldType}
    (htype : t.typeAt fieldId altTypeId = some type) :
    ∃ type', t'.typeAt fieldId altTypeId = some type' ∧ type.Extends type' := by
  have hreach : ∀ path, (FieldType.message t).reach ((fieldId, altTypeId) :: path) =
      type.reach path := by
    intro path
    rw [FieldType.reach, htype, Option.bind_some]
  have hfirst := h [(fieldId, altTypeId)] type.shape (by rw [hreach]; rfl)
  cases htype' : t'.typeAt fieldId altTypeId with
  | none =>
    rw [FieldType.reach, htype'] at hfirst
    cases hfirst
  | some type' =>
    refine ⟨type', rfl, fun path shape hshape ↦ ?_⟩
    have hmore := h ((fieldId, altTypeId) :: path) shape (by rw [hreach]; exact hshape)
    rw [FieldType.reach, htype', Option.bind_some] at hmore
    exact hmore

theorem of_typeAt (h : ∀ fieldId altTypeId type, t.typeAt fieldId altTypeId = some type →
      ∃ type', t'.typeAt fieldId altTypeId = some type' ∧ type.Extends type') : t.Extends t' := by
  intro path shape hshape
  cases path with
  | nil => exact hshape
  | cons step path =>
    obtain ⟨fieldId, altTypeId⟩ := step
    rw [FieldType.reach] at hshape ⊢
    cases htype : t.typeAt fieldId altTypeId with
    | none =>
      rw [htype] at hshape
      cases hshape
    | some type =>
      obtain ⟨type', htype', hextends⟩ := h fieldId altTypeId type htype
      rw [htype, Option.bind_some] at hshape
      rw [htype', Option.bind_some]
      exact hextends path shape hshape

end TypeDef.Extends

/-- What one list of types says, another says too. -/
def TypesExtend (types types' : List (Text × FieldType)) : Prop :=
  ∀ altTypeId type, Dict.lookup altTypeId types = some type →
    ∃ type', Dict.lookup altTypeId types' = some type' ∧ type.Extends type'

theorem TypesExtend.refl (types : List (Text × FieldType)) : TypesExtend types types :=
  fun _ type h ↦ ⟨type, h, .refl type⟩

theorem TypesExtend.trans {types types' types'' : List (Text × FieldType)}
    (h : TypesExtend types types') (h' : TypesExtend types' types'') :
    TypesExtend types types'' := by
  intro altTypeId type htype
  obtain ⟨type', htype', hextends⟩ := h altTypeId type htype
  obtain ⟨type'', htype'', hextends'⟩ := h' altTypeId type' htype'
  exact ⟨type'', htype'', hextends.trans hextends'⟩

/-- A type under a new id, or in place of one that it extends. -/
theorem TypesExtend.assign {types : List (Text × FieldType)} {altTypeId : Text} {type : FieldType}
    (h : ∀ known, Dict.lookup altTypeId types = some known → known.Extends type) :
    TypesExtend types (Dict.assign altTypeId type types) := by
  intro id known hknown
  rw [Dict.lookup_assign]
  by_cases hid : id = altTypeId
  · rw [if_pos hid]
    exact ⟨type, rfl, h known (hid ▸ hknown)⟩
  · rw [if_neg hid]
    exact ⟨known, hknown, .refl known⟩

/-! ### Inferred definitions -/

/-- A kind of single values. -/
def TypeName.IsSingle (type : TypeName) : Prop := ∃ kind, type = .kind kind ∧ ∀ s, kind ≠ .packed s

/-- A definition whose fields stand once and have no names, and known types under distinct ids, of
which "0" is one. -/
inductive Inferred : TypeDef → Prop
  | mk {t : TypeDef} (names : t.fieldNames = []) (nodup : (t.fields.map Prod.fst).Nodup)
      (fields : ∀ fieldId f, Dict.lookup fieldId t.fields = some f →
        f.name = none ∧ f.fieldId = fieldId ∧ (f.types.map Prod.fst).Nodup ∧
          (f.types ≠ [] → ∃ type, Dict.lookup "0".toList f.types = some type))
      (named : ∀ fieldId f altTypeId type, Dict.lookup fieldId t.fields = some f →
        Dict.lookup altTypeId f.types = some (.named type) → type.IsSingle)
      (nested : ∀ fieldId f altTypeId c, Dict.lookup fieldId t.fields = some f →
        Dict.lookup altTypeId f.types = some (.message c) → Inferred c) : Inferred t

/-- Types of a field of an inferred definition. -/
structure InferredTypes (types : List (Text × FieldType)) : Prop where
  nodup : (types.map Prod.fst).Nodup
  zero : types ≠ [] → ∃ type, Dict.lookup "0".toList types = some type
  named : ∀ altTypeId type, Dict.lookup altTypeId types = some (.named type) → type.IsSingle
  nested : ∀ altTypeId c, Dict.lookup altTypeId types = some (.message c) → Inferred c

/-- A field of an inferred definition. -/
structure InferredField (fieldId : Text) (f : FieldDef) : Prop where
  name : f.name = none
  fieldId : f.fieldId = fieldId
  types : InferredTypes f.types

theorem Inferred.field {t : TypeDef} (h : Inferred t) {fieldId : Text} {f : FieldDef}
    (hf : Dict.lookup fieldId t.fields = some f) : InferredField fieldId f := by
  cases h with
  | mk _ _ fields named nested =>
    obtain ⟨hname, hid, hnodup, hzero⟩ := fields fieldId f hf
    exact ⟨hname, hid, hnodup, hzero, fun altTypeId type ↦ named fieldId f altTypeId type hf,
      fun altTypeId c ↦ nested fieldId f altTypeId c hf⟩

theorem Inferred.names {t : TypeDef} (h : Inferred t) : t.fieldNames = [] := by
  cases h with
  | mk names _ _ _ _ => exact names

theorem Inferred.nodup {t : TypeDef} (h : Inferred t) : (t.fields.map Prod.fst).Nodup := by
  cases h with
  | mk _ nodup _ _ _ => exact nodup

theorem Inferred.of_fields {t : TypeDef} (names : t.fieldNames = [])
    (nodup : (t.fields.map Prod.fst).Nodup)
    (h : ∀ fieldId f, Dict.lookup fieldId t.fields = some f → InferredField fieldId f) :
    Inferred t :=
  .mk names nodup
    (fun fieldId f hf ↦ ⟨(h fieldId f hf).name, (h fieldId f hf).fieldId,
      (h fieldId f hf).types.nodup, (h fieldId f hf).types.zero⟩)
    (fun fieldId f altTypeId type hf ↦ (h fieldId f hf).types.named altTypeId type)
    fun fieldId f altTypeId c hf ↦ (h fieldId f hf).types.nested altTypeId c

theorem Inferred.empty : Inferred .empty :=
  .of_fields rfl List.nodup_nil fun _ _ h ↦ absurd h (Option.some_ne_none _).symm

theorem InferredTypes.nil : InferredTypes [] where
  nodup := List.nodup_nil
  zero := fun h ↦ absurd rfl h
  named := fun _ _ h ↦ absurd h (Option.some_ne_none _).symm
  nested := fun _ _ h ↦ absurd h (Option.some_ne_none _).symm

/-- A known type is assigned, under "0" if it is the first one. -/
theorem InferredTypes.assign {types : List (Text × FieldType)} (h : InferredTypes types)
    {altTypeId : Text} {type : FieldType} (hfirst : types = [] → altTypeId = "0".toList)
    (hnamed : ∀ name, type = .named name → name.IsSingle)
    (hnested : ∀ c, type = .message c → Inferred c) :
    InferredTypes (Dict.assign altTypeId type types) where
  nodup := Dict.nodup_assign h.nodup
  zero := by
    intro _
    rw [Dict.lookup_assign]
    by_cases hid : "0".toList = altTypeId
    · rw [if_pos hid]
      exact ⟨type, rfl⟩
    · rw [if_neg hid]
      exact h.zero fun hnil ↦ hid (hfirst hnil).symm
  named := by
    intro id name hname
    rw [Dict.lookup_assign] at hname
    split at hname
    · exact hnamed name (Option.some.inj hname)
    · exact h.named id name hname
  nested := by
    intro id c hc
    rw [Dict.lookup_assign] at hc
    split at hc
    · exact hnested c (Option.some.inj hc)
    · exact h.nested id c hc

/-- A field is set. -/
theorem Inferred.setFielddef {t : TypeDef} (h : Inferred t) {fieldId : Text} {f : FieldDef}
    (hf : InferredField fieldId f) : Inferred (t.setFielddef fieldId f) := by
  apply Inferred.of_fields
  · rw [TypeDef.setFielddef, hf.name]
    exact h.names
  · exact Dict.nodup_assign h.nodup
  · intro id g hg
    rw [TypeDef.setFielddef] at hg
    dsimp only at hg
    rw [Dict.lookup_assign] at hg
    split at hg
    · next hid =>
      cases hg
      rw [hid]
      exact hf
    · exact h.field hg

theorem typeAt_setFielddef (t : TypeDef) (fieldId id altTypeId : Text) (f : FieldDef) :
    (t.setFielddef fieldId f).typeAt id altTypeId =
      if id = fieldId then Dict.lookup altTypeId f.types else t.typeAt id altTypeId := by
  rw [TypeDef.typeAt, TypeDef.setFielddef]
  dsimp only
  rw [Dict.lookup_assign]
  split
  · rw [Option.bind_some]
  · rfl

/-- The definition of a field, a new one if there is none. -/
def TypeDef.fielddef (t : TypeDef) (fieldId : Text) : FieldDef :=
  (t.lookupFielddefNumber fieldId).getD (.fresh fieldId)

theorem Inferred.fielddef {t : TypeDef} (h : Inferred t) (fieldId : Text) :
    InferredField fieldId (t.fielddef fieldId) := by
  rw [TypeDef.fielddef, TypeDef.lookupFielddefNumber]
  cases hlookup : Dict.lookup fieldId t.fields with
  | none => exact ⟨rfl, rfl, .nil⟩
  | some f => exact h.field hlookup

theorem TypeDef.typeAt_eq_fielddef (t : TypeDef) (fieldId altTypeId : Text) :
    t.typeAt fieldId altTypeId = Dict.lookup altTypeId (t.fielddef fieldId).types := by
  rw [TypeDef.typeAt, TypeDef.fielddef, TypeDef.lookupFielddefNumber]
  cases Dict.lookup fieldId t.fields with
  | none => rfl
  | some f => rfl

/-- A field whose types are extended extends the definition. -/
theorem TypeDef.Extends.setFielddef {t : TypeDef} {fieldId : Text} {f : FieldDef}
    (h : TypesExtend (t.fielddef fieldId).types f.types) :
    t.Extends (t.setFielddef fieldId f) := by
  apply TypeDef.Extends.of_typeAt
  intro id altTypeId type htype
  rw [typeAt_setFielddef]
  split
  · next hid =>
    rw [hid, TypeDef.typeAt_eq_fielddef] at htype
    exact h altTypeId type htype
  · exact ⟨type, htype, .refl type⟩

theorem Inferred.typeAt_named {t : TypeDef} (h : Inferred t) {fieldId altTypeId : Text}
    {type : TypeName} (htype : t.typeAt fieldId altTypeId = some (.named type)) :
    type.IsSingle := by
  rw [TypeDef.typeAt_eq_fielddef] at htype
  exact (h.fielddef fieldId).types.named altTypeId type htype

theorem Inferred.typeAt_message {t c : TypeDef} (h : Inferred t) {fieldId altTypeId : Text}
    (htype : t.typeAt fieldId altTypeId = some (.message c)) : Inferred c := by
  rw [TypeDef.typeAt_eq_fielddef] at htype
  exact (h.fielddef fieldId).types.nested altTypeId c htype

/-! ### Looking up -/

theorem FieldDef.label_of_inferred {fieldId : Text} {f : FieldDef} (h : InferredField fieldId f) :
    f.label = fieldId := by
  rw [label, h.name]
  exact h.fieldId

theorem FieldDef.fieldKey_of_inferred {fieldId : Text} {f : FieldDef} (h : InferredField fieldId f)
    (altTypeId : Text) : f.fieldKey altTypeId = keyOf fieldId altTypeId := by
  rw [fieldKey, keyOf, label_of_inferred h]
  split
  · rfl
  · exact List.append_assoc _ _ _

/-- No known type is one to be looked up by a name. -/
theorem not_isSingle_message : ¬(TypeName.other "message").IsSingle := by
  rintro ⟨kind, heq, -⟩
  cases heq

theorem FieldDef.resolveTypes_of_inferred {fieldId : Text} {f : FieldDef}
    (h : InferredField fieldId f) (config : Config) (path : List Text) :
    f.resolveTypes config path = .ok f.types := by
  rw [resolveTypes]
  split
  · next heq => exact absurd (h.types.named _ _ heq) not_isSingle_message
  · rfl

theorem FieldDef.lookupFieldTypeNumber_of_inferred {fieldId : Text} {f : FieldDef}
    (h : InferredField fieldId f) (altTypeId : Text) (config : Config) (path : List Text) :
    f.lookupFieldTypeNumber altTypeId config path = .ok (Dict.lookup altTypeId f.types) := by
  rw [lookupFieldTypeNumber]
  split
  · next heq => rw [heq]
  · next heq => exact absurd (h.types.named _ _ heq) not_isSingle_message
  · next heq => rw [heq]

/-- The type of a key, as the encoder looks it up. -/
theorem Inferred.lookup_key {t : TypeDef} (h : Inferred t) {n : Nat} {altTypeId : Text}
    {type : FieldType} (htype : t.typeAt (str n) altTypeId = some type) (config : Config)
    (path : List Text) :
    ∃ f, t.lookupFielddef (keyOf (str n) altTypeId) = some (str n, f) ∧
      f.lookupFieldType (keyOf (str n) altTypeId) config path = .ok (some type) := by
  rw [TypeDef.typeAt] at htype
  obtain ⟨f, hf, halt⟩ := Option.bind_eq_some_iff.mp htype
  refine ⟨f, ?_, ?_⟩
  · rw [TypeDef.lookupFielddef, beforeDash_keyOf (dash_not_mem_str n), h.names]
    show (Dict.lookup (str n) t.fields).map _ = _
    rw [hf]
    rfl
  · rw [FieldDef.lookupFieldType, afterDash_keyOf (dash_not_mem_str n),
      FieldDef.lookupFieldTypeNumber_of_inferred (h.field hf), halt]

/-! ### New ids -/

/-- A number above all ids. -/
def AboveIds (next : Int) (types : List (Text × FieldType)) : Prop :=
  ∀ entry ∈ types, ∃ n, intOfText entry.1 = some n ∧ n < next

theorem le_foldl_max (first : Int) (rest : List Int) :
    first ≤ rest.foldl max first ∧ ∀ n ∈ rest, n ≤ rest.foldl max first := by
  induction rest generalizing first with
  | nil => exact ⟨Int.le_refl first, fun n hn ↦ absurd hn List.not_mem_nil⟩
  | cons second rest ih =>
    obtain ⟨hfirst, hrest⟩ := ih (max first second)
    rw [List.foldl_cons]
    refine ⟨by omega, fun n hn ↦ ?_⟩
    rcases List.mem_cons.mp hn with rfl | hn
    · omega
    · exact hrest n hn

theorem FieldDef.nextAltTypeId_eq_ok {f : FieldDef} {next : Int} (h : f.nextAltTypeId = .ok next) :
    AboveIds next f.types ∧ (f.types = [] → next = 0) := by
  rw [nextAltTypeId] at h
  split at h
  · cases h
  · next hids =>
    cases h
    have hnil : f.types = [] := by
      have hmap := map_eq_of_mapM_eq_some hids
      cases htypes : f.types with
      | nil => rfl
      | cons entry rest =>
        rw [htypes] at hmap
        cases hmap
    rw [hnil]
    exact ⟨fun entry hentry ↦ absurd hentry List.not_mem_nil, fun _ ↦ rfl⟩
  · next first rest hids =>
    cases h
    have hmap := map_eq_of_mapM_eq_some hids
    refine ⟨fun entry hentry ↦ ?_, fun hnil ↦ ?_⟩
    · have hmem : intOfText entry.1 ∈ (first :: rest).map some := by
        rw [← hmap]
        exact List.mem_map_of_mem hentry
      obtain ⟨n, hn, heq⟩ := List.mem_map.mp hmem
      obtain ⟨hle, hrest⟩ := le_foldl_max first rest
      refine ⟨n, heq.symm, ?_⟩
      rcases List.mem_cons.mp hn with rfl | hn
      · omega
      · have hn := hrest n hn
        omega
    · rw [hnil] at hmap
      cases hmap

/-- An id above all others is new. -/
theorem AboveIds.lookup_strInt {next : Int} {types : List (Text × FieldType)}
    (h : AboveIds next types) : Dict.lookup (strInt next) types = none := by
  rw [Dict.lookup_eq_none]
  intro hmem
  obtain ⟨entry, hentry, heq⟩ := List.mem_map.mp hmem
  obtain ⟨n, hn, hlt⟩ := h entry hentry
  rw [heq, intOfText_strInt] at hn
  cases hn
  omega

end ScrapyCffi.Protobuf
