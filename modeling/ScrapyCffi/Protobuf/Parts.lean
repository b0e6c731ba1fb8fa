import ScrapyCffi.Protobuf.Contents
import ScrapyCffi.Protobuf.Inferred

/-!
# Decoded values stand for fields

A part of a decoded message is what stands under one of its keys, with the fields that it was read
from. A message made of such parts is encoded to the same fields, by its definition and by every
later one that extends it.
-/

namespace ScrapyCffi.Protobuf

open ScrapyCffi.Base

variable (floats : Floats) (config : Config)

/-- A decoded message is encoded to the same fields, by every definition that extends this one. -/
def Reproduces (entries : List (Text × Value)) (t : TypeDef) (m : Bytes) : Prop :=
  ∀ t', Inferred t' → t.Extends t' → ∀ path order, ∃ fs gs outputs,
    m = serialize fs ∧ SameFields fs gs ∧
      encodeFields floats config entries t' path [] = .ok outputs ∧
      assemble config order outputs = serialize gs

/-- A value stands for a field under a type. -/
inductive Represents : FieldType → Value → WireField → Prop
  | kind {k : Kind} {value : Value} {f : WireField} (single : ∀ s, k ≠ .packed s)
      (h : Stands floats k value f.content) : Represents (.named (.kind k)) value f
  | message {t : TypeDef} {entries : List (Text × Value)} {number : Nat} (small : number < 2 ^ 61)
      {payload : Bytes} (short : payload.length < 2 ^ 63)
      (h : Reproduces floats config entries t payload) :
      Represents (.message t) (.message entries) ⟨number, .lengthDelimited payload short, small⟩

variable {floats config}

theorem Represents.extends {type type' : FieldType} {value : Value} {f : WireField}
    (h : Represents floats config type value f) (hextends : type.Extends type') :
    Represents floats config type' value f := by
  cases h with
  | kind single h =>
    rw [hextends.of_named]
    exact .kind single h
  | message small short h =>
    obtain ⟨t', rfl, ht'⟩ := hextends.of_message
    exact .message small short fun t'' ht'' hmore ↦ h t'' ht'' (ht'.trans hmore)

theorem Represents.isList_eq_false {type : FieldType} {value : Value} {f : WireField}
    (h : Represents floats config type value f) : value.isList = false := by
  cases h with
  | kind single h => exact h.2.1
  | message small short h => rfl

/-! ### A list, or its only element -/

/-- A value for some outputs: their list, or the only one of them. -/
def Presents (value : Value) (outputs : List Value) : Prop :=
  value = .list outputs ∨ outputs = [value]

theorem encodeKind_list {k : Kind} (single : ∀ s, k ≠ .packed s) (items : List Value) :
    encodeKind floats k (.list items) = items.mapM (k.encode floats) := by
  cases k with
  | packed s => exact absurd rfl (single s)
  | scalar | bytes | bytesHex | string => rfl

theorem encodeKind_solo {k : Kind} {value : Value} (h : value.isList = false) :
    encodeKind floats k value = (k.encode floats value).map ([·]) := by
  cases value with
  | list items => cases h
  | int | float | str | bytes | message => rfl

theorem encodeKind_of_presents {k : Kind} (single : ∀ s, k ≠ .packed s)
    {items : List (Value × WireField)} (hitems : ∀ q ∈ items, Stands floats k q.1 q.2.content)
    {value : Value} (h : Presents value (items.map Prod.fst)) :
    encodeKind floats k value = .ok (items.map fun q ↦ q.2.content.bytes) := by
  have hall : (items.map Prod.fst).mapM (k.encode floats) =
      .ok (items.map fun q ↦ q.2.content.bytes) := by
    rw [mapM_eq_ok_iff, List.forall₂_map_left_iff, List.forall₂_map_right_iff,
      List.forall₂_same]
    exact fun q hq ↦ (hitems q hq).1
  rcases h with rfl | hsolo
  · rw [encodeKind_list single, hall]
  · cases items with
    | nil => cases hsolo
    | cons q rest =>
      rw [List.map_cons, List.cons.injEq, List.map_eq_nil_iff] at hsolo
      obtain ⟨rfl, rfl⟩ := hsolo
      obtain ⟨hencode, hlist, -⟩ := hitems q List.mem_cons_self
      rw [encodeKind_solo hlist, hencode]
      rfl

theorem encodeMessages_of_presents {items : List Value} (hitems : ∀ x ∈ items, x.isList = false)
    {value : Value} (h : Presents value items) (t : TypeDef) (path : List Text)
    (order : Option (List Text)) :
    encodeMessages floats config value t path order =
      encodeItems floats config items t path order := by
  rcases h with rfl | rfl
  · rw [encodeMessages]
  · have hlist := hitems value List.mem_cons_self
    cases value with
    | list items => cases hlist
    | message entries =>
      rw [encodeMessages, encodeItems, encodeItems, encodeMessage]
      cases encodeFields floats config entries t path [] with
      | error e => rfl
      | ok outputs =>
        show (encodeLengthPrefixed _ >>= _) = (encodeLengthPrefixed _ >>= _)
        cases encodeLengthPrefixed (assemble config order outputs) with
        | error e => rfl
        | ok output => rfl
    | int | float | str | bytes => rfl

/-! ### Values of one number -/

theorem encodeTag_natCast {n wireType : Nat} (hn : n < 2 ^ 61) (hwire : wireType < 8) :
    encodeTag n wireType = .ok (Base128.bytes (8 * n + wireType)) := by
  have hvalue : (n : Int) <<< (3 : Nat) + (wireType : Int) = ((8 * n + wireType : Nat) : Int) := by
    rw [Int.shiftLeft_eq]
    omega
  rw [encodeTag, hvalue, encodeUvarint_natCast (by omega)]

/-- Messages are encoded one by one, each to the same fields. -/
theorem encodeItems_of_represents {n : Nat} {t t' : TypeDef} (ht' : Inferred t')
    (hextends : t.Extends t') {items : List (Value × WireField)}
    (hitems : ∀ q ∈ items, q.2.number = n ∧ Represents floats config (.message t) q.1 q.2)
    (path : List Text) (order : Option (List Text)) :
    ∃ hs : List WireField,
      encodeItems floats config (items.map Prod.fst) t' path order =
        .ok (hs.map fun h ↦ h.content.bytes) ∧
      SameFields (items.map Prod.snd) hs ∧
      ∀ h ∈ hs, h.number = n ∧ h.content.wireType = lengthDelimitedType := by
  induction items with
  | nil =>
    refine ⟨[], rfl, .nil, fun h hh ↦ absurd hh List.not_mem_nil⟩
  | cons q rest ih =>
    obtain ⟨hs, hrest, hsame, hall⟩ := ih fun q' hq' ↦ hitems q' (List.mem_cons_of_mem _ hq')
    obtain ⟨hnumber, hq⟩ := hitems q List.mem_cons_self
    obtain ⟨value, f⟩ := q
    cases hq with
    | message small short h =>
      obtain ⟨fs, gs, outputs, rfl, hfields, hencode, hassemble⟩ := h t' ht' hextends path order
      have hshort : (serialize gs).length < 2 ^ 63 := by
        rw [← hfields.length_serialize]
        exact short
      refine ⟨⟨_, .lengthDelimited (serialize gs) hshort, small⟩ :: hs, ?_, ?_, ?_⟩
      · rw [List.map_cons, encodeItems, encodeMessage, hencode, hrest]
        show (encodeLengthPrefixed (assemble config order outputs) >>= _) = _
        rw [hassemble, encodeLengthPrefixed_eq hshort]
        rfl
      · exact (SameFields.nested _ small hfields short hshort _).trans (.cons _ hsame)
      · intro g hg
        rcases List.mem_cons.mp hg with rfl | hg
        · exact ⟨hnumber, rfl⟩
        · exact hall g hg

/-- What stands under one key of a decoded message, with the fields that it was read from. -/
structure Part where
  number : Nat
  small : number < 2 ^ 61
  altTypeId : Text
  items : List (Value × WireField)

namespace Part

variable (p : Part)

def key : Text := keyOf (str p.number) p.altTypeId

def values : List Value := p.items.map Prod.fst

def fields : List WireField := p.items.map Prod.snd

/-- The values stand for their fields under the type of the key. -/
def Fits (floats : Floats) (config : Config) (t : TypeDef) : Prop :=
  ∃ type, t.typeAt (str p.number) p.altTypeId = some type ∧
    ∀ q ∈ p.items, q.2.number = p.number ∧ Represents floats config type q.1 q.2

end Part

theorem Part.Fits.extends {p : Part} {t t' : TypeDef} (h : p.Fits floats config t)
    (hextends : t.Extends t') : p.Fits floats config t' := by
  obtain ⟨type, htype, hitems⟩ := h
  obtain ⟨type', htype', hmore⟩ := hextends.typeAt htype
  exact ⟨type', htype', fun q hq ↦ ⟨(hitems q hq).1, (hitems q hq).2.extends hmore⟩⟩

theorem Part.Fits.number_of_mem {p : Part} {t : TypeDef} (h : p.Fits floats config t)
    {f : WireField} (hf : f ∈ p.fields) : f.number = p.number := by
  obtain ⟨type, -, hitems⟩ := h
  obtain ⟨q, hq, rfl⟩ := List.mem_map.mp hf
  exact (hitems q hq).1

/-- What stands under a key is encoded to the same fields. -/
theorem Part.Fits.encodeMessageField {p : Part} {t : TypeDef} (h : p.Fits floats config t)
    (ht : Inferred t) {value : Value} (hvalue : Presents value p.values) (path : List Text) :
    ∃ hs : List WireField,
      encodeMessageField floats config t path p.key value (encodeMessages floats config value) =
        .ok (str p.number, hs.map WireField.bytes) ∧
      SameFields p.fields hs ∧ ∀ h ∈ hs, h.number = p.number := by
  obtain ⟨type, htype, hitems⟩ := h
  obtain ⟨f, hf, hfield⟩ := ht.lookup_key htype config (path ++ [str p.number])
  have hbytes : ∀ (wireType : Nat) (hs : List WireField),
      (∀ h ∈ hs, h.number = p.number ∧ h.content.wireType = wireType) →
        (hs.map fun h ↦ h.content.bytes).map (Base128.bytes (8 * p.number + wireType) ++ ·) =
          hs.map WireField.bytes := by
    intro wireType hs hall
    rw [List.map_map]
    apply List.map_congr_left
    intro h hh
    obtain ⟨hnumber, htype⟩ := hall h hh
    rw [WireField.bytes, WireField.tag, hnumber, htype]
    rfl
  rw [Protobuf.encodeMessageField, show t.lookupFielddef p.key = some (str p.number, f) from hf]
  dsimp only
  rw [show f.lookupFieldType p.key config (path ++ [str p.number]) = .ok (some type) from hfield]
  simp only [bind, Except.bind, intOfText_str]
  cases type with
  | named name =>
    obtain ⟨kind, rfl, single⟩ := ht.typeAt_named htype
    have hstands : ∀ q ∈ p.items, Stands floats kind q.1 q.2.content := by
      intro q hq
      cases (hitems q hq).2 with
      | kind single h => exact h
    have hwire : kind.wireType < 8 := by
      cases kind with
      | scalar s => cases s <;> decide
      | bytes | bytesHex | string | packed =>
        show lengthDelimitedType < 8
        decide
    refine ⟨p.fields, ?_, .refl _, ?_⟩
    · dsimp only
      rw [encodeTag_natCast p.small hwire, encodeKind_of_presents single hstands hvalue]
      have hall := hbytes kind.wireType p.fields fun g hg ↦ by
        obtain ⟨q, hq, rfl⟩ := List.mem_map.mp hg
        exact ⟨(hitems q hq).1, (hstands q hq).2.2.symm⟩
      have hfields : (p.items.map fun q ↦ q.2.content.bytes) =
          p.fields.map fun h ↦ h.content.bytes := by
        rw [Part.fields, List.map_map]
        rfl
      rw [hfields, ← hall]
      rfl
    · intro g hg
      obtain ⟨q, hq, rfl⟩ := List.mem_map.mp hg
      exact (hitems q hq).1
  | message c =>
    have hlists : ∀ x ∈ p.values, x.isList = false := by
      intro x hx
      obtain ⟨q, hq, rfl⟩ := List.mem_map.mp hx
      exact (hitems q hq).2.isList_eq_false
    obtain ⟨hs, hencode, hsame, hall⟩ := encodeItems_of_represents (ht.typeAt_message htype)
      (.refl c) hitems (path ++ [str p.number]) f.fieldOrder
    refine ⟨hs, ?_, hsame, fun h hh ↦ (hall h hh).1⟩
    dsimp only
    rw [encodeTag_natCast p.small (by decide), encodeMessages_of_presents hlists hvalue,
      Part.values, hencode, ← hbytes lengthDelimitedType hs hall]
    rfl

/-! ### Messages -/

/-- The entries of a message are encoded one after another to the same fields. -/
theorem encodeFields_of_parts {t : TypeDef} (ht : Inferred t) {parts : List Part}
    {entries : List (Text × Value)} (path : List Text)
    (hparts : ∀ p ∈ parts, p.Fits floats config t)
    (hentries : List.Forall₂ (fun p entry ↦ entry.1 = Part.key p ∧ Presents entry.2 p.values) parts
      entries) {m : List (Nat × List WireField)} (hm : Multimap.Keyed WireField.number m) :
    ∃ (hs : List WireField) (m' : List (Nat × List WireField)),
      encodeFields floats config entries t path (toOutputs m) = .ok (toOutputs m') ∧
      Multimap.Keyed WireField.number m' ∧
      (∀ n, Multimap.under m' n = Multimap.under m n ++ hs.filter fun h ↦ h.number = n) ∧
      SameFields (parts.flatMap Part.fields) hs := by
  induction hentries generalizing m with
  | nil => exact ⟨[], m, rfl, hm, fun n ↦ (List.append_nil _).symm, .nil⟩
  | @cons p entry parts entries hentry _ ih =>
    obtain ⟨key, value⟩ := entry
    obtain ⟨rfl, hvalue⟩ := hentry
    obtain ⟨hs, hencode, hsame, hnumbers⟩ :=
      (hparts p List.mem_cons_self).encodeMessageField ht hvalue path
    obtain ⟨more, m', hrest, hm', hunder, hsame'⟩ :=
      ih (fun p' hp' ↦ hparts p' (List.mem_cons_of_mem _ hp')) (hm.extend hnumbers)
    refine ⟨hs ++ more, m', ?_, hm', fun n ↦ ?_, ?_⟩
    · rw [encodeFields, hencode]
      show encodeFields floats config entries t path (Multimap.extend (str p.number)
        (hs.map WireField.bytes) (toOutputs m)) = _
      rw [extend_toOutputs, hrest]
    · rw [hunder, Multimap.under_extend, List.filter_append]
      split
      · next hn =>
        have hall : hs.filter (fun h ↦ h.number = n) = hs := by
          apply List.filter_eq_self.mpr
          intro h hh
          rw [decide_eq_true_iff, hnumbers h hh, hn]
        rw [hall, hn, List.append_assoc]
      · next hn =>
        have hnone : hs.filter (fun h ↦ h.number = n) = [] := by
          apply List.filter_eq_nil_iff.mpr
          intro h hh
          rw [decide_eq_true_iff, hnumbers h hh]
          exact Ne.symm hn
        rw [hnone, List.nil_append]
    · rw [List.flatMap_cons]
      exact hsame.append hsame'

/-- A message made of parts for its fields is encoded to the same fields. -/
theorem reproduces_of_parts {t : TypeDef} {parts : List Part} {entries : List (Text × Value)}
    {fs : List WireField} (hparts : ∀ p ∈ parts, p.Fits floats config t)
    (hentries : List.Forall₂ (fun p entry ↦ entry.1 = Part.key p ∧ Presents entry.2 p.values) parts
      entries) (hfields : SameFields fs (parts.flatMap Part.fields)) :
    Reproduces floats config entries t (serialize fs) := by
  intro t' ht' hextends path order
  have hfits : ∀ p ∈ parts, p.Fits floats config t' := fun p hp ↦ (hparts p hp).extends hextends
  obtain ⟨hs, m, hencode, hm, hunder, hsame⟩ :=
    encodeFields_of_parts ht' path hfits hentries Multimap.Keyed.nil
  obtain ⟨gs, hassemble, hgs⟩ := exists_assemble config order hm
  have hvalues : Multimap.SameByKey WireField.number hs (Multimap.values m) := by
    intro n
    rw [hm.filter_values, hunder]
    rfl
  exact ⟨fs, gs, toOutputs m, rfl, ((hfields.trans hsame).trans (.of_sameByKey hvalues)).trans
    (.of_sameByKey hgs), hencode, hassemble⟩

end ScrapyCffi.Protobuf
