import ScrapyCffi.Protobuf.Decode
import ScrapyCffi.Protobuf.Parts

/-!
# The contents of a field are decoded

Whatever the contents of a field are decoded to, as numbers, as messages under one or several ids,
or as texts or bytes, are parts that stand for these contents, and the definition of the field is
extended.
-/

namespace ScrapyCffi.Protobuf

open ScrapyCffi.Base

/-- The types that a configuration falls back on fit what is read: numbers of their wire type, and
bytes in one of two forms. -/
structure Config.IsPlain (config : Config) : Prop where
  numbers : ∀ wireType type, config.getDefaultType wireType = .ok type →
    ∃ s : Scalar, type = .kind (.scalar s) ∧ s.IsInt ∧ s.wireType = wireType
  binary : ∃ kind : Kind, config.defaultBinaryType = .kind kind ∧ kind.IsFallback

theorem isPlain_default : Config.default.IsPlain where
  numbers := by
    intro wireType type h
    have hdefault : wireTypeDefault wireType = some type := by
      rw [Config.getDefaultType] at h
      cases hwire : wireTypeDefault wireType with
      | none =>
        rw [hwire] at h
        cases h
      | some type' =>
        rw [hwire] at h
        cases h
        rfl
    rw [wireTypeDefault] at hdefault
    split at hdefault
    · next hwire =>
      cases hdefault
      exact ⟨.int, rfl, ⟨nofun, nofun⟩, hwire.symm⟩
    · split at hdefault
      · next hwire =>
        cases hdefault
        exact ⟨.fixed32, rfl, ⟨nofun, nofun⟩, hwire.symm⟩
      · split at hdefault
        · next hwire =>
          cases hdefault
          exact ⟨.fixed64, rfl, ⟨nofun, nofun⟩, hwire.symm⟩
        · cases hdefault
  binary := ⟨.bytes, rfl, .inr (.inl rfl)⟩

/-- The fields of one number, with contents of one wire type. -/
structure Group where
  number : Nat
  small : number < 2 ^ 61
  wireType : Nat
  fields : List WireField
  mem : ∀ f ∈ fields, f.number = number ∧ f.content.wireType = wireType

namespace Group

variable (g : Group)

/-- The contents of the fields. -/
def buffers : List Bytes := g.fields.map fun f ↦ f.content.bytes

end Group

variable (floats : Floats) (config : Config)

/-- What the fields of a number are decoded to: parts that stand for them, and a definition that
extends the one before. -/
structure Decodes (g : Group) (f : FieldDef) (outputs : List (Text × List Value)) (f' : FieldDef) :
    Prop where
  field : InferredField (str g.number) f'
  extended : TypesExtend f.types f'.types
  parts : ∃ parts : List Part,
    outputs = (parts.map fun p ↦ (p.key, p.values)) ∧ (parts.map Part.altTypeId).Nodup ∧
      (∀ p ∈ parts, p.number = g.number ∧ ∃ type, Dict.lookup p.altTypeId f'.types = some type ∧
        ∀ q ∈ p.items, q.2.number = p.number ∧ Represents floats config type q.1 q.2) ∧
      SameFields g.fields (parts.flatMap Part.fields)

variable {floats config}

/-! ### New types -/

theorem AboveIds.mono {next next' : Int} {types : List (Text × FieldType)} (h : AboveIds next types)
    (hle : next ≤ next') : AboveIds next' types := by
  intro entry hentry
  obtain ⟨n, hn, hlt⟩ := h entry hentry
  exact ⟨n, hn, by omega⟩

theorem AboveIds.assign {next : Int} {types : List (Text × FieldType)} (h : AboveIds next types)
    {altTypeId : Text} {n : Int} (hid : intOfText altTypeId = some n) (hlt : n < next)
    (type : FieldType) : AboveIds next (Dict.assign altTypeId type types) := by
  intro entry hentry
  rcases Dict.mem_assign hentry with rfl | hold
  · exact ⟨n, hid, hlt⟩
  · exact h entry hold

/-- A type is added under a new id. -/
theorem InferredField.setType_next {fieldId : Text} {f : FieldDef} (h : InferredField fieldId f)
    {next : Int} (hnext : f.nextAltTypeId = .ok next) {type : TypeName} (htype : type.IsSingle) :
    InferredField fieldId (f.setType (strInt next) (.named type)) ∧
      TypesExtend f.types (f.setType (strInt next) (.named type)).types := by
  obtain ⟨habove, hfirst⟩ := FieldDef.nextAltTypeId_eq_ok hnext
  constructor
  · refine ⟨h.name, h.fieldId, h.types.assign ?_ ?_ ?_⟩
    · intro hnil
      rw [hfirst hnil]
      rfl
    · intro name hname
      cases hname
      exact htype
    · intro c hc
      cases hc
  · apply TypesExtend.assign
    intro known hknown
    rw [habove.lookup_strInt] at hknown
    cases hknown

theorem InferredField.markRepeated {fieldId : Text} {f : FieldDef} (h : InferredField fieldId f) :
    InferredField fieldId f.markRepeated := ⟨h.name, h.fieldId, h.types⟩

/-- All contents under one id. -/
theorem decodes_of_items {g : Group} {f f' : FieldDef} (hfield : InferredField (str g.number) f')
    (hextends : TypesExtend f.types f'.types) {altTypeId : Text} {type : FieldType}
    (htype : Dict.lookup altTypeId f'.types = some type) {items : List (Value × WireField)}
    (hfields : items.map Prod.snd = g.fields)
    (hitems : ∀ q ∈ items, Represents floats config type q.1 q.2) :
    Decodes floats config g f [(f'.fieldKey altTypeId, items.map Prod.fst)] f' where
  field := hfield
  extended := hextends
  parts := by
    refine ⟨[⟨g.number, g.small, altTypeId, items⟩], ?_, List.nodup_singleton _, ?_, ?_⟩
    · rw [FieldDef.fieldKey_of_inferred hfield]
      rfl
    · intro p hp
      rw [List.mem_singleton.mp hp]
      refine ⟨rfl, type, htype, fun q hq ↦ ⟨?_, hitems q hq⟩⟩
      have hmem : q.2 ∈ g.fields := by
        rw [← hfields]
        exact List.mem_map_of_mem hq
      exact (g.mem q.2 hmem).1
    · have hflat : ([⟨g.number, g.small, altTypeId, items⟩] : List Part).flatMap Part.fields =
          g.fields := by
        rw [List.flatMap_cons, List.flatMap_nil, List.append_nil, ← hfields]
        rfl
      rw [hflat]
      exact .refl _

/-! ### Numbers -/

/-- No known type stops the loop over the types with a result. -/
theorem tryTypes_of_inferred {wireType : Nat} {buffers : List Bytes} {path : List Text}
    {types : List (Text × FieldType)}
    (htypes : ∀ altTypeId name, (altTypeId, FieldType.named name) ∈ types → name.IsSingle)
    {found : Option (Text × TypeName × List Value)}
    (h : tryTypes floats wireType buffers path types = .ok found) : found = none := by
  induction types with
  | nil =>
    cases h
    rfl
  | cons entry rest ih =>
    obtain ⟨altTypeId, type⟩ := entry
    cases type with
    | message c => exact ih (fun id name hmem ↦ htypes id name (List.mem_cons_of_mem _ hmem)) h
    | named name =>
      obtain ⟨kind, rfl, -⟩ := htypes altTypeId name List.mem_cons_self
      cases h

theorem InferredTypes.named_of_mem {types : List (Text × FieldType)} (h : InferredTypes types)
    {altTypeId : Text} {name : TypeName} (hmem : (altTypeId, FieldType.named name) ∈ types) :
    name.IsSingle :=
  h.named altTypeId name (Dict.lookup_of_mem h.nodup hmem)

/-- What all contents are read as. -/
theorem exists_items_of_decodeAll {kind : Kind} {g : Group} {values : List Value}
    (h : decodeAll floats kind g.buffers = .ok values) :
    ∃ items : List (Value × WireField), items.map Prod.fst = values ∧
      items.map Prod.snd = g.fields ∧
      ∀ q ∈ items, ∃ stop, kind.decode floats q.2.content.bytes 0 = .ok (q.1, stop) := by
  rw [decodeAll, mapM_eq_ok_iff, Group.buffers, List.forall₂_map_left_iff] at h
  obtain ⟨items, hfst, hsnd, hall⟩ := exists_pairs h
  refine ⟨items, hfst, hsnd, fun q hq ↦ ?_⟩
  have hread := hall q hq
  cases hdecode : kind.decode floats q.2.content.bytes 0 with
  | error e =>
    rw [hdecode] at hread
    cases hread
  | ok found =>
    rw [hdecode] at hread
    have heq : found.1 = q.1 := Except.ok.inj hread
    exact ⟨found.2, by rw [← heq]⟩

theorem decodeStandardField_spec (hplain : config.IsPlain) {g : Group} {f : FieldDef}
    (hf : InferredField (str g.number) f) {path : List Text} {outputs : List Value} {f' : FieldDef}
    {altTypeId : Text}
    (h : decodeStandardField floats config g.wireType g.buffers f path =
      .ok (outputs, f', altTypeId)) :
    Decodes floats config g f [(f'.fieldKey altTypeId, outputs)] f' := by
  obtain ⟨types, htypes, h⟩ := bind_eq_ok.mp h
  rw [FieldDef.resolveTypes_of_inferred hf] at htypes
  cases htypes
  obtain ⟨found, hfound, h⟩ := bind_eq_ok.mp h
  rw [tryTypes_of_inferred (fun _ _ hmem ↦ hf.types.named_of_mem hmem) hfound] at h
  obtain ⟨⟨id, type, decoded⟩, hdefault, h⟩ := bind_eq_ok.mp h
  obtain ⟨type', htype', hdefault⟩ := bind_eq_ok.mp hdefault
  obtain ⟨values, hvalues, hdefault⟩ := bind_eq_ok.mp hdefault
  obtain ⟨next, hnext, hdefault⟩ := bind_eq_ok.mp hdefault
  cases hdefault
  obtain ⟨s, rfl, hint, hwire⟩ := hplain.numbers _ _ htype'
  cases h
  have hsingle : (TypeName.kind (.scalar s)).IsSingle := ⟨.scalar s, rfl, fun _ h ↦ by cases h⟩
  obtain ⟨hfield, hextends⟩ := hf.setType_next hnext hsingle
  obtain ⟨items, rfl, hfields, hread⟩ := exists_items_of_decodeAll hvalues
  have hlookup : Dict.lookup (strInt next)
      (f.setType (strInt next) (.named (.kind (.scalar s)))).types =
        some (.named (.kind (.scalar s))) := by
    rw [FieldDef.setType, Dict.lookup_assign, if_pos rfl]
  have hitems : ∀ q ∈ items,
      Represents floats config (.named (.kind (.scalar s))) q.1 q.2 := by
    intro q hq
    have hmem : q.2 ∈ g.fields := by
      rw [← hfields]
      exact List.mem_map_of_mem hq
    obtain ⟨value, stop, hvalue, hstands⟩ :=
      exists_decodeScalar floats hint (hwire.trans (g.mem q.2 hmem).2.symm)
    obtain ⟨stop', hdecode⟩ := hread q hq
    rw [Kind.decode, hvalue] at hdecode
    cases hdecode
    exact .kind (fun _ h ↦ by cases h) hstands
  split
  · exact decodes_of_items hfield.markRepeated hextends hlookup hfields hitems
  · exact decodes_of_items hfield hextends hlookup hfields hitems

/-! ### Texts and bytes -/

theorem lookup_of_knownAltTypeId {target : TypeName} {types : List (Text × FieldType)}
    (hnodup : (types.map Prod.fst).Nodup) {altTypeId : Text}
    (h : knownAltTypeId target types = some altTypeId) :
    Dict.lookup altTypeId types = some (.named target) := by
  apply Dict.lookup_of_mem hnodup
  clear hnodup
  induction types with
  | nil => cases h
  | cons entry rest ih =>
    obtain ⟨id, type⟩ := entry
    cases type with
    | message c => exact List.mem_cons_of_mem _ (ih h)
    | named name =>
      rw [knownAltTypeId] at h
      split at h
      · next heq =>
        cases h
        rw [heq]
        exact List.mem_cons_self
      · exact List.mem_cons_of_mem _ (ih h)

theorem decodeTarget_spec {g : Group} (hwire : g.wireType = lengthDelimitedType) {f : FieldDef}
    (hf : InferredField (str g.number) f) {path : List Text} {kind : Kind} (hkind : kind.IsFallback)
    {outputs : List (Text × List Value)} {f' : FieldDef}
    (h : decodeTarget floats config g.buffers f path (.kind kind) = .ok (outputs, f')) :
    Decodes floats config g f outputs f' := by
  obtain ⟨values, hvalues, h⟩ := bind_eq_ok.mp h
  obtain ⟨types, htypes, h⟩ := bind_eq_ok.mp h
  rw [FieldDef.resolveTypes_of_inferred hf] at htypes
  cases htypes
  obtain ⟨⟨altTypeId, f''⟩, hid, h⟩ := bind_eq_ok.mp h
  cases h
  have single : ∀ s, kind ≠ .packed s := by
    intro s hpacked
    rcases hkind with rfl | rfl | rfl <;> cases hpacked
  obtain ⟨items, rfl, hfields, hread⟩ := exists_items_of_decodeAll hvalues
  have hitems : ∀ q ∈ items, Represents floats config (.named (.kind kind)) q.1 q.2 := by
    intro q hq
    have hmem : q.2 ∈ g.fields := by
      rw [← hfields]
      exact List.mem_map_of_mem hq
    obtain ⟨stop, hdecode⟩ := hread q hq
    have htype := (g.mem q.2 hmem).2.trans hwire
    cases hcontent : q.2.content with
    | lengthDelimited payload short =>
      rw [hcontent] at hdecode
      have hstands := stands_of_decode floats hkind hdecode
      rw [← hcontent] at hstands
      exact .kind single hstands
    | varint | fixed64 | fixed32 =>
      rw [hcontent] at htype
      cases htype
  rw [altTypeIdOf] at hid
  split at hid
  · next known hknown =>
    cases hid
    exact decodes_of_items hf (.refl _) (lookup_of_knownAltTypeId hf.types.nodup hknown) hfields
      hitems
  · obtain ⟨next, hnext, hid⟩ := bind_eq_ok.mp hid
    cases hid
    obtain ⟨hfield, hextends⟩ := hf.setType_next hnext ⟨kind, rfl, single⟩
    apply decodes_of_items hfield hextends _ hfields hitems
    rw [FieldDef.setType, Dict.lookup_assign, if_pos rfl]

theorem decodeTargets_spec {g : Group} (hwire : g.wireType = lengthDelimitedType) {f : FieldDef}
    (hf : InferredField (str g.number) f) {path : List Text} {targets : List TypeName}
    (htargets : ∀ target ∈ targets, ∃ kind : Kind, target = .kind kind ∧ kind.IsFallback)
    {outputs : List (Text × List Value)} {f' : FieldDef}
    (h : decodeTargets floats config g.buffers f path targets = .ok (outputs, f')) :
    Decodes floats config g f outputs f' := by
  induction targets with
  | nil => cases h
  | cons target rest ih =>
    rw [decodeTargets] at h
    split at h
    · exact ih (fun t ht ↦ htargets t (List.mem_cons_of_mem _ ht)) h
    · obtain ⟨kind, rfl, hkind⟩ := htargets target List.mem_cons_self
      exact decodeTarget_spec hwire hf hkind h

/-! ### Messages -/

variable (floats config) in
/-- What a reader of nested messages returns for a payload is encoded to the same fields. -/
def Reads (nested : Nested) (payload : Bytes) : Prop :=
  ∀ short t decoded, Inferred t →
    nested (Content.lengthDelimited payload short).bytes t = .ok decoded →
      Inferred decoded.typedef ∧ t.Extends decoded.typedef ∧
        Reproduces floats config decoded.message decoded.typedef payload

theorem mem_of_sortTypes {types sorted : List (Text × FieldType)} (h : sortTypes types = .ok sorted)
    {entry : Text × FieldType} (hentry : entry ∈ sorted) : entry ∈ types := by
  rw [sortTypes] at h
  split at h
  · cases h
  · next keyed hkeyed =>
    cases h
    obtain ⟨⟨n, e⟩, hmem, rfl⟩ := List.mem_map.mp hentry
    rw [(List.perm_insertionSort _ keyed).mem_iff] at hmem
    have hsome : some (n, e) ∈ types.map fun e ↦ (intOfText e.1).map fun n ↦ (n, e) := by
      rw [map_eq_of_mapM_eq_some hkeyed]
      exact List.mem_map_of_mem hmem
    obtain ⟨e', he', heq⟩ := List.mem_map.mp hsome
    obtain ⟨n', -, hpair⟩ := Option.map_eq_some_iff.mp heq
    cases hpair
    exact he'

theorem exists_of_firstDecoded {nested : Nested} {buf : Bytes} {types : List (Text × FieldType)}
    {altTypeId : Text} {decoded : Decoded}
    (h : firstDecoded nested buf types = .ok (some (altTypeId, decoded))) :
    ∃ t, (altTypeId, FieldType.message t) ∈ types ∧ nested buf t = .ok decoded := by
  induction types with
  | nil => cases h
  | cons entry rest ih =>
    have hmore : firstDecoded nested buf rest = .ok (some (altTypeId, decoded)) →
        ∃ t, (altTypeId, FieldType.message t) ∈ entry :: rest ∧ nested buf t = .ok decoded := by
      intro hrest
      obtain ⟨t, ht, hdecoded⟩ := ih hrest
      exact ⟨t, List.mem_cons_of_mem _ ht, hdecoded⟩
    obtain ⟨id, type⟩ := entry
    cases type with
    | named name => exact hmore h
    | message t =>
      rw [firstDecoded] at h
      split at h
      · next decoded' hdecoded =>
        cases h
        exact ⟨t, List.mem_cons_self, hdecoded⟩
      · cases h
      · exact hmore h

variable (floats config) in
/-- The contents up to some point are decoded to messages that stand for them. -/
structure Collected (f : FieldDef) (done : List WireField) (s : LendelimState) : Prop where
  types : InferredTypes s.fieldTypes
  extended : TypesExtend f.types s.fieldTypes
  above : AboveIds s.nextAltTypeId s.fieldTypes
  first : s.fieldTypes = [] → s.nextAltTypeId = 0
  outputs : ∃ m : List (Text × List (Value × WireField)),
    s.outputsMap = Multimap.image id Prod.fst m ∧ (m.map Prod.fst).Nodup ∧
      (∀ entry ∈ m, ∃ type, Dict.lookup entry.1 s.fieldTypes = some type ∧
        ∀ q ∈ entry.2, Represents floats config type q.1 q.2) ∧
      ((Multimap.values m).map Prod.snd).Perm done

/-- One more message under an id whose type it extends. -/
theorem Collected.assign {f : FieldDef} {done : List WireField} {s : LendelimState}
    (h : Collected floats config f done s) {altTypeId : Text} {decoded : Decoded}
    {next : Int} {g : WireField} {order : List Text}
    (hinferred : Inferred decoded.typedef)
    (hknown : ∀ known, Dict.lookup altTypeId s.fieldTypes = some known →
      known.Extends (.message decoded.typedef))
    (hfirst : s.fieldTypes = [] → altTypeId = "0".toList) (hle : s.nextAltTypeId ≤ next)
    (hid : ∃ n, intOfText altTypeId = some n ∧ n < next)
    (hg : Represents floats config (.message decoded.typedef) (.message decoded.message) g) :
    Collected floats config f (done ++ [g]) {
      fieldTypes := Dict.assign altTypeId (.message decoded.typedef) s.fieldTypes
      outputsMap := Multimap.extend altTypeId [.message decoded.message] s.outputsMap
      fieldOrder := order
      nextAltTypeId := next } where
  types := by
    apply h.types.assign hfirst
    · intro name hname
      cases hname
    · intro c hc
      cases hc
      exact hinferred
  extended := h.extended.trans (.assign hknown)
  above := by
    obtain ⟨n, hn, hlt⟩ := hid
    exact (h.above.mono hle).assign hn hlt _
  first := by
    intro hnil
    have hlookup := congrArg (Dict.lookup altTypeId) hnil
    rw [Dict.lookup_assign, if_pos rfl] at hlookup
    cases hlookup
  outputs := by
    obtain ⟨m, houtputs, hnodup, hm, hperm⟩ := h.outputs
    have hextended : TypesExtend s.fieldTypes
        (Dict.assign altTypeId (.message decoded.typedef) s.fieldTypes) := .assign hknown
    have hall : ∀ entry ∈ m, ∃ type,
        Dict.lookup entry.1 (Dict.assign altTypeId (.message decoded.typedef) s.fieldTypes) =
          some type ∧ ∀ q ∈ entry.2, Represents floats config type q.1 q.2 := by
      intro entry hentry
      obtain ⟨type, htype, hitems⟩ := hm entry hentry
      obtain ⟨type', htype', hmore⟩ := hextended entry.1 type htype
      exact ⟨type', htype', fun q hq ↦ (hitems q hq).extends hmore⟩
    refine ⟨Multimap.extend altTypeId [(.message decoded.message, g)] m, ?_,
      Dict.nodup_assign hnodup, fun entry hentry ↦ ?_, ?_⟩
    · dsimp only
      rw [houtputs]
      exact Multimap.extend_image Function.injective_id Prod.fst m altTypeId
        [(.message decoded.message, g)]
    · rcases Dict.mem_assign hentry with rfl | hold
      · refine ⟨.message decoded.typedef, by rw [Dict.lookup_assign, if_pos rfl], fun q hq ↦ ?_⟩
        rcases List.mem_append.mp hq with hq | hq
        · rw [Multimap.under] at hq
          cases hlookup : Dict.lookup altTypeId m with
          | none =>
            rw [hlookup] at hq
            exact absurd hq List.not_mem_nil
          | some items =>
            rw [hlookup] at hq
            obtain ⟨type, htype, hitems⟩ := hall _ (Dict.mem_of_lookup hlookup)
            rw [Dict.lookup_assign, if_pos rfl] at htype
            cases htype
            exact hitems q hq
        · rw [List.mem_singleton.mp hq]
          exact hg
      · exact hall entry hold
    · have hvalues := (Multimap.values_extend_perm m altTypeId
        [(Value.message decoded.message, g)]).map Prod.snd
      rw [List.map_append] at hvalues
      exact hvalues.trans (hperm.append_right _)

theorem decodeContent_spec {f : FieldDef} {done : List WireField} {s s' : LendelimState}
    (h : Collected floats config f done s) {nested : Nested} {payload : Bytes}
    (hreads : Reads floats config nested payload) {number : Nat} (small : number < 2 ^ 61)
    (short : payload.length < 2 ^ 63)
    (hround : decodeContent nested s (Content.lengthDelimited payload short).bytes = .ok s') :
    Collected floats config f (done ++ [⟨number, .lengthDelimited payload short, small⟩]) s' := by
  obtain ⟨sorted, hsorted, hround⟩ := bind_eq_ok.mp hround
  obtain ⟨found, hfound, hround⟩ := bind_eq_ok.mp hround
  obtain ⟨⟨altTypeId, decoded, next⟩, hdecoded, hround⟩ := bind_eq_ok.mp hround
  cases hround
  cases found with
  | some known =>
    cases hdecoded
    obtain ⟨t, hmem, hnested⟩ := exists_of_firstDecoded hfound
    have htypes := mem_of_sortTypes hsorted hmem
    have hlookup := Dict.lookup_of_mem h.types.nodup htypes
    obtain ⟨hinferred, hextends, hrepresents⟩ :=
      hreads short t known.2 (h.types.nested _ t hlookup) hnested
    apply h.assign hinferred _ _ (Int.le_refl _) (h.above _ htypes)
      (.message small short hrepresents)
    · intro type htype
      rw [hlookup] at htype
      cases htype
      exact hextends
    · intro hnil
      rw [hnil] at htypes
      exact absurd htypes List.not_mem_nil
  | none =>
    obtain ⟨decoded', hnested, heq⟩ := bind_eq_ok.mp hdecoded
    cases heq
    obtain ⟨hinferred, -, hrepresents⟩ := hreads short .empty decoded .empty hnested
    apply h.assign hinferred _ _ (by omega) ⟨_, intOfText_strInt _, by omega⟩
      (.message small short hrepresents)
    · intro type htype
      rw [h.above.lookup_strInt] at htype
      cases htype
    · intro hnil
      rw [h.first hnil]
      rfl

/-- Before the first content. -/
theorem Collected.start {fieldId : Text} {f : FieldDef} (hf : InferredField fieldId f) {next : Int}
    (hnext : f.nextAltTypeId = .ok next) :
    Collected floats config f [] ⟨f.types, [], [], next⟩ := by
  obtain ⟨habove, hfirst⟩ := FieldDef.nextAltTypeId_eq_ok hnext
  exact ⟨hf.types, .refl _, habove, hfirst, [], rfl, List.nodup_nil,
    fun entry hentry ↦ absurd hentry List.not_mem_nil, .nil⟩

/-- One content after another. -/
theorem collected_step {nested : Nested} {g : Group} (hwire : g.wireType = lengthDelimitedType)
    (hreads : ∀ w ∈ g.fields, ∀ payload, w.content.payload = some payload →
      Reads floats config nested payload)
    {f : FieldDef} {done : List WireField} {w : WireField} {s s' : LendelimState}
    (hdone : done ++ [w] <+: g.fields) (h : Collected floats config f done s)
    (hround : decodeContent nested s w.content.bytes = .ok s') :
    Collected floats config f (done ++ [w]) s' := by
  have hw : w ∈ g.fields := hdone.subset (by simp)
  obtain ⟨number, content, small⟩ := w
  cases content with
  | lengthDelimited payload short =>
    exact decodeContent_spec h (hreads _ hw payload rfl) small short hround
  | varint | fixed64 | fixed32 =>
    have htype := (g.mem _ hw).2.trans hwire
    cases htype

theorem decodeMessages_spec {nested : Nested} {g : Group} (hwire : g.wireType = lengthDelimitedType)
    {f : FieldDef} (hf : InferredField (str g.number) f)
    (hreads : ∀ w ∈ g.fields, ∀ payload, w.content.payload = some payload →
      Reads floats config nested payload)
    {path : List Text} {outputs : List (Text × List Value)} {f' : FieldDef}
    (h : decodeMessages config nested g.buffers f path = .ok (outputs, f')) :
    Decodes floats config g f outputs f' := by
  obtain ⟨next, hnext, h⟩ := bind_eq_ok.mp h
  obtain ⟨types, htypes, h⟩ := bind_eq_ok.mp h
  rw [FieldDef.resolveTypes_of_inferred hf] at htypes
  cases htypes
  obtain ⟨s, hloop, h⟩ := bind_eq_ok.mp h
  cases h
  rw [Group.buffers, List.foldlM_map] at hloop
  have hall : Collected floats config f g.fields s :=
    foldlM_invariant (Collected floats config f) hloop (.start hf hnext)
      fun done w s s' hdone hcollected hround ↦ collected_step hwire hreads hdone hcollected hround
  obtain ⟨m, houtputs, hnodup, hm, hperm⟩ := hall.outputs
  have hpayload : ∀ w ∈ g.fields, w.content.payload ≠ none := by
    intro w hw
    obtain ⟨payload, hsome⟩ :=
      Content.wireType_eq_lengthDelimited.mp ((g.mem w hw).2.trans hwire)
    rw [hsome]
    exact Option.some_ne_none payload
  have hnumber : ∀ entry ∈ m, ∀ q ∈ entry.2, q.2.number = g.number := by
    intro entry hentry q hq
    have hmem : q.2 ∈ (Multimap.values m).map Prod.snd :=
      List.mem_map_of_mem (List.mem_flatMap.mpr ⟨entry, hentry, hq⟩)
    exact (g.mem q.2 (hperm.mem_iff.mp hmem)).1
  have hinferred : ∀ f' : FieldDef, f'.name = f.name → f'.fieldId = f.fieldId →
      f'.types = s.fieldTypes → InferredField (str g.number) f' :=
    fun f' hname hid htypes ↦ ⟨hname.trans hf.name, hid.trans hf.fieldId, htypes ▸ hall.types⟩
  have hkeys : ∀ f' : FieldDef, f'.name = f.name → f'.fieldId = f.fieldId →
      f'.types = s.fieldTypes → (s.outputsMap.map fun entry ↦ (f'.fieldKey entry.1, entry.2)) =
        s.outputsMap.map fun entry ↦ (keyOf (str g.number) entry.1, entry.2) := by
    intro f' hname hid htypes
    apply List.map_congr_left
    intro entry _
    rw [FieldDef.fieldKey_of_inferred (hinferred f' hname hid htypes)]
  have hfield : ∀ f' : FieldDef, f'.name = f.name → f'.fieldId = f.fieldId →
      f'.types = s.fieldTypes → Decodes floats config g f
        (s.outputsMap.map fun entry ↦ (keyOf (str g.number) entry.1, entry.2)) f' := by
    intro f' hname hid htypes
    refine ⟨hinferred f' hname hid htypes, htypes ▸ hall.extended,
      m.map fun entry ↦ ⟨g.number, g.small, entry.1, entry.2⟩, ?_, ?_, ?_, ?_⟩
    · rw [houtputs, Multimap.image, List.map_map, List.map_map]
      rfl
    · rw [List.map_map]
      exact hnodup
    · intro p hp
      obtain ⟨entry, hentry, rfl⟩ := List.mem_map.mp hp
      obtain ⟨type, htype, hitems⟩ := hm entry hentry
      rw [htypes]
      exact ⟨rfl, type, htype, fun q hq ↦ ⟨hnumber entry hentry q hq, hitems q hq⟩⟩
    · have hflat : (m.map fun entry ↦
          (⟨g.number, g.small, entry.1, entry.2⟩ : Part)).flatMap Part.fields =
            (Multimap.values m).map Prod.snd := by
        rw [List.flatMap_map, Multimap.values, List.map_flatMap]
        rfl
      rw [hflat]
      exact .of_perm hperm.symm hpayload
  have hmarked : ∀ (f' : FieldDef) (isRepeated : Bool), f'.name = f.name → f'.fieldId = f.fieldId →
      f'.types = s.fieldTypes → Decodes floats config g f
        (s.outputsMap.map fun entry ↦ (f'.fieldKey entry.1, entry.2))
        (if isRepeated then f'.markRepeated else f') := by
    intro f' isRepeated hname hid htypes
    rw [hkeys f' hname hid htypes]
    split
    · exact hfield f'.markRepeated hname hid htypes
    · exact hfield f' hname hid htypes
  split
  · exact hmarked _ _ rfl rfl rfl
  · exact hmarked _ _ rfl rfl rfl

/-- Whatever the contents of a field are decoded to stands for them. -/
theorem decodeGroup_spec (hplain : config.IsPlain) {nested : Nested} {g : Group} {f : FieldDef}
    (hf : InferredField (str g.number) f)
    (hreads : ∀ w ∈ g.fields, ∀ payload, w.content.payload = some payload →
      Reads floats config nested payload)
    {path : List Text} {outputs : List (Text × List Value)} {f' : FieldDef}
    (h : decodeGroup floats config nested path f (str g.number, g.wireType, g.buffers) =
      .ok (outputs, f')) :
    Decodes floats config g f outputs f' := by
  obtain ⟨lendelim, hlendelim, h⟩ := bind_eq_ok.mp h
  split at h
  · next hyes =>
    have hwire : g.wireType = lengthDelimitedType := by
      rw [isLendelim] at hlendelim
      split at hlendelim
      · next hwire => exact hwire
      · cases hlendelim
        cases hyes
    rw [tryDecodeLendelimFields] at h
    split at h
    · apply decodeTargets_spec hwire hf _ h
      intro target htarget
      simp only [List.mem_cons, List.not_mem_nil, or_false] at htarget
      rcases htarget with rfl | rfl | rfl
      · exact ⟨.string, rfl, .inl rfl⟩
      · exact hplain.binary
      · exact ⟨.bytes, rfl, .inr (.inl rfl)⟩
    · exact decodeMessages_spec hwire hf hreads h
  · obtain ⟨⟨values, newFielddef, altTypeId⟩, hstandard, h⟩ := bind_eq_ok.mp h
    cases h
    exact decodeStandardField_spec hplain hf hstandard

end ScrapyCffi.Protobuf
