import ScrapyCffi.Protobuf.Api

/-!
# Fields whose type is declared

`_decode_standard_field` looks the name of a declared type up among those of the wire types, where
the names of the types are not. So no field with such a type is ever decoded.
-/

namespace ScrapyCffi.Protobuf

open ScrapyCffi.Base

variable {floats : Floats} {config : Config}

/-- A field is given a type by its name, which is not "message", where its contents of a wire type
are decoded by their type. -/
def FieldDef.Declares (f : FieldDef) (wireType : Nat) : Prop :=
  (∃ name, Dict.lookup "0".toList f.types = some (.named name) ∧ name ≠ .other "message") ∨
    wireType ≠ lengthDelimitedType ∧ ∃ altTypeId name,
      Dict.lookup altTypeId f.types = some (.named name) ∧ altTypeId ≠ "0".toList

/-- The loop over some types ends without a result where one of them is a name. -/
theorem tryTypes_of_named {wireType : Nat} {buffers : List Bytes} {path : List Text}
    {types : List (Text × FieldType)} {altTypeId : Text} {name : TypeName}
    (h : (altTypeId, FieldType.named name) ∈ types)
    (found : Option (Text × TypeName × List Value)) :
    tryTypes floats wireType buffers path types ≠ .ok found := by
  intro hfound
  induction types with
  | nil => exact absurd h List.not_mem_nil
  | cons entry rest ih =>
    obtain ⟨id, type⟩ := entry
    cases type with
    | message c =>
      rcases List.mem_cons.mp h with heq | h
      · cases heq
      · exact ih h hfound
    | named name' =>
      rw [tryTypes.eq_def] at hfound
      dsimp only at hfound
      split at hfound
      · cases hfound
      · next base hbase =>
        split at hfound
        · cases hfound
        · split at hfound
          · cases hfound
          · cases hbase

theorem decodeStandardField_of_named {wireType : Nat} {buffers : List Bytes} {path : List Text}
    {f : FieldDef} {altTypeId : Text} {name : TypeName}
    (h : Dict.lookup altTypeId f.types = some (.named name))
    (hname : altTypeId = "0".toList → name ≠ .other "message")
    (found : List Value × FieldDef × Text) :
    decodeStandardField floats config wireType buffers f path ≠ .ok found := by
  intro hfound
  obtain ⟨types, htypes, hfound⟩ := bind_eq_ok.mp hfound
  obtain ⟨found', htry, -⟩ := bind_eq_ok.mp hfound
  have hmem : (altTypeId, FieldType.named name) ∈ types := by
    rw [FieldDef.resolveTypes] at htypes
    split at htypes
    · next hmessage =>
      obtain ⟨t, -, rfl⟩ := exists_of_map_eq_ok htypes
      apply Dict.mem_of_lookup
      rw [Dict.lookup_assign, if_neg]
      · exact h
      · intro hzero
        rw [hzero, hmessage] at h
        cases h
        exact hname hzero rfl
    · cases htypes
      exact Dict.mem_of_lookup h
  exact tryTypes_of_named hmem found' htry

/-- A field with such a type is not decoded. -/
theorem decodeGroup_of_declares {nested : Nested} {path : List Text} {f : FieldDef} {fieldId : Text}
    {wireType : Nat} {buffers : List Bytes} (h : f.Declares wireType)
    (found : List (Text × List Value) × FieldDef) :
    decodeGroup floats config nested path f (fieldId, (wireType, buffers)) ≠ .ok found := by
  intro hfound
  obtain ⟨lendelim, hlendelim, hfound⟩ := bind_eq_ok.mp hfound
  rcases h with ⟨name, hzero, hname⟩ | ⟨hwire, altTypeId, name, hlookup, hid⟩
  · have hstandard : lendelim = false := by
      rw [isLendelim] at hlendelim
      split at hlendelim
      · have htype : f.lookupFieldTypeNumber "0".toList config (path ++ [fieldId]) =
            .ok (some (.named name)) := by
          rw [FieldDef.lookupFieldTypeNumber, hzero]
          split
          · next heq => cases heq
          · next heq =>
            cases heq
            exact absurd rfl hname
          · next heq => rw [heq]
        rw [htype] at hlendelim
        cases hlendelim
        rfl
      · cases hlendelim
        rfl
    rw [hstandard] at hfound
    obtain ⟨found', hread, -⟩ := bind_eq_ok.mp hfound
    exact decodeStandardField_of_named hzero (fun _ ↦ hname) found' hread
  · rw [isLendelim, if_neg hwire] at hlendelim
    cases hlendelim
    obtain ⟨found', hread, -⟩ := bind_eq_ok.mp hfound
    exact decodeStandardField_of_named hlookup (fun hzero ↦ absurd hzero hid) found' hread

/-- The rounds over the fields of a message do not get past a field with such a type. -/
theorem foldlM_decodeField_of_declares {nested : Nested} {path : List Text} {fs : List WireField}
    (hconsistent : Consistent fs) {t : TypeDef} {f : WireField} (hf : f ∈ fs) {fielddef : FieldDef}
    (hlookup : Dict.lookup (str f.number) t.fields = some fielddef)
    (h : fielddef.Declares f.content.wireType) (s : MessageState) :
    (toGrouped (fieldsOf fs)).foldlM (decodeField floats config nested path)
      ⟨[], [], t.makeMutable⟩ ≠ .ok s := by
  intro hloop
  rw [toGrouped, List.foldlM_map] at hloop
  have hunmet : f.number ∉ (fieldsOf fs).map Prod.fst := by
    refine (foldlM_invariant (fun done s ↦ Dict.lookup (str f.number) s.typedef.fields =
      some fielddef ∧ f.number ∉ done.map Prod.fst) hloop ⟨hlookup, List.not_mem_nil⟩ ?_).2
    rintro done entry s s' hdone ⟨hold, hunmet⟩ hround
    obtain ⟨g, rfl, hwire, hnew, hne, hmem⟩ := exists_group hconsistent hdone
    rw [← hwire] at hround
    obtain ⟨found, hgroup, hround⟩ := bind_eq_ok.mp hround
    have hother : f.number ≠ g.number := by
      intro hnumber
      obtain ⟨w, hw⟩ := List.exists_mem_of_ne_nil _ hne
      have htype : f.content.wireType = g.wireType :=
        (hconsistent f hf w (hmem w hw) (hnumber.trans (g.mem w hw).1.symm)).trans (g.mem w hw).2
      rw [htype] at h
      rw [TypeDef.lookupFielddefNumber, ← hnumber, hold] at hgroup
      exact decodeGroup_of_declares h found hgroup
    cases hround
    constructor
    · rw [TypeDef.setFielddef]
      dsimp only
      rw [Dict.lookup_assign, if_neg fun heq ↦ hother (str_injective heq)]
      exact hold
    · rw [List.map_append, List.mem_append, not_or]
      exact ⟨hunmet, by simpa using hother⟩
  have hunder : f ∈ Multimap.under (fieldsOf fs) f.number := by
    rw [under_fieldsOf, List.mem_filter]
    exact ⟨hf, by simp⟩
  rw [Multimap.under, Dict.lookup_eq_none.mpr hunmet] at hunder
  exact absurd hunder List.not_mem_nil

/-- A message with a field whose type is declared is not decoded. -/
theorem decodeMessage_ne_of_declares {fs : List WireField} (hconsistent : Consistent fs)
    {t : TypeDef}
    {f : WireField} (hf : f ∈ fs) {fielddef : FieldDef}
    (hlookup : Dict.lookup (str f.number) t.fields = some fielddef)
    (h : fielddef.Declares f.content.wireType) (fuel : Nat) (decoded : Decoded) :
    decodeMessage floats config fuel (serialize fs) t ≠ .ok decoded := by
  intro hread
  obtain ⟨⟨decoded', last⟩, hbetween, -⟩ := bind_eq_ok.mp hread
  obtain ⟨split, hsplit, hbetween⟩ := bind_eq_ok.mp hbetween
  obtain ⟨s, hloop, -⟩ := bind_eq_ok.mp hbetween
  by_cases hfuel : fs.length ≤ fuel
  · have hgroups :=
      groupByNumber_serialize [] (Nat.zero_le (serialize fs).length) rfl hconsistent hfuel
    have hsame := Except.ok.inj (hsplit.symm.trans hgroups)
    rw [hsame] at hloop
    exact foldlM_decodeField_of_declares hconsistent hf hlookup h s hloop
  · have hfew := groupByNumber_of_few [] (Nat.zero_le (serialize fs).length) rfl hconsistent
      (fun f hf ↦ hf) (fits_nil fs) (Nat.not_le.mp hfuel) []
    cases hsplit.symm.trans hfew

/-- By a definition that gives one of its fields a type, `decode_message` decodes no message. -/
theorem Api.decodeMessage_of_declares (floats : Floats) (config : Config) {typedef : TypeDefDict}
    {fs : List WireField} (hconsistent : Consistent fs) {f : WireField} (hf : f ∈ fs)
    {fielddef : FieldDef}
    (hlookup : Dict.lookup (str f.number) (TypeDef.fromDict typedef).fields = some fielddef)
    (h : fielddef.Declares f.content.wireType) (fuel : Nat) :
    ¬∃ found, Api.decodeMessage floats config fuel (serialize fs) (some (.definition typedef)) =
      .ok found := by
  rintro ⟨found, hfound⟩
  obtain ⟨decoded, hdecoded, -⟩ := exists_of_map_eq_ok hfound
  exact decodeMessage_ne_of_declares hconsistent hf hlookup h fuel decoded hdecoded

theorem Api.decodeMessage_of_int :
    ¬∃ found, Api.decodeMessage .refusing .default 3 [8, 150, 1]
      (some (.definition ⟨[("1".toList,
        ⟨some [], some (.kind (.scalar .int)), none, none, [], none, none⟩)]⟩)) =
        .ok found := by
  have hbytes : serialize [⟨1, .varint 150 (by omega), by omega⟩] = [8, 150, 1] := by
    simp [WireField.bytes, WireField.tag, Content.bytes, Content.wireType, Base128.bytes,
      varintType]
  rw [← hbytes]
  refine Api.decodeMessage_of_declares _ _ (fun f hf g hg _ ↦ ?_) List.mem_cons_self rfl
    (.inl ⟨_, rfl, ?_⟩) 3
  · rw [List.mem_singleton.mp hf, List.mem_singleton.mp hg]
  · intro h
    cases h

/-! ### The definitions that decoding returns -/

/-- The type of a number is declared in what decoding returns. -/
theorem exists_named_of_decodeMessage (hplain : config.IsPlain) {fs : List WireField}
    (h : Forward (serialize fs)) {fuel : Nat} {decoded : Decoded}
    (hread : decodeMessage floats config fuel (serialize fs) .empty = .ok decoded) {f : WireField}
    (hf : f ∈ fs) (hnumber : f.content.payload = none) :
    ∃ altTypeId kind, decoded.typedef.typeAt (str f.number) altTypeId =
      some (.named (.kind kind)) := by
  obtain ⟨⟨decoded', last⟩, hbetween, heq⟩ := bind_eq_ok.mp hread
  cases heq
  obtain ⟨fs', s, hfs, hprogress, -, htypedef⟩ := exists_progress_of_decodeBetween hplain
    (Nat.zero_le (serialize fs).length) h.steady (fun fs' g payload hfs hg hpayload ↦
      reads_decodeLendelimMessage hplain (h.nested hfs hg hpayload) fuel) .empty hbetween
  obtain rfl : fs = fs' := serialize_injective hfs
  obtain ⟨parts, -, hparts, hfields⟩ := hprogress.exists_parts
  have hmem : f ∈ SameFields.plainFields f.number (parts.flatMap Part.fields) := by
    rw [← hfields.plainFields_eq, SameFields.plainFields, List.mem_filter]
    exact ⟨hf, by simp [hnumber]⟩
  obtain ⟨p, hp, hfield⟩ := List.mem_flatMap.mp (List.mem_filter.mp hmem).1
  obtain ⟨⟨value, w⟩, hq, rfl⟩ := List.mem_map.mp hfield
  obtain ⟨type, htype, hitems⟩ := hparts p hp
  obtain ⟨hsame, hrepresents⟩ := hitems _ hq
  rw [htypedef, hsame]
  cases hrepresents with
  | kind single hstands => exact ⟨p.altTypeId, _, htype⟩
  | message small short hreproduces => cases hnumber

end ScrapyCffi.Protobuf
