import ScrapyCffi.Protobuf.Reencode

/-!
# Which messages are decoded

Without a definition, decoding accepts exactly the messages with one wire type for each number; it
refuses every other buffer with a `DecoderException`. With a definition it comes to an end as well.
-/

namespace ScrapyCffi.Protobuf

open ScrapyCffi.Base

variable {floats : Floats} {config : Config}

/-! ### Numbers -/

/-- Numbers have a type to fall back on. -/
theorem exists_getDefaultType (config : Config) {c : Content}
    (h : c.wireType ≠ lengthDelimitedType) :
    ∃ type, config.getDefaultType c.wireType = .ok type := by
  rw [Config.getDefaultType]
  have hsome : ∃ type, wireTypeDefault c.wireType = some type := by
    cases c with
    | varint => exact ⟨_, rfl⟩
    | fixed64 => exact ⟨_, rfl⟩
    | lengthDelimited => exact absurd rfl h
    | fixed32 => exact ⟨_, rfl⟩
  obtain ⟨type, htype⟩ := hsome
  rw [htype]
  cases Dict.lookup c.wireType config.defaultTypes with
  | none => exact ⟨type, rfl⟩
  | some known => exact ⟨known, rfl⟩

/-- Numbers are read of all contents of their wire type. -/
theorem exists_decodeAll (floats : Floats) {s : Scalar} (hs : s.IsInt) {g : Group}
    (hwire : s.wireType = g.wireType) :
    ∃ values, decodeAll floats (.scalar s) g.buffers = .ok values := by
  cases hall : decodeAll floats (.scalar s) g.buffers with
  | ok values => exact ⟨values, rfl⟩
  | error e =>
    obtain ⟨buf, hbuf, herror⟩ := exists_error_of_mapM hall
    obtain ⟨f, hf, rfl⟩ := List.mem_map.mp hbuf
    obtain ⟨value, stop, hvalue, -⟩ :=
      exists_decodeScalar floats hs (hwire.trans (g.mem f hf).2.symm)
    rw [Kind.decode, hvalue] at herror
    cases herror

theorem FieldDef.nextAltTypeId_of_nil {f : FieldDef} (h : f.types = []) :
    f.nextAltTypeId = .ok 0 := by
  rw [nextAltTypeId, h]
  rfl

theorem FieldDef.nextAltTypeId_eq_error {f : FieldDef} {e : Exc} (h : f.nextAltTypeId = .error e) :
    e = .valueError := by
  rw [nextAltTypeId] at h
  split at h
  · cases h
    rfl
  · cases h
  · cases h

/-- The loop over known types stops with a `KeyError`, if it stops. -/
theorem tryTypes_eq_error {wireType : Nat} {buffers : List Bytes} {path : List Text}
    {types : List (Text × FieldType)}
    (htypes : ∀ altTypeId name, (altTypeId, FieldType.named name) ∈ types → name.IsSingle) {e : Exc}
    (h : tryTypes floats wireType buffers path types = .error e) : ∃ name, e = .keyError name := by
  induction types with
  | nil => cases h
  | cons entry rest ih =>
    obtain ⟨altTypeId, type⟩ := entry
    cases type with
    | message c => exact ih (fun id name hmem ↦ htypes id name (List.mem_cons_of_mem _ hmem)) h
    | named name =>
      obtain ⟨kind, rfl, -⟩ := htypes altTypeId name List.mem_cons_self
      cases h
      exact ⟨_, rfl⟩

theorem decodeDefault_ne_unfinished (hplain : config.IsPlain) {g : Group} {f : FieldDef} :
    decodeDefault floats config g.wireType g.buffers f ≠ .error .unfinished := by
  intro h
  rcases bind_eq_error.mp h with htype | ⟨type, htype, h⟩
  · rw [Config.getDefaultType] at htype
    split at htype
    · cases htype
    · cases htype
  · obtain ⟨s, rfl, hs, hwire⟩ := hplain.numbers _ _ htype
    obtain ⟨values, hvalues⟩ := exists_decodeAll floats hs hwire
    rw [decodeNamed, hvalues] at h
    rcases bind_eq_error.mp h with hall | ⟨_, _, h⟩
    · cases hall
    · rcases bind_eq_error.mp h with hnext | ⟨_, _, heq⟩
      · cases FieldDef.nextAltTypeId_eq_error hnext
      · cases heq

theorem decodeStandardField_ne_unfinished (hplain : config.IsPlain) {g : Group} {f : FieldDef}
    (hf : InferredField (str g.number) f) {path : List Text} :
    decodeStandardField floats config g.wireType g.buffers f path ≠ .error .unfinished := by
  intro h
  rcases bind_eq_error.mp h with hresolve | ⟨types, htypes, h⟩
  · rw [FieldDef.resolveTypes_of_inferred hf] at hresolve
    cases hresolve
  · rw [FieldDef.resolveTypes_of_inferred hf] at htypes
    cases htypes
    rcases bind_eq_error.mp h with htry | ⟨found, hfound, h⟩
    · obtain ⟨name, hname⟩ := tryTypes_eq_error (fun _ _ hmem ↦ hf.types.named_of_mem hmem) htry
      cases hname
    · rw [tryTypes_of_inferred (fun _ _ hmem ↦ hf.types.named_of_mem hmem) hfound] at h
      rcases bind_eq_error.mp h with hdefault | ⟨_, _, heq⟩
      · exact decodeDefault_ne_unfinished hplain hdefault
      · cases heq

/-- A new field of numbers is decoded. -/
theorem exists_decodeStandardField (floats : Floats) (hplain : config.IsPlain) {g : Group}
    (hwire : g.wireType ≠ lengthDelimitedType) (hne : g.fields ≠ []) {f : FieldDef}
    (hf : f.types = []) (path : List Text) :
    ∃ found, decodeStandardField floats config g.wireType g.buffers f path = .ok found := by
  obtain ⟨w, hw⟩ := List.exists_mem_of_ne_nil _ hne
  have hresolve : f.resolveTypes config path = .ok [] := by
    rw [FieldDef.resolveTypes, hf]
    rfl
  have htype := (g.mem w hw).2
  obtain ⟨type, hdefault⟩ := exists_getDefaultType config (htype.symm ▸ hwire)
  rw [htype] at hdefault
  obtain ⟨s, rfl, hs, hscalar⟩ := hplain.numbers _ _ hdefault
  obtain ⟨values, hvalues⟩ := exists_decodeAll floats hs hscalar
  have hall : decodeDefault floats config g.wireType g.buffers f =
      .ok (strInt 0, .kind (.scalar s), values) := by
    rw [decodeDefault, hdefault, FieldDef.nextAltTypeId_of_nil hf]
    simp only [bind, Except.bind, decodeNamed, hvalues]
    rfl
  rw [decodeStandardField, hresolve]
  simp only [bind, Except.bind, tryTypes, Option.elim, hall]
  exact ⟨_, rfl⟩

/-! ### Texts and bytes -/

/-- Contents that cannot be read as texts, or as bytes in some form, raise a `DecoderException`. -/
theorem decodeTarget_eq_error {g : Group} (hwire : g.wireType = lengthDelimitedType) {f : FieldDef}
    (hf : InferredField (str g.number) f) {path : List Text} {kind : Kind} (hkind : kind.IsFallback)
    {e : Exc} (h : decodeTarget floats config g.buffers f path (.kind kind) = .error e) :
    (∃ m p, e = .decoder m p) ∨ f.nextAltTypeId = .error e := by
  rcases bind_eq_error.mp h with hall | ⟨values, _, h⟩
  · obtain ⟨buf, hbuf, herror⟩ := exists_error_of_mapM hall
    obtain ⟨w, hw, rfl⟩ := List.mem_map.mp hbuf
    have htype := (g.mem w hw).2.trans hwire
    cases hcontent : w.content with
    | lengthDelimited payload short =>
      rw [hcontent] at herror
      cases hread : kind.decode floats (Content.lengthDelimited payload short).bytes 0 with
      | ok found =>
        rw [hread] at herror
        cases herror
      | error e' =>
        rw [hread] at herror
        cases herror
        exact .inl (decode_eq_error floats hkind hread)
    | varint | fixed64 | fixed32 =>
      rw [hcontent] at htype
      cases htype
  · rcases bind_eq_error.mp h with hresolve | ⟨types, _, h⟩
    · rw [FieldDef.resolveTypes_of_inferred hf] at hresolve
      cases hresolve
    · rcases bind_eq_error.mp h with hid | ⟨_, _, heq⟩
      · rw [altTypeIdOf] at hid
        split at hid
        · cases hid
        · rcases bind_eq_error.mp hid with hnext | ⟨_, _, heq⟩
          · exact .inr hnext
          · cases heq
      · cases heq

theorem decodeTargets_ne_unfinished {g : Group} (hwire : g.wireType = lengthDelimitedType)
    {f : FieldDef} (hf : InferredField (str g.number) f) {path : List Text}
    {targets : List TypeName}
    (htargets : ∀ target ∈ targets, ∃ kind : Kind, target = .kind kind ∧ kind.IsFallback) :
    decodeTargets floats config g.buffers f path targets ≠ .error .unfinished := by
  intro h
  induction targets with
  | nil => cases h
  | cons target rest ih =>
    rw [decodeTargets] at h
    split at h
    · exact ih (fun t ht ↦ htargets t (List.mem_cons_of_mem _ ht)) h
    · obtain ⟨kind, rfl, hkind⟩ := htargets target List.mem_cons_self
      rcases decodeTarget_eq_error hwire hf hkind h with ⟨m, p, heq⟩ | hnext
      · cases heq
      · cases FieldDef.nextAltTypeId_eq_error hnext

/-- A new field can be read as bytes. -/
theorem exists_decodeTarget_bytes (floats : Floats) (config : Config) {g : Group}
    (hwire : g.wireType = lengthDelimitedType) {f : FieldDef} (hf : InferredField (str g.number) f)
    (hnil : f.types = []) (path : List Text) :
    ∃ found, decodeTarget floats config g.buffers f path (.kind .bytes) = .ok found := by
  have hvalues : ∃ values, decodeAll floats .bytes g.buffers = .ok values := by
    cases hall : decodeAll floats .bytes g.buffers with
    | ok values => exact ⟨values, rfl⟩
    | error e =>
      obtain ⟨buf, hbuf, herror⟩ := exists_error_of_mapM hall
      obtain ⟨w, hw, rfl⟩ := List.mem_map.mp hbuf
      have htype := (g.mem w hw).2.trans hwire
      cases hcontent : w.content with
      | lengthDelimited payload short =>
        rw [hcontent, decode_bytes_lengthDelimited floats short] at herror
        cases herror
      | varint | fixed64 | fixed32 =>
        rw [hcontent] at htype
        cases htype
  obtain ⟨values, hvalues⟩ := hvalues
  rw [decodeTarget, decodeNamed, hvalues, FieldDef.resolveTypes_of_inferred hf, hnil]
  simp only [bind, Except.bind, altTypeIdOf, knownAltTypeId, FieldDef.addType,
    FieldDef.nextAltTypeId_of_nil hnil]
  exact ⟨_, rfl⟩

/-- A new field is read as one of some kinds of which the last one is that of bytes. -/
theorem exists_decodeTargets {g : Group} (hwire : g.wireType = lengthDelimitedType) {f : FieldDef}
    (hf : InferredField (str g.number) f) (hnil : f.types = []) {path : List Text}
    {targets : List TypeName}
    (htargets : ∀ target ∈ targets, ∃ kind : Kind, target = .kind kind ∧ kind.IsFallback) :
    ∃ found, decodeTargets floats config g.buffers f path (targets ++ [.kind .bytes]) =
      .ok found := by
  induction targets with
  | nil =>
    obtain ⟨found, hfound⟩ := exists_decodeTarget_bytes floats config hwire hf hnil path
    rw [List.nil_append, decodeTargets, hfound]
    exact ⟨found, rfl⟩
  | cons target rest ih =>
    obtain ⟨kind, rfl, hkind⟩ := htargets target List.mem_cons_self
    rw [List.cons_append, decodeTargets]
    cases hread : decodeTarget floats config g.buffers f path (.kind kind) with
    | ok found => exact ⟨found, rfl⟩
    | error e =>
      rcases decodeTarget_eq_error hwire hf hkind hread with ⟨m, p, rfl⟩ | hnext
      · exact ih fun t ht ↦ htargets t (List.mem_cons_of_mem _ ht)
      · rw [FieldDef.nextAltTypeId_of_nil hnil] at hnext
        cases hnext

/-! ### Messages -/

/-- A reader of nested messages comes to an end. Without a definition it returns, or it raises a
`DecoderException`. -/
structure Ends (nested : Nested) (payload : Bytes) : Prop where
  finished : ∀ short t, Inferred t →
    nested (Content.lengthDelimited payload short).bytes t ≠ .error .unfinished
  anonymous : ∀ short e, nested (Content.lengthDelimited payload short).bytes .empty = .error e →
    ∃ m p, e = .decoder m p

theorem firstDecoded_eq_error {nested : Nested} {buf : Bytes} {types : List (Text × FieldType)}
    (htypes : ∀ altTypeId t, (altTypeId, FieldType.message t) ∈ types →
      nested buf t ≠ .error .unfinished) (e : Exc) : firstDecoded nested buf types ≠ .error e := by
  intro h
  induction types with
  | nil => cases h
  | cons entry rest ih =>
    have hmore := ih fun id t hmem ↦ htypes id t (List.mem_cons_of_mem _ hmem)
    obtain ⟨id, type⟩ := entry
    cases type with
    | named name => exact hmore h
    | message t =>
      rw [firstDecoded] at h
      split at h
      · cases h
      · next hunfinished => exact htypes id t List.mem_cons_self hunfinished
      · exact hmore h

theorem exists_sortTypes {next : Int} {types : List (Text × FieldType)} (h : AboveIds next types) :
    ∃ sorted, sortTypes types = .ok sorted := by
  have hids : ∀ entry ∈ types, ∃ found,
      ((intOfText entry.1).map fun n ↦ (n, entry)) = some found := by
    intro entry hentry
    obtain ⟨n, hn, -⟩ := h entry hentry
    exact ⟨(n, entry), by rw [hn, Option.map_some]⟩
  obtain ⟨keyed, hkeyed⟩ := exists_mapM_eq_some hids
  rw [sortTypes, hkeyed]
  exact ⟨_, rfl⟩

/-- A round that fails fails with what is raised by decoding without a definition. -/
theorem decodeContent_eq_error {f : FieldDef} {done : List WireField} {s : LendelimState}
    (h : Collected floats config f done s) {nested : Nested} {payload : Bytes}
    (hends : Ends nested payload) (short : payload.length < 2 ^ 63) {e : Exc}
    (hround : decodeContent nested s (Content.lengthDelimited payload short).bytes = .error e) :
    ∃ m p, e = .decoder m p := by
  obtain ⟨sorted, hsorted⟩ := exists_sortTypes h.above
  rw [decodeContent, hsorted] at hround
  rcases bind_eq_error.mp hround with hsort | ⟨_, heq, hround⟩
  · cases hsort
  · cases heq
    rcases bind_eq_error.mp hround with hfirst | ⟨found, _, hround⟩
    · apply absurd hfirst
      apply firstDecoded_eq_error
      intro id t hmem
      have htypes := mem_of_sortTypes hsorted hmem
      exact hends.finished short t
        (h.types.nested id t (Dict.lookup_of_mem h.types.nodup htypes))
    · rcases bind_eq_error.mp hround with hdecoded | ⟨_, _, heq⟩
      · cases found with
        | some known => cases hdecoded
        | none =>
          rcases bind_eq_error.mp hdecoded with hnested | ⟨_, _, heq⟩
          · exact hends.anonymous short e hnested
          · cases heq
      · cases heq

/-- Contents that are no messages raise a `DecoderException`. -/
theorem decodeMessages_eq_error {nested : Nested} {g : Group}
    (hwire : g.wireType = lengthDelimitedType) {f : FieldDef} (hf : InferredField (str g.number) f)
    (hreads : ∀ w ∈ g.fields, ∀ payload, w.content.payload = some payload →
      Reads floats config nested payload ∧ Ends nested payload)
    {path : List Text} {e : Exc}
    (h : decodeMessages config nested g.buffers f path = .error e) :
    (∃ m p, e = .decoder m p) ∨ f.nextAltTypeId = .error e := by
  rcases bind_eq_error.mp h with hnext | ⟨next, hnext, h⟩
  · exact .inr hnext
  · rcases bind_eq_error.mp h with hresolve | ⟨types, htypes, h⟩
    · rw [FieldDef.resolveTypes_of_inferred hf] at hresolve
      cases hresolve
    · rw [FieldDef.resolveTypes_of_inferred hf] at htypes
      cases htypes
      rcases bind_eq_error.mp h with hloop | ⟨_, _, heq⟩
      · left
        rw [Group.buffers, List.foldlM_map] at hloop
        obtain ⟨done, w, s, hlead, hcollected, hround⟩ := exists_error_of_foldlM
          (Collected floats config f) hloop (Collected.start hf hnext)
          (fun done w s s' hdone hcollected hround ↦ collected_step hwire
            (fun w hw payload hpayload ↦ (hreads w hw payload hpayload).1) hdone hcollected hround)
        have hw : w ∈ g.fields := hlead.subset (by simp)
        obtain ⟨number, content, small⟩ := w
        cases content with
        | lengthDelimited payload short =>
          exact decodeContent_eq_error hcollected (hreads _ hw payload rfl).2 short hround
        | varint | fixed64 | fixed32 =>
          have htype := (g.mem _ hw).2.trans hwire
          cases htype
      · cases heq

/-- The kinds that a field which is no message falls back on. -/
theorem isFallback_of_mem (hplain : config.IsPlain) :
    ∀ target ∈ [TypeName.kind .string, config.defaultBinaryType], ∃ kind : Kind,
      target = .kind kind ∧ kind.IsFallback := by
  intro target htarget
  simp only [List.mem_cons, List.not_mem_nil, or_false] at htarget
  rcases htarget with rfl | rfl
  · exact ⟨.string, rfl, .inl rfl⟩
  · exact hplain.binary

theorem isLendelim_of_inferred (config : Config) {fieldId : Text} {f : FieldDef}
    (hf : InferredField fieldId f)
    (wireType : Nat) (path : List Text) :
    ∃ lendelim, isLendelim config wireType f path = .ok lendelim ∧
      (wireType ≠ lengthDelimitedType → lendelim = false) ∧
      (wireType = lengthDelimitedType → f.types = [] → lendelim = true) := by
  rw [isLendelim, FieldDef.lookupFieldTypeNumber_of_inferred hf]
  split
  · next hwire =>
    refine ⟨_, rfl, fun hne ↦ absurd hwire hne, fun _ hnil ↦ ?_⟩
    rw [hnil]
    rfl
  · next hwire => exact ⟨false, rfl, fun _ ↦ rfl, fun heq ↦ absurd heq hwire⟩

/-- Decoding a field comes to an end. -/
theorem decodeGroup_ne_unfinished (hplain : config.IsPlain) {nested : Nested} {g : Group}
    {f : FieldDef} (hf : InferredField (str g.number) f)
    (hreads : ∀ w ∈ g.fields, ∀ payload, w.content.payload = some payload →
      Reads floats config nested payload ∧ Ends nested payload) {path : List Text} :
    decodeGroup floats config nested path f (str g.number, g.wireType, g.buffers) ≠
      .error .unfinished := by
  intro h
  obtain ⟨lendelim, hlendelim, hnumber, -⟩ :=
    isLendelim_of_inferred config hf g.wireType (path ++ [str g.number])
  rw [decodeGroup, hlendelim] at h
  rcases bind_eq_error.mp h with herror | ⟨_, heq, h⟩
  · cases herror
  · cases heq
    cases lendelim with
    | false =>
      rcases bind_eq_error.mp h with hstandard | ⟨_, _, heq⟩
      · exact decodeStandardField_ne_unfinished hplain hf hstandard
      · cases heq
    | true =>
      have hwire : g.wireType = lengthDelimitedType := by
        by_contra hne
        cases hnumber hne
      rw [if_pos rfl, tryDecodeLendelimFields] at h
      split at h
      · refine decodeTargets_ne_unfinished hwire hf (fun target htarget ↦ ?_) h
        rcases List.mem_append.mp
          (show target ∈ [TypeName.kind .string, config.defaultBinaryType] ++
          [.kind .bytes] from htarget) with htarget | htarget
        · exact isFallback_of_mem hplain target htarget
        · exact ⟨.bytes, List.mem_singleton.mp htarget, .inr (.inl rfl)⟩
      · rcases decodeMessages_eq_error hwire hf hreads h with ⟨m, p, heq⟩ | hnext
        · cases heq
        · cases FieldDef.nextAltTypeId_eq_error hnext

/-- A new field is decoded, whatever its contents are. -/
theorem exists_decodeGroup (hplain : config.IsPlain) {nested : Nested} {g : Group}
    (hne : g.fields ≠ []) {f : FieldDef} (hf : InferredField (str g.number) f) (hnil : f.types = [])
    (hreads : ∀ w ∈ g.fields, ∀ payload, w.content.payload = some payload →
      Reads floats config nested payload ∧ Ends nested payload) (path : List Text) :
    ∃ found, decodeGroup floats config nested path f (str g.number, g.wireType, g.buffers) =
      .ok found := by
  obtain ⟨lendelim, hlendelim, hnumber, hnew⟩ :=
    isLendelim_of_inferred config hf g.wireType (path ++ [str g.number])
  rw [decodeGroup, hlendelim]
  simp only [bind, Except.bind]
  by_cases hwire : g.wireType = lengthDelimitedType
  · rw [hnew hwire hnil, if_pos rfl, tryDecodeLendelimFields]
    split
    · exact exists_decodeTargets hwire hf hnil (isFallback_of_mem hplain)
    · next hother =>
      cases hmessages : decodeMessages config nested g.buffers f (path ++ [str g.number]) with
      | ok found => exact ⟨found, rfl⟩
      | error e =>
        rcases decodeMessages_eq_error hwire hf hreads hmessages with ⟨m, p, rfl⟩ | hnext
        · exact absurd hmessages (hother m p)
        · rw [FieldDef.nextAltTypeId_of_nil hnil] at hnext
          cases hnext
  · rw [hnumber hwire, if_neg (by simp)]
    obtain ⟨found, hfound⟩ := exists_decodeStandardField floats hplain hwire hne hnil path
    rw [hfound]
    exact ⟨_, rfl⟩

/-! ### Whole messages -/

/-- A field that was not met yet has no definition. -/
def Unmet (done : List (Nat × List WireField)) (s : MessageState) : Prop :=
  ∀ n, n ∉ done.map Prod.fst → Dict.lookup (str n) s.typedef.fields = none

theorem decodeField_unmet {done : List (Nat × List WireField)} {s s' : MessageState}
    (h : Unmet done s) {nested : Nested} {g : Group} {path : List Text}
    (hround : decodeField floats config nested path s (str g.number, g.wireType, g.buffers) =
      .ok s') :
    Unmet (done ++ [(g.number, g.fields)]) s' := by
  obtain ⟨_, _, hround⟩ := bind_eq_ok.mp hround
  cases hround
  intro n hn
  rw [List.map_append, List.mem_append, not_or] at hn
  rw [TypeDef.setFielddef]
  dsimp only
  rw [Dict.lookup_assign, if_neg]
  · exact h n hn.1
  · intro heq
    exact hn.2 (List.mem_singleton.mpr (str_injective heq))

/-- Without a definition, the fields of a message are decoded, whatever they hold. -/
theorem exists_foldlM_decodeField (hplain : config.IsPlain) {nested : Nested} {fs : List WireField}
    (hconsistent : Consistent fs)
    (hreads : ∀ f ∈ fs, ∀ payload, f.content.payload = some payload →
      Reads floats config nested payload ∧ Ends nested payload) (path : List Text) :
    ∃ s, (toGrouped (fieldsOf fs)).foldlM (decodeField floats config nested path)
      ⟨[], [], TypeDef.empty.makeMutable⟩ = .ok s := by
  have hreads' := fun f hf payload hpayload ↦ (hreads f hf payload hpayload).1
  cases hloop : (toGrouped (fieldsOf fs)).foldlM (decodeField floats config nested path)
      ⟨[], [], TypeDef.empty.makeMutable⟩ with
  | ok s => exact ⟨s, rfl⟩
  | error e =>
    rw [toGrouped, List.foldlM_map] at hloop
    obtain ⟨done, entry, s, hdone, ⟨hprogress, hunmet⟩, hround⟩ := exists_error_of_foldlM
      (fun done s ↦ Progress floats config .empty done s ∧ Unmet done s) hloop
      ⟨.start .empty, fun n _ ↦ rfl⟩ (by
        rintro done entry s s' hdone ⟨hprogress, hunmet⟩ hround
        refine ⟨progress_step hplain hconsistent hreads' hdone hprogress hround, ?_⟩
        obtain ⟨g, rfl, hwire, -, -, -⟩ := exists_group hconsistent hdone
        rw [← hwire] at hround
        exact decodeField_unmet hunmet hround)
    obtain ⟨g, rfl, hwire, hnew, hne, hmem⟩ := exists_group hconsistent hdone
    rw [← hwire] at hround
    have hfresh : s.typedef.fielddef (str g.number) = .fresh (str g.number) := by
      rw [TypeDef.fielddef, TypeDef.lookupFielddefNumber, hunmet g.number hnew]
      rfl
    obtain ⟨found, hfound⟩ := exists_decodeGroup hplain hne
      (hprogress.inferred.fielddef (str g.number)) (by rw [hfresh]; rfl)
      (fun w hw ↦ hreads w (hmem w hw)) path
    rcases bind_eq_error.mp hround with hgroup | ⟨_, _, heq⟩
    · cases hfound.symm.trans hgroup
    · cases heq

/-- With a definition, decoding the fields of a message comes to an end. -/
theorem foldlM_decodeField_ne_unfinished (hplain : config.IsPlain) {nested : Nested}
    {fs : List WireField} (hconsistent : Consistent fs)
    (hreads : ∀ f ∈ fs, ∀ payload, f.content.payload = some payload →
      Reads floats config nested payload ∧ Ends nested payload) (path : List Text) {t : TypeDef}
    (ht : Inferred t) :
    (toGrouped (fieldsOf fs)).foldlM (decodeField floats config nested path)
      ⟨[], [], t.makeMutable⟩ ≠ .error .unfinished := by
  intro hloop
  have hreads' := fun f hf payload hpayload ↦ (hreads f hf payload hpayload).1
  rw [toGrouped, List.foldlM_map] at hloop
  obtain ⟨done, entry, s, hdone, hprogress, hround⟩ := exists_error_of_foldlM
    (Progress floats config t) hloop (.start ht)
    fun done entry s s' hdone hprogress hround ↦
      progress_step hplain hconsistent hreads' hdone hprogress hround
  obtain ⟨g, rfl, hwire, -, -, hmem⟩ := exists_group hconsistent hdone
  rw [← hwire] at hround
  rcases bind_eq_error.mp hround with hgroup | ⟨_, _, heq⟩
  · exact decodeGroup_ne_unfinished hplain (hprogress.inferred.fielddef (str g.number))
      (fun w hw ↦ hreads w (hmem w hw)) hgroup
  · cases heq

/-- Every key has its field among those that were seen. -/
theorem exists_simplifyOutput {t : TypeDef} {done : List (Nat × List WireField)} {s : MessageState}
    (h : Progress floats config t done s) :
    ∃ message, simplifyOutput s.seenRepeated s.output = .ok message := by
  cases hall : simplifyOutput s.seenRepeated s.output with
  | ok message => exact ⟨message, rfl⟩
  | error e =>
    obtain ⟨parts, houtput, -, hparts, -⟩ := h.parts
    rw [simplifyOutput, houtput] at hall
    obtain ⟨entry, hentry, herror⟩ := exists_error_of_mapM hall
    obtain ⟨p, hp, rfl⟩ := List.mem_map.mp hentry
    obtain ⟨isRepeated, hseen⟩ := h.seen p.number (hparts p hp).1
    have hkey : beforeDash p.key = str p.number := beforeDash_keyOf (dash_not_mem_str _) _
    dsimp only at herror
    rw [simplify.eq_def, hkey, hseen] at herror
    split at herror
    · cases herror
    · cases herror

/-- Without a definition, exactly the messages with one wire type for each number are decoded, and
nothing but a `DecoderException` is raised. -/
theorem decodeBetween_empty (hplain : config.IsPlain) {nested : Nested} {fuel pos : Nat}
    {buf : Bytes}
    (hpos : pos ≤ buf.length) (hsteady : Steady (buf.drop pos)) (hfuel : buf.length ≤ fuel + pos)
    (hreads : ∀ fs f payload, buf.drop pos = serialize fs → f ∈ fs →
      f.content.payload = some payload → Reads floats config nested payload ∧ Ends nested payload)
    (path : List Text) :
    ((∃ found, decodeBetween floats config nested fuel buf .empty pos buf.length path = .ok found) ↔
      ∃ fs, buf.drop pos = serialize fs ∧ Consistent fs) ∧
    ∀ e, decodeBetween floats config nested fuel buf .empty pos buf.length path = .error e →
      ∃ m p, e = .decoder m p := by
  have htotal : ∀ fs, buf.drop pos = serialize fs → Consistent fs →
      ∃ found, decodeBetween floats config nested fuel buf .empty pos buf.length path =
        .ok found := by
    intro fs hfs hconsistent
    have hlength := length_le_serialize fs
    rw [← hfs, List.length_drop] at hlength
    have hsplit := groupByNumber_serialize path hpos hfs hconsistent
      (show fs.length ≤ fuel by omega)
    obtain ⟨s, hloop⟩ := exists_foldlM_decodeField hplain hconsistent
      (fun f hf payload ↦ hreads fs f payload hfs hf) path
    obtain ⟨message, hmessage⟩ := exists_simplifyOutput (progress_of_foldlM hplain hconsistent
      (fun f hf payload hpayload ↦ (hreads fs f payload hfs hf hpayload).1) .empty hloop)
    refine ⟨(⟨message, s.typedef, orderOf fs⟩, (buf.length : Int)),
      bind_eq_ok.mpr ⟨_, hsplit, ?_⟩⟩
    exact bind_eq_ok.mpr ⟨s, hloop, bind_eq_ok.mpr ⟨message, hmessage, rfl⟩⟩
  refine ⟨⟨fun ⟨found, hfound⟩ ↦ ?_, fun ⟨fs, hfs, hconsistent⟩ ↦ htotal fs hfs hconsistent⟩,
    fun e he ↦ ?_⟩
  · obtain ⟨split, hsplit, -⟩ := bind_eq_ok.mp hfound
    obtain ⟨fs, hfs, hconsistent, -⟩ := exists_fields_of_split hpos hsteady hsplit
    exact ⟨fs, hfs, hconsistent⟩
  · rcases bind_eq_error.mp he with hsplit | ⟨split, hsplit, _⟩
    · exact groupByNumber_eq_error hpos hsteady hfuel hsplit
    · obtain ⟨fs, hfs, hconsistent, -⟩ := exists_fields_of_split hpos hsteady hsplit
      obtain ⟨found, hfound⟩ := htotal fs hfs hconsistent
      rw [hfound] at he
      cases he

/-- With a definition, decoding comes to an end. -/
theorem decodeBetween_ne_unfinished (hplain : config.IsPlain) {nested : Nested} {fuel pos : Nat}
    {buf : Bytes} (hpos : pos ≤ buf.length) (hsteady : Steady (buf.drop pos))
    (hfuel : buf.length ≤ fuel + pos)
    (hreads : ∀ fs f payload, buf.drop pos = serialize fs → f ∈ fs →
      f.content.payload = some payload → Reads floats config nested payload ∧ Ends nested payload)
    (path : List Text) {t : TypeDef} (ht : Inferred t) :
    decodeBetween floats config nested fuel buf t pos buf.length path ≠ .error .unfinished := by
  intro h
  rcases bind_eq_error.mp h with hsplit | ⟨split, hsplit, h⟩
  · obtain ⟨m, p, heq⟩ := groupByNumber_eq_error hpos hsteady hfuel hsplit
    cases heq
  · obtain ⟨fs, hfs, hconsistent, rfl⟩ := exists_fields_of_split hpos hsteady hsplit
    have hfields := fun f hf payload ↦ hreads fs f payload hfs hf
    rcases bind_eq_error.mp h with hloop | ⟨s, hloop, h⟩
    · exact foldlM_decodeField_ne_unfinished hplain hconsistent hfields path ht hloop
    · rcases bind_eq_error.mp h with hsimple | ⟨_, _, heq⟩
      · obtain ⟨message, hmessage⟩ := exists_simplifyOutput (progress_of_foldlM hplain hconsistent
          (fun f hf payload hpayload ↦ (hfields f hf payload hpayload).1) ht hloop)
        rw [hmessage] at hsimple
        cases hsimple
      · cases heq

/-- What is nested is shorter. -/
theorem length_payload_lt {fs : List WireField} {f : WireField} (hf : f ∈ fs) {payload : Bytes}
    (hpayload : f.content.payload = some payload) : payload.length < (serialize fs).length := by
  have hle : f.bytes.length ≤ (serialize fs).length := by
    obtain ⟨before, behind, rfl⟩ := List.append_of_mem hf
    rw [serialize_append, serialize_cons, List.length_append, List.length_append]
    omega
  have htag := f.length_bytes_pos
  obtain ⟨number, content, small⟩ := f
  cases content with
  | lengthDelimited p short =>
    cases hpayload
    have hlength := Base128.length_bytes_pos payload.length
    rw [WireField.bytes, Content.bytes, List.length_append, List.length_append] at hle
    omega
  | varint | fixed64 | fixed32 => cases hpayload

/-- Decoding a nested message comes to an end. -/
theorem ends_decodeLendelimMessage (hplain : config.IsPlain) {payload : Bytes} (h : Forward payload)
    {fuel : Nat} (hfuel : payload.length < fuel) :
    Ends (decodeLendelimMessage floats config fuel) payload := by
  induction h generalizing fuel with
  | @mk payload steady nested ih =>
    cases fuel with
    | zero => omega
    | succ fuel =>
      have hbetween : ∀ short : payload.length < 2 ^ 63, (Base128.bytes payload.length).length ≤
          (Content.lengthDelimited payload short).bytes.length ∧
          (Content.lengthDelimited payload short).bytes.drop
            (Base128.bytes payload.length).length = payload ∧
          (Content.lengthDelimited payload short).bytes.length ≤
            fuel + (Base128.bytes payload.length).length := by
        intro short
        rw [Content.bytes, List.length_append, List.drop_left]
        exact ⟨by omega, rfl, by omega⟩
      have hreads : ∀ fs f payload', payload = serialize fs → f ∈ fs →
          f.content.payload = some payload' →
            Reads floats config (decodeLendelimMessage floats config fuel) payload' ∧
              Ends (decodeLendelimMessage floats config fuel) payload' := by
        intro fs f payload' hfs hf hpayload'
        have hshorter := length_payload_lt hf hpayload'
        rw [← hfs] at hshorter
        exact ⟨reads_decodeLendelimMessage hplain (nested fs f payload' hfs hf hpayload') fuel,
          ih fs f payload' hfs hf hpayload' (by omega)⟩
      constructor
      · intro short t ht hread
        obtain ⟨hpos, hdrop, hroom⟩ := hbetween short
        rw [decodeLendelimMessage_succ] at hread
        refine decodeBetween_ne_unfinished hplain hpos (by rw [hdrop]; exact steady) hroom
          (by rw [hdrop]; exact hreads) [] ht ?_
        exact eq_error_of_map hread
      · intro short e hread
        obtain ⟨hpos, hdrop, hroom⟩ := hbetween short
        rw [decodeLendelimMessage_succ] at hread
        exact (decodeBetween_empty hplain hpos (by rw [hdrop]; exact steady) hroom
          (by rw [hdrop]; exact hreads) []).2 e (eq_error_of_map hread)

/-- Without a definition, exactly the messages with one wire type for each number are decoded;
every other buffer raises a `DecoderException`. -/
theorem decodeMessage_empty_iff (floats : Floats) (hplain : config.IsPlain) {m : Bytes}
    (h : Forward m) {fuel : Nat}
    (hfuel : m.length ≤ fuel) :
    ((∃ decoded, decodeMessage floats config fuel m .empty = .ok decoded) ↔
      ∃ fs, m = serialize fs ∧ Consistent fs) ∧
    ∀ e, decodeMessage floats config fuel m .empty = .error e → ∃ message path,
      e = .decoder message path := by
  have hreads : ∀ fs f payload, m.drop 0 = serialize fs → f ∈ fs →
      f.content.payload = some payload →
        Reads floats config (decodeLendelimMessage floats config fuel) payload ∧
          Ends (decodeLendelimMessage floats config fuel) payload := by
    intro fs f payload hfs hf hpayload
    have hshorter := length_payload_lt hf hpayload
    have hforward := h.nested hfs hf hpayload
    have hlength : payload.length < fuel := by
      rw [← hfs, List.drop_zero] at hshorter
      omega
    exact ⟨reads_decodeLendelimMessage hplain hforward fuel,
      ends_decodeLendelimMessage hplain hforward hlength⟩
  have hspec := decodeBetween_empty hplain (Nat.zero_le m.length) h.steady hfuel hreads []
  have hmessage : decodeMessage floats config fuel m .empty =
      (decodeBetween floats config (decodeLendelimMessage floats config fuel) fuel m .empty
        (0 : Nat) m.length []).map Prod.fst := by
    rw [decodeMessage]
    exact bind_pure_comp _ _
  rw [hmessage]
  refine ⟨⟨fun ⟨decoded, hread⟩ ↦ ?_, fun hfields ↦ ?_⟩, fun e he ↦ hspec.2 e (eq_error_of_map he)⟩
  · obtain ⟨found, hfound, -⟩ := exists_of_map_eq_ok hread
    exact hspec.1.mp ⟨found, hfound⟩
  · obtain ⟨found, hfound⟩ := hspec.1.mpr hfields
    exact ⟨found.1, by rw [hfound]; rfl⟩

end ScrapyCffi.Protobuf
