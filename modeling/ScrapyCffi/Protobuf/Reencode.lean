import ScrapyCffi.Protobuf.Groups

/-!
# A decoded message is encoded again

What decoding makes of a message stands for its fields, at every depth, and so does what is encoded
of it, by the definition that decoding makes up or by one that extends it.
-/

namespace ScrapyCffi.Protobuf

open ScrapyCffi.Base

/-- However a message, and whatever is nested in it, is split into fields and a rest, no length
leads back. -/
inductive Forward : Bytes → Prop
  | mk {m : Bytes} (steady : Steady m)
      (nested : ∀ fs f payload, m = serialize fs → f ∈ fs → f.content.payload = some payload →
        Forward payload) : Forward m

theorem Forward.steady {m : Bytes} (h : Forward m) : Steady m := by
  cases h with
  | mk steady _ => exact steady

theorem Forward.nested {m : Bytes} (h : Forward m) {fs : List WireField} {f : WireField}
    {payload : Bytes} (hm : m = serialize fs) (hf : f ∈ fs)
    (hpayload : f.content.payload = some payload) : Forward payload := by
  cases h with
  | mk _ nested => exact nested fs f payload hm hf hpayload

variable {floats : Floats} {config : Config}

variable (floats config) in
/-- What the fields up to some point are decoded to stands for them. -/
structure Progress (t : TypeDef) (done : List (Nat × List WireField)) (s : MessageState) :
    Prop where
  inferred : Inferred s.typedef
  extended : t.Extends s.typedef
  seen : ∀ n ∈ done.map Prod.fst, ∃ isRepeated, Dict.lookup (str n) s.seenRepeated = some isRepeated
  parts : ∃ parts : List Part,
    s.output = (parts.map fun p ↦ (p.key, p.values)) ∧ (parts.map Part.key).Nodup ∧
      (∀ p ∈ parts, p.number ∈ done.map Prod.fst ∧ p.Fits floats config s.typedef) ∧
      SameFields (Multimap.values done) (parts.flatMap Part.fields)

theorem Part.key_injective {p q : Part} (h : p.key = q.key) :
    p.number = q.number ∧ p.altTypeId = q.altTypeId := by
  have hbefore := congrArg beforeDash h
  have hafter := congrArg (fun key ↦ (afterDash key).getD "0".toList) h
  dsimp only [Part.key] at hbefore hafter
  rw [beforeDash_keyOf (dash_not_mem_str _), beforeDash_keyOf (dash_not_mem_str _)] at hbefore
  rw [afterDash_keyOf (dash_not_mem_str _), afterDash_keyOf (dash_not_mem_str _)] at hafter
  exact ⟨str_injective hbefore, hafter⟩

/-- One more field. -/
theorem decodeField_spec (hplain : config.IsPlain) {t : TypeDef}
    {done : List (Nat × List WireField)}
    {s s' : MessageState} (h : Progress floats config t done s) {nested : Nested} {g : Group}
    (hnew : g.number ∉ done.map Prod.fst)
    (hreads : ∀ w ∈ g.fields, ∀ payload, w.content.payload = some payload →
      Reads floats config nested payload)
    {path : List Text}
    (hround : decodeField floats config nested path s (str g.number, g.wireType, g.buffers) =
      .ok s') :
    Progress floats config t (done ++ [(g.number, g.fields)]) s' := by
  have hf := h.inferred.fielddef (str g.number)
  obtain ⟨⟨outputs, f'⟩, hgroup, hround⟩ := bind_eq_ok.mp hround
  cases hround
  have hdecodes := decodeGroup_spec hplain hf hreads hgroup
  obtain ⟨added, rfl, hadded, hfits, hsame⟩ := hdecodes.parts
  obtain ⟨parts, houtput, hkeys, hparts, hfields⟩ := h.parts
  have hextends : s.typedef.Extends (s.typedef.setFielddef (str g.number) f') :=
    .setFielddef hdecodes.extended
  have hnodup : ((parts ++ added).map Part.key).Nodup := by
    rw [List.map_append]
    apply List.nodup_append.mpr
    refine ⟨hkeys, ?_, ?_⟩
    · apply List.pairwise_map.mpr
      exact (List.pairwise_map.mp hadded).imp fun hne heq ↦ hne (Part.key_injective heq).2
    · intro k hk k' hk' heq
      obtain ⟨p, hp, rfl⟩ := List.mem_map.mp hk
      obtain ⟨q, hq, rfl⟩ := List.mem_map.mp hk'
      have hnumber := (Part.key_injective heq).1
      rw [(hfits q hq).1] at hnumber
      exact hnew (hnumber ▸ (hparts p hp).1)
  refine ⟨h.inferred.setFielddef hdecodes.field, h.extended.trans hextends, fun n hn ↦ ?_,
    parts ++ added, ?_, hnodup, fun p hp ↦ ?_, ?_⟩
  · have hlabel : ((s.typedef.lookupFielddefNumber (str g.number)).getD
        (FieldDef.fresh (str g.number))).label = str g.number := FieldDef.label_of_inferred hf
    dsimp only
    rw [hlabel, Dict.lookup_assign]
    split
    · exact ⟨_, rfl⟩
    · next hne =>
      rw [List.map_append, List.mem_append] at hn
      rcases hn with hn | hn
      · exact h.seen n hn
      · exact absurd (congrArg str (List.mem_singleton.mp hn)) hne
  · dsimp only
    rw [houtput, Multimap.foldl_extend_eq_append, List.map_append]
    rw [← List.map_append, List.map_map]
    exact hnodup
  · rw [List.map_append, List.mem_append]
    rcases List.mem_append.mp hp with hp | hp
    · exact ⟨.inl (hparts p hp).1, (hparts p hp).2.extends hextends⟩
    · obtain ⟨hnumber, type, htype, hitems⟩ := hfits p hp
      refine ⟨.inr (by rw [hnumber]; exact List.mem_singleton_self _), type, ?_, hitems⟩
      rw [typeAt_setFielddef, hnumber, if_pos rfl, htype]
  · have hvalues : Multimap.values (done ++ [(g.number, g.fields)]) =
        Multimap.values done ++ g.fields := by
      rw [Multimap.values, List.flatMap_append, List.flatMap_singleton]
      rfl
    rw [hvalues, List.flatMap_append]
    exact hfields.append hsame

/-- The fields of the next number of a message. -/
theorem exists_group {fs : List WireField} (hconsistent : Consistent fs)
    {done : List (Nat × List WireField)} {entry : Nat × List WireField}
    (hdone : done ++ [entry] <+: fieldsOf fs) :
    ∃ g : Group, entry = (g.number, g.fields) ∧ g.wireType = contentType g.fields ∧
      g.number ∉ done.map Prod.fst ∧ g.fields ≠ [] ∧ ∀ f ∈ g.fields, f ∈ fs := by
  have hkeyed : Multimap.Keyed WireField.number (fieldsOf fs) := Multimap.keyed_collect fs
  have hentry : entry ∈ fieldsOf fs := hdone.subset (by simp)
  obtain ⟨n, fields⟩ := entry
  have hnew : n ∉ done.map Prod.fst := by
    intro hold
    have hlead := hkeyed.nodup.sublist (hdone.sublist.map Prod.fst)
    rw [List.map_append] at hlead
    exact (List.nodup_append.mp hlead).2.2 _ hold _ List.mem_cons_self rfl
  have hmem : ∀ f ∈ fields, f ∈ fs ∧ f.number = n := by
    intro f hf
    have hunder : f ∈ Multimap.under (fieldsOf fs) n := by
      rw [Multimap.under, Dict.lookup_of_mem hkeyed.nodup hentry]
      exact hf
    rw [under_fieldsOf, List.mem_filter, decide_eq_true_iff] at hunder
    exact hunder
  cases fields with
  | nil => exact absurd rfl (ne_nil_of_mem_fieldsOf hentry)
  | cons first rest =>
    have hfirst := hmem first List.mem_cons_self
    have hall : ∀ f ∈ first :: rest, f.number = n ∧
        f.content.wireType = contentType (first :: rest) :=
      fun f hf ↦ ⟨(hmem f hf).2, hconsistent f (hmem f hf).1 first hfirst.1
        ((hmem f hf).2.trans hfirst.2.symm)⟩
    exact ⟨⟨n, hfirst.2 ▸ first.small, _, first :: rest, hall⟩, rfl, rfl, hnew,
      List.cons_ne_nil first rest, fun f hf ↦ (hmem f hf).1⟩

/-- A list of outputs, or the only one of them. -/
theorem presents_of_simplify {seenRepeated : List (Text × Bool)} {key : Text} {outputs : List Value}
    {value : Value} (h : simplify seenRepeated key outputs = .ok value) :
    Presents value outputs := by
  rw [simplify.eq_def] at h
  split at h
  · split at h
    · cases h
    · next isRepeated _ =>
      cases isRepeated with
      | false =>
        cases h
        exact .inr rfl
      | true =>
        cases h
        exact .inl rfl
  · cases h
    exact .inl rfl

theorem makeMutable_of_inferred {t : TypeDef} (h : Inferred t) : t.makeMutable = t := by
  have hnames := h.names
  obtain ⟨fields, names⟩ := t
  dsimp only at hnames
  rw [hnames]
  rfl

/-- One field after another. -/
theorem progress_step (hplain : config.IsPlain) {nested : Nested} {fs : List WireField}
    (hconsistent : Consistent fs)
    (hreads : ∀ f ∈ fs, ∀ payload, f.content.payload = some payload →
      Reads floats config nested payload)
    {path : List Text} {t : TypeDef} {done : List (Nat × List WireField)}
    {entry : Nat × List WireField} {s s' : MessageState} (hdone : done ++ [entry] <+: fieldsOf fs)
    (h : Progress floats config t done s)
    (hround : decodeField floats config nested path s
      (str entry.1, (contentType entry.2, entry.2.map fun f ↦ f.content.bytes)) = .ok s') :
    Progress floats config t (done ++ [entry]) s' := by
  obtain ⟨g, rfl, hwire, hnew, -, hmem⟩ := exists_group hconsistent hdone
  rw [← hwire] at hround
  exact decodeField_spec hplain h hnew (fun w hw ↦ hreads w (hmem w hw)) hround

/-- Before the first field. -/
theorem Progress.start {t : TypeDef} (ht : Inferred t) :
    Progress floats config t [] ⟨[], [], t.makeMutable⟩ := by
  rw [makeMutable_of_inferred ht]
  exact ⟨ht, .refl t, fun n hn ↦ absurd hn List.not_mem_nil, [], rfl, List.nodup_nil,
    fun p hp ↦ absurd hp List.not_mem_nil, .nil⟩

/-- The rounds over the fields of a message. -/
theorem progress_of_foldlM (hplain : config.IsPlain) {nested : Nested} {fs : List WireField}
    (hconsistent : Consistent fs)
    (hreads : ∀ f ∈ fs, ∀ payload, f.content.payload = some payload →
      Reads floats config nested payload)
    {path : List Text} {t : TypeDef} (ht : Inferred t) {s : MessageState}
    (h : (toGrouped (fieldsOf fs)).foldlM (decodeField floats config nested path)
      ⟨[], [], t.makeMutable⟩ = .ok s) : Progress floats config t (fieldsOf fs) s := by
  rw [toGrouped, List.foldlM_map] at h
  exact foldlM_invariant (Progress floats config t) h (.start ht)
    fun done entry s s' hdone hprogress hround ↦
      progress_step hplain hconsistent hreads hdone hprogress hround

/-- What a buffer is decoded to from some position on stands for its fields. -/
theorem exists_progress_of_decodeBetween (hplain : config.IsPlain) {nested : Nested}
    {fuel pos : Nat}
    {buf : Bytes} (hpos : pos ≤ buf.length) (hsteady : Steady (buf.drop pos))
    (hreads : ∀ fs f payload, buf.drop pos = serialize fs → f ∈ fs →
      f.content.payload = some payload → Reads floats config nested payload)
    {path : List Text} {t : TypeDef} (ht : Inferred t) {decoded : Decoded} {last : Int}
    (h : decodeBetween floats config nested fuel buf t pos buf.length path = .ok (decoded, last)) :
    ∃ fs s, buf.drop pos = serialize fs ∧ Progress floats config t (fieldsOf fs) s ∧
      simplifyOutput s.seenRepeated s.output = .ok decoded.message ∧
        decoded.typedef = s.typedef := by
  obtain ⟨split, hsplit, h⟩ := bind_eq_ok.mp h
  obtain ⟨fs, hfs, hconsistent, rfl⟩ := exists_fields_of_split hpos hsteady hsplit
  obtain ⟨s, hloop, h⟩ := bind_eq_ok.mp h
  obtain ⟨message, hmessage, h⟩ := bind_eq_ok.mp h
  cases h
  exact ⟨fs, s, hfs, progress_of_foldlM hplain hconsistent
    (fun f hf payload ↦ hreads fs f payload hfs hf) ht hloop, hmessage, rfl⟩

/-- The fields of the parts are those of the message. -/
theorem Progress.exists_parts {t : TypeDef} {fs : List WireField} {s : MessageState}
    (h : Progress floats config t (fieldsOf fs) s) :
    ∃ parts : List Part, s.output = (parts.map fun p ↦ (p.key, p.values)) ∧
      (∀ p ∈ parts, p.Fits floats config s.typedef) ∧
      SameFields fs (parts.flatMap Part.fields) := by
  obtain ⟨parts, houtput, -, hparts, hfields⟩ := h.parts
  have hcollect : SameFields fs (Multimap.values (fieldsOf fs)) :=
    .of_sameByKey (Multimap.sameByKey_collect fs)
  exact ⟨parts, houtput, fun p hp ↦ (hparts p hp).2, hcollect.trans hfields⟩

/-- What a buffer is decoded to from some position on is encoded to the same fields. -/
theorem decodeBetween_spec (hplain : config.IsPlain) {nested : Nested} {fuel pos : Nat}
    {buf : Bytes}
    (hpos : pos ≤ buf.length) (hsteady : Steady (buf.drop pos))
    (hreads : ∀ fs f payload, buf.drop pos = serialize fs → f ∈ fs →
      f.content.payload = some payload → Reads floats config nested payload)
    {path : List Text} {t : TypeDef} (ht : Inferred t) {decoded : Decoded} {last : Int}
    (h : decodeBetween floats config nested fuel buf t pos buf.length path = .ok (decoded, last)) :
    Inferred decoded.typedef ∧ t.Extends decoded.typedef ∧
      Reproduces floats config decoded.message decoded.typedef (buf.drop pos) := by
  obtain ⟨fs, s, hfs, hprogress, hmessage, htypedef⟩ :=
    exists_progress_of_decodeBetween hplain hpos hsteady hreads ht h
  obtain ⟨parts, houtput, hparts, hfields⟩ := hprogress.exists_parts
  rw [htypedef, hfs]
  refine ⟨hprogress.inferred, hprogress.extended, reproduces_of_parts hparts ?_ hfields⟩
  rw [simplifyOutput, mapM_eq_ok_iff, houtput, List.forall₂_map_left_iff] at hmessage
  apply hmessage.imp
  intro p entry hentry
  obtain ⟨value, hsimple, rfl⟩ := exists_of_map_eq_ok hentry
  exact ⟨rfl, presents_of_simplify hsimple⟩

/-- The position behind the length of a nested message. -/
theorem decodeLendelimMessage_succ {payload : Bytes} (short : payload.length < 2 ^ 63) (fuel : Nat)
    (t : TypeDef) :
    decodeLendelimMessage floats config (fuel + 1) (Content.lengthDelimited payload short).bytes t =
      (decodeBetween floats config (decodeLendelimMessage floats config fuel) fuel
        (Content.lengthDelimited payload short).bytes t (Base128.bytes payload.length).length
        (Content.lengthDelimited payload short).bytes.length []).map Prod.fst := by
  have hvarint : decodeVarint (Content.lengthDelimited payload short).bytes 0 =
      .ok ((payload.length : Int), ((Base128.bytes payload.length).length : Int)) :=
    decodeVarint_length short
  have hstop : ((Base128.bytes payload.length).length : Int) + payload.length =
      (Content.lengthDelimited payload short).bytes.length := by
    rw [Content.bytes, List.length_append]
    omega
  rw [decodeLendelimMessage, hvarint]
  simp only [bind, Except.bind]
  rw [hstop]
  cases decodeBetween floats config (decodeLendelimMessage floats config fuel) fuel
    (Content.lengthDelimited payload short).bytes t (Base128.bytes payload.length).length
    (Content.lengthDelimited payload short).bytes.length [] with
  | ok found => rfl
  | error e => rfl

/-- A nested message is encoded to the same fields. -/
theorem reads_decodeLendelimMessage (hplain : config.IsPlain) {payload : Bytes}
    (h : Forward payload) (fuel : Nat) :
    Reads floats config (decodeLendelimMessage floats config fuel) payload := by
  induction h generalizing fuel with
  | @mk payload steady _ ih =>
    intro short t decoded ht hread
    cases fuel with
    | zero => cases hread
    | succ fuel =>
      have hdrop : (Content.lengthDelimited payload short).bytes.drop
          (Base128.bytes payload.length).length = payload := by
        rw [Content.bytes, List.drop_left]
      have hpos : (Base128.bytes payload.length).length ≤
          (Content.lengthDelimited payload short).bytes.length := by
        rw [Content.bytes, List.length_append]
        omega
      rw [decodeLendelimMessage_succ] at hread
      obtain ⟨⟨decoded', last⟩, hbetween, rfl⟩ := exists_of_map_eq_ok hread
      have hspec := decodeBetween_spec hplain hpos (by rw [hdrop]; exact steady) (by
        intro fs f payload' hfs hf hpayload'
        rw [hdrop] at hfs
        exact ih fs f payload' hfs hf hpayload' fuel) ht hbetween
      rw [hdrop] at hspec
      exact hspec

/-- A message is encoded to the same fields, by the definition that decoding returns and by every
one that extends it. -/
theorem decodeMessage_spec (hplain : config.IsPlain) {m : Bytes} (h : Forward m) {fuel : Nat}
    {t : TypeDef} (ht : Inferred t) {decoded : Decoded}
    (hread : decodeMessage floats config fuel m t = .ok decoded) :
    Inferred decoded.typedef ∧ t.Extends decoded.typedef ∧
      Reproduces floats config decoded.message decoded.typedef m := by
  obtain ⟨⟨decoded', last⟩, hbetween, heq⟩ := bind_eq_ok.mp hread
  cases heq
  have hspec := decodeBetween_spec hplain (Nat.zero_le m.length) h.steady
    (fun fs f payload hfs hf hpayload ↦
      reads_decodeLendelimMessage hplain (h.nested hfs hf hpayload) fuel) ht hbetween
  exact hspec

end ScrapyCffi.Protobuf
