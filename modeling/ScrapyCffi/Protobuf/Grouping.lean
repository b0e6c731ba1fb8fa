import ScrapyCffi.Protobuf.Fields

/-!
# A message is split into its fields

What `_group_by_number` returns for a message, and for which buffers it returns.
-/

namespace ScrapyCffi.Protobuf

open ScrapyCffi.Base

/-! ### One field -/

theorem checkWireType_eq_ok_iff {grouped : Grouped} {fieldId : Text} {wireType : Nat}
    {path : List Text} : checkWireType grouped fieldId wireType path = .ok () ↔
      ∀ known contents, Dict.lookup fieldId grouped = some (known, contents) →
        known = wireType := by
  rw [checkWireType]
  cases hlookup : Dict.lookup fieldId grouped with
  | none => simp
  | some found =>
    obtain ⟨known, contents⟩ := found
    by_cases hsame : known = wireType
    · simp [hsame]
    · simp [hsame]

/-- A field is read where it stands. -/
theorem readField_of_field {buf tail : Bytes} {pos : Nat} {f : WireField} (path : List Text)
    {grouped : Grouped} (hpos : pos ≤ buf.length) (h : buf.drop pos = f.bytes ++ tail)
    (hknown : ∀ known contents, Dict.lookup (str f.number) grouped = some (known, contents) →
      known = f.content.wireType) :
    readField buf buf.length path grouped pos = .ok (f.number, f.content.wireType, f.content.bytes,
      ((pos + f.bytes.length : Nat) : Int)) := by
  rw [WireField.bytes, List.append_assoc] at h
  have hcount := congrArg List.length h
  rw [List.length_drop, List.length_append, List.length_append] at hcount
  have htag : decodeTag buf pos =
      .ok (f.number, f.content.wireType, ((pos + f.tag.length : Nat) : Int)) :=
    (decodeTag_eq_ok_iff hpos).mpr ⟨f.small, f.content.wireType_lt,
      by rw [h]; exact List.prefix_append _ _, rfl⟩
  have hdrop : buf.drop (pos + f.tag.length) = f.content.bytes ++ tail := by
    rw [← List.drop_drop, h, List.drop_left]
  have hlength := contentLength_of_content (path ++ [str f.number]) (by omega) hdrop
  have hslice : slice buf ((pos + f.tag.length : Nat) : Int)
      (((pos + f.tag.length : Nat) : Int) + f.content.bytes.length) = f.content.bytes := by
    rw [slice_natCast, hdrop, List.take_left]
  have hstop : ((pos + f.tag.length : Nat) : Int) + f.content.bytes.length =
      ((pos + f.bytes.length : Nat) : Int) := by
    rw [WireField.bytes, List.length_append]
    omega
  have hover : ¬((pos + f.bytes.length : Nat) : Int) > buf.length := by
    rw [WireField.bytes, List.length_append]
    omega
  rw [readField, htag]
  simp only [bind, Except.bind, checkWireType_eq_ok_iff.mpr hknown, hlength]
  rw [hslice, hstop, if_neg hover]

/-- What is read is a field, unless a length leads back. -/
theorem exists_field_of_readField {buf content : Bytes} {pos number wireType : Nat}
    {path : List Text} {grouped : Grouped} {next : Int} (hpos : pos ≤ buf.length)
    (hback : ¬Backward (buf.drop pos))
    (h : readField buf buf.length path grouped pos = .ok (number, wireType, content, next)) :
    ∃ (f : WireField) (tail : Bytes), buf.drop pos = f.bytes ++ tail ∧ number = f.number ∧
      wireType = f.content.wireType ∧ content = f.content.bytes ∧
      next = ((pos + f.bytes.length : Nat) : Int) ∧
      ∀ known contents, Dict.lookup (str f.number) grouped = some (known, contents) →
        known = f.content.wireType := by
  obtain ⟨⟨n, w, start⟩, htag, hrest⟩ := bind_eq_ok.mp h
  obtain ⟨⟨⟩, hknown, hmore⟩ := bind_eq_ok.mp hrest
  obtain ⟨length, hlength, hcheck⟩ := bind_eq_ok.mp hmore
  obtain ⟨hn, hw, ⟨behind, hbehind⟩, rfl⟩ := (decodeTag_eq_ok_iff hpos).mp htag
  have hcount := congrArg List.length hbehind
  rw [List.length_append, List.length_drop] at hcount
  have hdrop : buf.drop (pos + (Base128.bytes (8 * n + w)).length) = behind := by
    rw [← List.drop_drop, ← hbehind, List.drop_left]
  split at hcheck
  · cases hcheck
  · next hover =>
    cases hcheck
    rcases exists_content (by omega) hlength (by omega) with
      ⟨c, tail, hc, htail, rfl⟩ | ⟨rfl, m, tail, hbig, hlt, htail⟩
    · subst hc
      rw [hdrop] at htail
      refine ⟨⟨number, c, hn⟩, tail, ?_, rfl, rfl, ?_, ?_, checkWireType_eq_ok_iff.mp hknown⟩
      · rw [← hbehind, htail, WireField.bytes, List.append_assoc]
        rfl
      · rw [slice_natCast, hdrop, htail, List.take_left]
      · rw [WireField.bytes, WireField.tag, List.length_append]
        push_cast
        omega
    · rw [hdrop] at htail
      exact absurd ⟨number, m, tail, hn, hbig, hlt, by rw [← hbehind, htail]⟩ hback

/-- A field that is refused is refused with a `DecoderException`. -/
theorem readField_eq_error {buf : Bytes} {pos stop : Int} {path : List Text} {grouped : Grouped}
    {e : Exc} (h : readField buf stop path grouped pos = .error e) : ∃ m p, e = .decoder m p := by
  rw [readField] at h
  rcases bind_eq_error.mp h with htag | ⟨⟨n, w, start⟩, -, hrest⟩
  · obtain ⟨m, rfl⟩ := decodeTag_eq_error htag
    exact ⟨m, none, rfl⟩
  · rcases bind_eq_error.mp hrest with hcheck | ⟨-, -, hmore⟩
    · rw [checkWireType] at hcheck
      split at hcheck
      · split at hcheck
        · cases hcheck
          exact ⟨_, _, rfl⟩
        · cases hcheck
      · cases hcheck
    · rcases bind_eq_error.mp hmore with hlength | ⟨length, -, hlast⟩
      · exact contentLength_eq_error hlength
      · split at hlast
        · cases hlast
          exact ⟨_, _, rfl⟩
        · cases hlast

/-! ### The fields under their numbers -/

/-- The wire type of the fields of one number. -/
def contentType : List WireField → Nat
  | [] => 0
  | f :: _ => f.content.wireType

/-- Fields under their numbers, as `_group_by_number` holds them. -/
def toGrouped (m : List (Nat × List WireField)) : Grouped :=
  m.map fun entry ↦ (str entry.1, (contentType entry.2, entry.2.map fun f ↦ f.content.bytes))

/-- The fields of a message under their numbers. -/
def fieldsOf (fields : List WireField) : List (Nat × List WireField) :=
  Multimap.collect WireField.number fields

theorem fieldsOf_append (fields : List WireField) (f : WireField) :
    fieldsOf (fields ++ [f]) = Multimap.extend f.number [f] (fieldsOf fields) := by
  rw [fieldsOf, Multimap.collect, List.foldl_append]
  rfl

theorem under_fieldsOf (fields : List WireField) (n : Nat) :
    Multimap.under (fieldsOf fields) n = fields.filter fun f ↦ f.number = n :=
  Multimap.under_collect fields n

/-- No number stands without fields. -/
theorem ne_nil_of_mem_fieldsOf {fields : List WireField} {entry : Nat × List WireField}
    (h : entry ∈ fieldsOf fields) : entry.2 ≠ [] := by
  induction fields using List.reverseRecOn with
  | nil => exact absurd h List.not_mem_nil
  | append_singleton fields f ih =>
    rw [fieldsOf_append] at h
    rcases Dict.mem_assign h with rfl | hold
    · simp
    · exact ih hold

theorem lookup_toGrouped (m : List (Nat × List WireField)) (n : Nat) :
    Dict.lookup (str n) (toGrouped m) =
      (Dict.lookup n m).map fun fs ↦ (contentType fs, fs.map fun f ↦ f.content.bytes) :=
  Dict.lookup_map str_injective
    (fun fs : List WireField ↦ (contentType fs, fs.map fun f : WireField ↦ f.content.bytes)) n m

/-- A field of a number that stands already has its wire type. -/
theorem contentType_of_lookup {fields fs : List WireField} {f : WireField}
    (hconsistent : Consistent (fields ++ [f]))
    (h : Dict.lookup f.number (fieldsOf fields) = some fs) :
    contentType fs = f.content.wireType := by
  have hmem := Dict.mem_of_lookup h
  have hunder : Multimap.under (fieldsOf fields) f.number = fs := by
    rw [Multimap.under, h, Option.getD_some]
  cases fs with
  | nil => exact absurd rfl (ne_nil_of_mem_fieldsOf hmem)
  | cons g gs =>
    have hg : g ∈ fields.filter fun f' ↦ f'.number = f.number := by
      rw [← under_fieldsOf, hunder]
      exact List.mem_cons_self
    rw [List.mem_filter, decide_eq_true_iff] at hg
    exact hconsistent g (List.mem_append_left _ hg.1) f (by simp) hg.2

/-- A field is added to those before it. -/
theorem addContent_toGrouped {fields : List WireField} {f : WireField}
    (hconsistent : Consistent (fields ++ [f])) :
    addContent (str f.number) f.content.wireType f.content.bytes (toGrouped (fieldsOf fields)) =
      toGrouped (fieldsOf (fields ++ [f])) := by
  have hassign := fun fs : List WireField ↦
    Dict.assign_map str_injective (fun fs : List WireField ↦ (contentType fs,
      fs.map fun f ↦ f.content.bytes)) f.number fs (fieldsOf fields)
  rw [fieldsOf_append, Multimap.extend, Multimap.under, addContent, lookup_toGrouped]
  cases hlookup : Dict.lookup f.number (fieldsOf fields) with
  | none => exact hassign [f]
  | some fs =>
    have htype := contentType_of_lookup hconsistent hlookup
    have hlast : contentType (fs ++ [f]) = contentType fs := by
      cases fs with
      | nil => exact absurd rfl (ne_nil_of_mem_fieldsOf (Dict.mem_of_lookup hlookup))
      | cons g gs => rfl
    have h := hassign (fs ++ [f])
    rw [hlast, List.map_append] at h
    exact h

theorem Consistent.left {fields more : List WireField} (h : Consistent (fields ++ more)) :
    Consistent fields :=
  fun f hf g hg ↦ h f (List.mem_append_left _ hf) g (List.mem_append_left _ hg)

/-! ### The whole split -/

/-- The numbers of some fields, as texts. -/
def orderOf (fields : List WireField) : List Text := fields.map fun f ↦ str f.number

/-- A message is split into its fields. -/
theorem groupByNumber_of_fields {buf : Bytes} {path : List Text} {fields done : List WireField}
    {fuel pos : Nat} (hpos : pos ≤ buf.length) (h : buf.drop pos = serialize fields)
    (hconsistent : Consistent (done ++ fields)) (hfuel : fields.length ≤ fuel) :
    groupByNumber buf buf.length path fuel (toGrouped (fieldsOf done)) (orderOf done) pos =
      .ok (toGrouped (fieldsOf (done ++ fields)), orderOf (done ++ fields), buf.length) := by
  induction fields generalizing done fuel pos with
  | nil =>
    have hend : pos = buf.length := by
      have hlength := congrArg List.length h
      rw [List.length_drop, serialize_nil, List.length_nil] at hlength
      omega
    rw [List.append_nil]
    cases fuel with
    | zero => rw [groupByNumber, if_neg (by omega), hend]
    | succ fuel => rw [groupByNumber, if_neg (by omega), hend]
  | cons f rest ih =>
    rw [serialize_cons] at h
    have hsplit : done ++ f :: rest = done ++ [f] ++ rest := by simp
    rw [hsplit] at hconsistent ⊢
    have hcount := congrArg List.length h
    rw [List.length_drop, List.length_append] at hcount
    have hpositive := f.length_bytes_pos
    have hdrop : buf.drop (pos + f.bytes.length) = serialize rest := by
      rw [← List.drop_drop, h, List.drop_left]
    have hknown : ∀ known contents,
        Dict.lookup (str f.number) (toGrouped (fieldsOf done)) = some (known, contents) →
          known = f.content.wireType := by
      intro known contents hlookup
      rw [lookup_toGrouped] at hlookup
      obtain ⟨fs, hfs, heq⟩ := Option.map_eq_some_iff.mp hlookup
      cases heq
      exact contentType_of_lookup hconsistent.left hfs
    have hread := readField_of_field path hpos h hknown
    cases fuel with
    | zero => simp at hfuel
    | succ fuel =>
      have hrest := ih (by omega) hdrop hconsistent
        (show rest.length ≤ fuel by simpa using hfuel)
      rw [groupByNumber, if_pos (by omega), hread]
      show groupByNumber buf _ path fuel (addContent (str f.number) f.content.wireType
        f.content.bytes (toGrouped (fieldsOf done))) (orderOf done ++ [str f.number]) _ = _
      rw [addContent_toGrouped hconsistent.left, ← hrest]
      congr 1
      rw [orderOf, orderOf, List.map_append]
      rfl

/-- A message is split from its beginning on. -/
theorem groupByNumber_serialize {buf : Bytes} (path : List Text) {fields : List WireField}
    {fuel pos : Nat} (hpos : pos ≤ buf.length) (h : buf.drop pos = serialize fields)
    (hconsistent : Consistent fields) (hfuel : fields.length ≤ fuel) :
    groupByNumber buf buf.length path fuel [] [] pos =
      .ok (toGrouped (fieldsOf fields), orderOf fields, buf.length) := by
  have hall : Consistent ([] ++ fields) := hconsistent
  exact groupByNumber_of_fields hpos h hall hfuel

/-- However a text is split into fields and a rest, no length there leads back. -/
def Steady (text : Bytes) : Prop :=
  ∀ fields tail, text = serialize fields ++ tail → ¬Backward tail

theorem Steady.tail {f : WireField} {tail : Bytes} (h : Steady (f.bytes ++ tail)) :
    Steady tail := by
  intro fields more hmore
  apply h (f :: fields) more
  rw [serialize_cons, List.append_assoc, hmore]

/-- At the end of a buffer there are no more fields. -/
theorem exists_fields_of_end {buf : Bytes} {done : List WireField} {pos : Nat}
    (hpos : pos ≤ buf.length) (hlast : ¬(pos : Int) < buf.length) (hdone : Consistent done) :
    ∃ fields, buf.drop pos = serialize fields ∧ Consistent (done ++ fields) ∧
      (toGrouped (fieldsOf done), orderOf done, (pos : Int)) =
        (toGrouped (fieldsOf (done ++ fields)), orderOf (done ++ fields), (buf.length : Int)) := by
  have hlength : pos = buf.length := by omega
  refine ⟨[], ?_, ?_, ?_⟩
  · rw [hlength, List.drop_length, serialize_nil]
  · rwa [List.append_nil]
  · rw [List.append_nil, hlength]

/-- A field with the wire type of those of its number goes with them. -/
theorem Consistent.concat {done : List WireField} {f : WireField} (hdone : Consistent done)
    (hknown : ∀ known contents,
      Dict.lookup (str f.number) (toGrouped (fieldsOf done)) = some (known, contents) →
        known = f.content.wireType) : Consistent (done ++ [f]) := by
  have htype : ∀ g ∈ done, g.number = f.number → g.content.wireType = f.content.wireType := by
    intro g hg hnumber
    cases hlookup : Dict.lookup f.number (fieldsOf done) with
    | none =>
      have hunder : Multimap.under (fieldsOf done) f.number = [] := by
        rw [Multimap.under, hlookup, Option.getD_none]
      rw [under_fieldsOf, List.filter_eq_nil_iff] at hunder
      exact absurd (by simpa using hnumber) (hunder g hg)
    | some fs =>
      have hunder : Multimap.under (fieldsOf done) f.number = fs := by
        rw [Multimap.under, hlookup, Option.getD_some]
      rw [under_fieldsOf] at hunder
      have hfs := hknown (contentType fs) _ (by rw [lookup_toGrouped, hlookup, Option.map_some])
      cases fs with
      | nil => exact absurd rfl (ne_nil_of_mem_fieldsOf (Dict.mem_of_lookup hlookup))
      | cons first others =>
        have hfirst : first ∈ done.filter fun f' ↦ f'.number = f.number := by
          rw [hunder]
          exact List.mem_cons_self
        rw [List.mem_filter, decide_eq_true_iff] at hfirst
        rw [← hfs]
        exact hdone g hg first hfirst.1 (hnumber.trans hfirst.2.symm)
  intro x hx y hy hxy
  rcases List.mem_append.mp hx with hx | hx
  · rcases List.mem_append.mp hy with hy | hy
    · exact hdone x hx y hy hxy
    · rw [List.mem_singleton.mp hy] at hxy ⊢
      exact htype x hx hxy
  · rw [List.mem_singleton.mp hx] at hxy ⊢
    rcases List.mem_append.mp hy with hy | hy
    · exact (htype y hy hxy.symm).symm
    · rw [List.mem_singleton.mp hy]

/-- What is split are the fields of a message. -/
theorem exists_fields_of_groupByNumber {buf : Bytes} {path : List Text} {done : List WireField}
    {fuel pos : Nat} {split : Grouped × List Text × Int} (hpos : pos ≤ buf.length)
    (hsteady : Steady (buf.drop pos)) (hdone : Consistent done)
    (h : groupByNumber buf buf.length path fuel (toGrouped (fieldsOf done)) (orderOf done) pos =
      .ok split) :
    ∃ fields, buf.drop pos = serialize fields ∧ Consistent (done ++ fields) ∧ split =
      (toGrouped (fieldsOf (done ++ fields)), orderOf (done ++ fields), (buf.length : Int)) := by
  induction fuel generalizing done pos with
  | zero =>
    rw [groupByNumber] at h
    split at h
    · cases h
    · next hlast =>
      cases h
      exact exists_fields_of_end hpos hlast hdone
  | succ fuel ih =>
    rw [groupByNumber] at h
    split at h
    · obtain ⟨⟨number, wireType, content, next⟩, hread, hrest⟩ := bind_eq_ok.mp h
      obtain ⟨f, tail, hf, rfl, rfl, rfl, rfl, hknown⟩ :=
        exists_field_of_readField hpos (hsteady [] _ rfl) hread
      have hconsistent := hdone.concat hknown
      have hcount := congrArg List.length hf
      rw [List.length_drop, List.length_append] at hcount
      have hdrop : buf.drop (pos + f.bytes.length) = tail := by
        rw [← List.drop_drop, hf, List.drop_left]
      rw [hf] at hsteady
      have horder : orderOf done ++ [str f.number] = orderOf (done ++ [f]) := by
        rw [orderOf, orderOf, List.map_append]
        rfl
      dsimp only at hrest
      rw [addContent_toGrouped hconsistent, horder] at hrest
      obtain ⟨fields, hfields, hall, rfl⟩ := ih (by omega) (by rw [hdrop]; exact hsteady.tail)
        hconsistent hrest
      have hsplit : done ++ [f] ++ fields = done ++ f :: fields := by simp
      rw [hsplit] at hall
      refine ⟨f :: fields, ?_, hall, by rw [hsplit]⟩
      rw [hf, serialize_cons, ← hdrop, hfields]
    · next hlast =>
      cases h
      exact exists_fields_of_end hpos hlast hdone

/-- What is split from the beginning on. -/
theorem exists_fields_of_split {buf : Bytes} {path : List Text} {fuel pos : Nat}
    {split : Grouped × List Text × Int} (hpos : pos ≤ buf.length) (hsteady : Steady (buf.drop pos))
    (h : groupByNumber buf buf.length path fuel [] [] pos = .ok split) :
    ∃ fields, buf.drop pos = serialize fields ∧ Consistent fields ∧
      split = (toGrouped (fieldsOf fields), orderOf fields, (buf.length : Int)) := by
  have hnone : Consistent [] := fun f hf ↦ absurd hf List.not_mem_nil
  exact exists_fields_of_groupByNumber hpos hsteady hnone h

/-- With fuel for every byte, a split ends: with a result or with a `DecoderException`. -/
theorem groupByNumber_eq_error {buf : Bytes} {path : List Text} {grouped : Grouped}
    {order : List Text} {fuel pos : Nat} {e : Exc} (hpos : pos ≤ buf.length)
    (hsteady : Steady (buf.drop pos)) (hfuel : buf.length ≤ fuel + pos)
    (h : groupByNumber buf buf.length path fuel grouped order pos = .error e) :
    ∃ m p, e = .decoder m p := by
  induction fuel generalizing grouped order pos with
  | zero =>
    rw [groupByNumber, if_neg (by omega)] at h
    cases h
  | succ fuel ih =>
    rw [groupByNumber] at h
    split at h
    · rcases bind_eq_error.mp h with hread | ⟨⟨number, wireType, content, next⟩, hread, hrest⟩
      · exact readField_eq_error hread
      · obtain ⟨f, tail, hf, rfl, rfl, rfl, rfl, -⟩ :=
          exists_field_of_readField hpos (hsteady [] _ rfl) hread
        have hcount := congrArg List.length hf
        rw [List.length_drop, List.length_append] at hcount
        have hpositive := f.length_bytes_pos
        have hdrop : buf.drop (pos + f.bytes.length) = tail := by
          rw [← List.drop_drop, hf, List.drop_left]
        rw [hf] at hsteady
        exact ih (by omega) (by rw [hdrop]; exact hsteady.tail) (by omega) hrest
    · cases h

theorem length_of_backward {tail : Bytes} (h : Backward tail) : 11 ≤ tail.length := by
  obtain ⟨number, n, rest, -, hbig, -, rfl⟩ := h
  have htag := Base128.length_bytes_pos (8 * number + lengthDelimitedType)
  have hlength : 9 < (Base128.bytes n).length := by
    apply Base128.lt_length_bytes
    calc 128 ^ 9 = 2 ^ 63 := by decide
      _ ≤ n := hbig
  rw [List.length_append, List.length_append]
  omega

/-- A length that leads back takes ten bytes. -/
theorem steady_of_short {text : Bytes} (h : text.length < 11) : Steady text := by
  intro fields tail htext hback
  have htail := length_of_backward hback
  rw [htext, List.length_append] at h
  omega

/-- The wire types that are known are those of some fields. -/
def Fits (fields : List WireField) (grouped : Grouped) : Prop :=
  ∀ f ∈ fields, ∀ known contents, Dict.lookup (str f.number) grouped = some (known, contents) →
    known = f.content.wireType

theorem fits_nil (fields : List WireField) : Fits fields [] := by
  intro f _ known contents h
  cases h

/-- A content of one of the fields, or one in its place, is added. -/
theorem Fits.addContent {fields : List WireField} {grouped : Grouped} (h : Fits fields grouped)
    (hconsistent : Consistent fields) {f : WireField} (hf : f ∈ fields) (content : Bytes) :
    Fits fields (addContent (str f.number) f.content.wireType content grouped) := by
  intro g hg known contents hlookup
  rw [Protobuf.addContent] at hlookup
  cases hfound : Dict.lookup (str f.number) grouped with
  | none =>
    rw [hfound] at hlookup
    dsimp only at hlookup
    rw [Dict.lookup_assign] at hlookup
    split at hlookup
    · next hnumber =>
      cases hlookup
      exact hconsistent f hf g hg (str_injective hnumber.symm)
    · exact h g hg known contents hlookup
  | some found =>
    obtain ⟨known', contents'⟩ := found
    rw [hfound] at hlookup
    dsimp only at hlookup
    rw [Dict.lookup_assign] at hlookup
    split at hlookup
    · next hnumber =>
      cases hlookup
      exact h g hg known contents' (by rw [hnumber, hfound])
    · exact h g hg known contents hlookup

/-- Fields are read one after another, as long as there is fuel. -/
theorem groupByNumber_run {buf : Bytes} (path : List Text) {fields : List WireField}
    (hconsistent : Consistent fields) {run : List WireField} (hrun : ∀ f ∈ run, f ∈ fields)
    {tail : Bytes} {pos : Nat} (hpos : pos ≤ buf.length)
    (h : buf.drop pos = serialize run ++ tail) {grouped : Grouped} (hfits : Fits fields grouped)
    (order : List Text) (fuel : Nat) :
    groupByNumber buf buf.length path fuel grouped order pos = .error .unfinished ∨
      ∃ fuel' grouped' order', fuel' ≤ fuel ∧ Fits fields grouped' ∧
        groupByNumber buf buf.length path fuel grouped order pos =
          groupByNumber buf buf.length path fuel' grouped' order'
            ((pos + (serialize run).length : Nat) : Int) := by
  induction run generalizing fuel pos grouped order with
  | nil => exact .inr ⟨fuel, grouped, order, Nat.le_refl fuel, hfits, rfl⟩
  | cons f rest ih =>
    rw [serialize_cons, List.append_assoc] at h
    have hcount := congrArg List.length h
    rw [List.length_drop, List.length_append] at hcount
    have hpositive := f.length_bytes_pos
    have hf := hrun f List.mem_cons_self
    have hread := readField_of_field path hpos h (hfits f hf)
    have hdrop : buf.drop (pos + f.bytes.length) = serialize rest ++ tail := by
      rw [← List.drop_drop, h, List.drop_left]
    cases fuel with
    | zero =>
      left
      rw [groupByNumber, if_pos (by omega)]
    | succ fuel =>
      have hstep : groupByNumber buf buf.length path (fuel + 1) grouped order pos =
          groupByNumber buf buf.length path fuel
            (Protobuf.addContent (str f.number) f.content.wireType f.content.bytes grouped)
            (order ++ [str f.number]) ((pos + f.bytes.length : Nat) : Int) := by
        rw [groupByNumber, if_pos (by omega), hread]
        rfl
      rw [hstep]
      have hsum : pos + f.bytes.length + (serialize rest).length =
          pos + (serialize (f :: rest)).length := by
        rw [serialize_cons, List.length_append]
        omega
      rcases ih (fun g hg ↦ hrun g (List.mem_cons_of_mem _ hg)) (by omega) hdrop
        (hfits.addContent hconsistent hf f.content.bytes) (order ++ [str f.number]) fuel with
        hout | ⟨fuel', grouped', order', hle, hfits', heq⟩
      · exact .inl hout
      · rw [hsum] at heq
        exact .inr ⟨fuel', grouped', order', by omega, hfits', heq⟩

/-- Without fuel for all of them, the fields are not read to the end. -/
theorem groupByNumber_of_few {buf : Bytes} (path : List Text) {fields : List WireField}
    {fuel pos : Nat} (hpos : pos ≤ buf.length) (h : buf.drop pos = serialize fields)
    {all : List WireField}
    (hconsistent : Consistent all) (hall : ∀ f ∈ fields, f ∈ all) {grouped : Grouped}
    (hfits : Fits all grouped) (hfuel : fuel < fields.length) (order : List Text) :
    groupByNumber buf buf.length path fuel grouped order pos = .error .unfinished := by
  induction fields generalizing fuel pos grouped order with
  | nil => exact absurd hfuel (Nat.not_lt_zero fuel)
  | cons f rest ih =>
    rw [serialize_cons] at h
    have hcount := congrArg List.length h
    rw [List.length_drop, List.length_append] at hcount
    have hpositive := f.length_bytes_pos
    have hf := hall f List.mem_cons_self
    have hread := readField_of_field path hpos h (hfits f hf)
    have hdrop : buf.drop (pos + f.bytes.length) = serialize rest := by
      rw [← List.drop_drop, h, List.drop_left]
    cases fuel with
    | zero => rw [groupByNumber, if_pos (by omega)]
    | succ fuel =>
      rw [groupByNumber, if_pos (by omega), hread]
      exact ih (by omega) hdrop (fun g hg ↦ hall g (List.mem_cons_of_mem _ hg))
        (hfits.addContent hconsistent hf f.content.bytes)
        (by rw [List.length_cons] at hfuel; omega) _

end ScrapyCffi.Protobuf
