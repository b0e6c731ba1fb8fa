import ScrapyCffi.Dupefilter.Fingerprint

/-!
# Selected headers

The header text of the fingerprint bytes: the loop over the header names keeps the values they
select, and two texts agree exactly if every name selects values with the same JSON. The text
can be read back from its Latin-1 bytes with whatever follows it.
-/

namespace ScrapyCffi.Dupefilter

open ScrapyCffi.Base ScrapyCffi.Requests

variable {φ : Type} [PyFloat φ]

/-! ## Latin-1 -/

/-- Latin-1 bytes give their characters back. -/
def latin1Decode (bytes : List UInt8) : List Char := bytes.map fun n ↦ Char.ofNat n.toNat

/-- A text has Latin-1 bytes when its characters do. -/
theorem latin1_eq_ok {text : List Char} {bytes : List UInt8} :
    latin1 text = .ok bytes ↔
      (∀ c ∈ text, c.toNat < 256) ∧ text.map (fun c ↦ UInt8.ofNat c.toNat) = bytes := by
  unfold latin1
  split
  · next h =>
    have hsmall : ∀ c ∈ text, c.toNat < 256 := by simpa using h
    rw [Except.ok.injEq, and_iff_right hsmall]
  · next h => exact iff_of_false (fun heq ↦ nomatch heq) (fun hok ↦ h (by simpa using hok.1))

/-- Bytes are decoded one by one. -/
theorem latin1Decode_append (x y : List UInt8) :
    latin1Decode (x ++ y) = latin1Decode x ++ latin1Decode y := List.map_append

/-- A text is decoded from its Latin-1 bytes. -/
theorem latin1Decode_of_latin1 {text : List Char} {bytes : List UInt8}
    (h : latin1 text = .ok bytes) : latin1Decode bytes = text := by
  obtain ⟨hsmall, rfl⟩ := latin1_eq_ok.mp h
  rw [latin1Decode, List.map_map]
  conv_rhs => rw [← List.map_id text]
  apply List.map_congr_left
  intro c hc
  have hlt := hsmall c hc
  rw [Function.comp_apply, UInt8.toNat_ofNat', Nat.mod_eq_of_lt hlt, Char.ofNat_toNat, id]

/-- A character below the surrogates has its number. -/
theorem toNat_ofNat {n : Nat} (h : n < 55296) : (Char.ofNat n).toNat = n := by
  rw [Char.ofNat, dif_pos (.inl h)]
  rfl

/-- Different bytes are different characters. -/
theorem latin1Decode_inj {x y : List UInt8} (h : latin1Decode x = latin1Decode y) : x = y := by
  refine List.map_injective_iff.mpr ?_ h
  intro m n hmn
  have hm := m.toNat_lt
  have hn := n.toNat_lt
  have hnat := congrArg Char.toNat hmn
  rw [toNat_ofNat (by omega), toNat_ofNat (by omega)] at hnat
  exact UInt8.toNat_inj.mp hnat

/-- Latin-1 of a text in two parts. -/
theorem latin1_append {first second : List Char} {bytes : List UInt8} :
    latin1 (first ++ second) = .ok bytes ↔
      ∃ x y, latin1 first = .ok x ∧ latin1 second = .ok y ∧ bytes = x ++ y := by
  simp only [latin1_eq_ok, List.mem_append, List.map_append]
  constructor
  · rintro ⟨hsmall, rfl⟩
    exact ⟨_, _, ⟨fun c hc ↦ hsmall c (.inl hc), rfl⟩, ⟨fun c hc ↦ hsmall c (.inr hc), rfl⟩, rfl⟩
  · rintro ⟨x, y, ⟨hfirst, rfl⟩, ⟨hsecond, rfl⟩, rfl⟩
    exact ⟨fun c hc ↦ hc.elim (hfirst c) (hsecond c), rfl⟩

/-- Latin-1 of a separator and a text. -/
theorem latin1_separator {text : List Char} {bytes : List UInt8} :
    latin1 ('|' :: text) = .ok bytes ↔ ∃ y, latin1 text = .ok y ∧ bytes = 124 :: y := by
  have hsep : latin1 ['|'] = .ok [124] := by decide
  rw [← List.singleton_append, latin1_append, hsep]
  simp

/-- Texts with the same bytes are the same. -/
theorem latin1_eq_iff {text other : List Char} {x y : List UInt8} (hx : latin1 text = .ok x)
    (hy : latin1 other = .ok y) : x = y ↔ text = other := by
  constructor
  · rintro rfl
    rw [← latin1Decode_of_latin1 hx, latin1Decode_of_latin1 hy]
  · rintro rfl
    rw [hx, Except.ok.injEq] at hy
    exact hy

/-- A JSON text has Latin-1 bytes. -/
theorem latin1_of_dumpsSorted {value : Value φ} {text : List Char}
    (h : dumpsSorted value = .ok text) : ∃ bytes, latin1 text = .ok bytes :=
  ⟨_, latin1_eq_ok.mpr ⟨fun c hc ↦ (dumpsSorted_ascii h c hc).trans (by decide), rfl⟩⟩

/-- The JSON of a dictionary is read back from bytes with whatever follows it. -/
theorem dumpsSorted_append_inj {entries others : List (Value φ × Value φ)}
    {text text' : List Char} {x y rest more : List UInt8}
    (htext : dumpsSorted (.dict entries) = .ok text)
    (htext' : dumpsSorted (.dict others) = .ok text') (hx : latin1 text = .ok x)
    (hy : latin1 text' = .ok y) (h : x ++ rest = y ++ more) : x = y ∧ rest = more := by
  have hdecode := congrArg latin1Decode h
  rw [latin1Decode_append, latin1Decode_append, latin1Decode_of_latin1 hx,
    latin1Decode_of_latin1 hy] at hdecode
  obtain ⟨-, members, -, -, -, rfl⟩ := dumpsSorted_dict.mp htext
  obtain ⟨-, members', -, -, -, rfl⟩ := dumpsSorted_dict.mp htext'
  obtain ⟨rfl, hrest⟩ := Json.object_append_inj members hdecode
  exact ⟨(latin1_eq_iff hx hy).mpr rfl, latin1Decode_inj hrest⟩

/-! ## Selected headers -/

/-- The value of the header that is selected by a name; an empty name selects nothing. -/
def selectedHeader (rt : Runtime φ) (headers : Value φ) (headerKey : String) :
    Except PyError (Option (Value φ)) := do
  match ← findHeaderKey rt headers headerKey with
  | none => return none
  | some found => if found = "" then return none else return some (← headerValue headers found)

/-- Every name selects a header of both, and related values, or of none. -/
def HeadersRelated (rt : Runtime φ) (includeHeaders : List String) (R : Value φ → Value φ → Prop)
    (headers others : Value φ) : Prop :=
  ∀ key ∈ includeHeaders, ∃ v w, selectedHeader rt headers key = .ok v ∧
    selectedHeader rt others key = .ok w ∧ Option.Rel R v w

variable {rt : Runtime φ} {includeHeaders : List String} {headers headers' : Value φ}

omit [PyFloat φ] in
/-- The name that is found has the lower case it is searched by. -/
theorem lower_of_searchHeader {lower : String → String} {keyLower found : String}
    {keys : List (Value φ)} (h : searchHeader lower keyLower keys = .ok (some found)) :
    lower found = keyLower := by
  induction keys with
  | nil => cases h
  | cons key rest ih =>
    cases key with
    | str name =>
      rw [searchHeader] at h
      split at h
      · next heq =>
        cases h
        exact heq
      · exact ih h
    | bytes b => exact ih h
    | _ => cases h

/-- The header names differ in nothing but case. -/
theorem lower_of_findHeaderKey {key found : String}
    (h : findHeaderKey rt headers key = .ok (some found)) : rt.lower found = rt.lower key := by
  unfold findHeaderKey at h
  split at h
  · obtain ⟨keys, -, hsearch⟩ := bind_eq_ok.mp h
    exact lower_of_searchHeader hsearch
  · cases h

/-- Names of the same lower case select the same header. -/
theorem selectedHeader_congr {key other : String} (h : rt.lower key = rt.lower other) :
    selectedHeader rt headers key = selectedHeader rt headers other := by
  simp only [selectedHeader, findHeaderKey, h]

/-- The subset with the value of a selected header. -/
def addHeader (name : String) (value : Option (Value φ)) (subset : List (Value φ × Value φ)) :
    List (Value φ × Value φ) :=
  value.elim subset fun v ↦ dictSet name v subset

/-- The loop adds the header that a name selects under its lower case. -/
theorem headerSubset_cons {key : String} {rest : List String}
    {subset final : List (Value φ × Value φ)} :
    headerSubset rt headers (key :: rest) subset = .ok final ↔
      ∃ value, selectedHeader rt headers key = .ok value ∧
        headerSubset rt headers rest (addHeader (rt.lower key) value subset) = .ok final := by
  rw [headerSubset, selectedHeader]
  cases hfind : findHeaderKey rt headers key with
  | error e => simp [bind, Except.bind]
  | ok found =>
    cases found with
    | none => simp [bind, Except.bind, pure, Except.pure, addHeader]
    | some found =>
      have hlower := lower_of_findHeaderKey hfind
      by_cases hempty : found = ""
      · simp [bind, Except.bind, pure, Except.pure, addHeader, hempty]
      · cases hvalue : headerValue headers found with
        | error e => simp [bind, Except.bind, hempty, hvalue]
        | ok value => simp [bind, Except.bind, pure, Except.pure, addHeader, hempty, hlower,
            hvalue]

/-! ## The subset of the headers -/

/-- The names of a subset are strings, and its values are those they select. -/
def Selected (rt : Runtime φ) (headers : Value φ) (subset : List (Value φ × Value φ)) : Prop :=
  ∀ entry ∈ subset, ∃ name, entry.1 = .str name ∧
    ∀ key, rt.lower key = name → selectedHeader rt headers key = .ok (some entry.2)

/-- The loop starts with no header. -/
theorem Selected.nil : Selected rt headers [] := by
  intro entry he
  cases he

omit [PyFloat φ] in
/-- An entry of an updated dictionary is the new one or an old one. -/
theorem mem_of_mem_dictSet {name : String} {value : Value φ}
    {subset : List (Value φ × Value φ)} {entry : Value φ × Value φ}
    (h : entry ∈ dictSet name value subset) : entry = (.str name, value) ∨ entry ∈ subset := by
  fun_induction dictSet name value subset with
  | case1 => exact .inl (List.mem_singleton.mp h)
  | case2 old rest =>
    rcases List.mem_cons.mp h with h | h
    · exact .inl h
    · exact .inr (List.mem_cons_of_mem _ h)
  | case3 key old rest hne ih =>
    rcases List.mem_cons.mp h with h | h
    · exact .inr (h ▸ List.mem_cons_self)
    · exact (ih h).imp_right (List.mem_cons_of_mem _)
  | case4 old rest hkey ih =>
    rcases List.mem_cons.mp h with h | h
    · exact .inr (h ▸ List.mem_cons_self)
    · exact (ih h).imp_right (List.mem_cons_of_mem _)

omit [PyFloat φ] in
/-- The new entry is in the updated dictionary. -/
theorem mem_dictSet_self (name : String) (value : Value φ) (subset : List (Value φ × Value φ)) :
    (.str name, value) ∈ dictSet name value subset := by
  fun_induction dictSet name value subset with
  | case1 => exact List.mem_cons_self
  | case2 old rest => exact List.mem_cons_self
  | case3 key old rest hne ih => exact List.mem_cons_of_mem _ ih
  | case4 old rest hkey ih => exact List.mem_cons_of_mem _ ih

omit [PyFloat φ] in
/-- The entries of other names stay. -/
theorem mem_dictSet_of_ne {name : String} {value : Value φ}
    {subset : List (Value φ × Value φ)} {entry : Value φ × Value φ} (h : entry ∈ subset)
    (hne : entry.1 ≠ .str name) : entry ∈ dictSet name value subset := by
  fun_induction dictSet name value subset with
  | case1 => cases h
  | case2 old rest =>
    rcases List.mem_cons.mp h with rfl | h
    · exact absurd rfl hne
    · exact List.mem_cons_of_mem _ h
  | case3 key old rest _ ih =>
    rcases List.mem_cons.mp h with h | h
    · exact h ▸ List.mem_cons_self
    · exact List.mem_cons_of_mem _ (ih h)
  | case4 old rest hkey ih =>
    rcases List.mem_cons.mp h with h | h
    · exact h ▸ List.mem_cons_self
    · exact List.mem_cons_of_mem _ (ih h)

/-- A selected header is added to a subset. -/
theorem Selected.addHeader {subset : List (Value φ × Value φ)} {key : String}
    {value : Option (Value φ)} (h : Selected rt headers subset)
    (hvalue : selectedHeader rt headers key = .ok value) :
    Selected rt headers (addHeader (rt.lower key) value subset) ∧
      ∀ entry ∈ subset, entry ∈ addHeader (rt.lower key) value subset := by
  cases value with
  | none => exact ⟨h, fun _ he ↦ he⟩
  | some v =>
    have hself : ∀ other, rt.lower other = rt.lower key →
        selectedHeader rt headers other = .ok (some v) :=
      fun other hother ↦ (selectedHeader_congr hother).trans hvalue
    constructor
    · intro entry he
      rcases mem_of_mem_dictSet he with rfl | he
      · exact ⟨_, rfl, hself⟩
      · exact h entry he
    · intro entry he
      by_cases heq : entry.1 = .str (rt.lower key)
      · -- what is overwritten was selected by the same name
        obtain ⟨name, hname, hselects⟩ := h entry he
        cases heq.symm.trans hname
        have hold := hselects key rfl
        rw [hvalue, Except.ok.injEq, Option.some.injEq] at hold
        rw [show entry = (.str (rt.lower key), v) from Prod.ext heq hold.symm]
        exact mem_dictSet_self _ _ _
      · exact mem_dictSet_of_ne he heq

/-- The subset holds the values that are selected, under the names that select them. -/
theorem Selected.headerSubset {keys : List String} {subset final : List (Value φ × Value φ)}
    (h : Selected rt headers subset) (hfinal : headerSubset rt headers keys subset = .ok final) :
    Selected rt headers final ∧ (∀ entry ∈ subset, entry ∈ final) ∧
      ∀ key ∈ keys, ∃ value, selectedHeader rt headers key = .ok value ∧
        ∀ v ∈ value, (.str (rt.lower key), v) ∈ final := by
  induction keys generalizing subset with
  | nil =>
    cases hfinal
    exact ⟨h, fun _ he ↦ he, by simp⟩
  | cons key rest ih =>
    obtain ⟨value, hvalue, hrest⟩ := headerSubset_cons.mp hfinal
    obtain ⟨hadd, hkeep⟩ := h.addHeader hvalue
    obtain ⟨hselected, hstay, hkeys⟩ := ih hadd hrest
    refine ⟨hselected, fun entry he ↦ hstay entry (hkeep entry he), ?_⟩
    refine List.forall_mem_cons.mpr ⟨⟨value, hvalue, ?_⟩, hkeys⟩
    intro v hv
    cases hv
    exact hstay _ (mem_dictSet_self _ _ _)

omit [PyFloat φ] in
private theorem dictSet_forall₂ {R : Value φ → Value φ → Prop} {name : String} {v w : Value φ}
    {entries others : List (Value φ × Value φ)} (hvw : R v w)
    (h : List.Forall₂ (fun a b ↦ a.1 = b.1 ∧ R a.2 b.2) entries others) :
    List.Forall₂ (fun a b ↦ a.1 = b.1 ∧ R a.2 b.2) (dictSet name v entries)
      (dictSet name w others) := by
  induction h with
  | nil => exact .cons ⟨rfl, hvw⟩ .nil
  | @cons a b rest more hab hrest ih =>
    obtain ⟨key, old⟩ := a
    obtain ⟨_, old'⟩ := b
    obtain ⟨rfl, hold⟩ := hab
    cases key with
    | str key =>
      rw [dictSet, dictSet]
      by_cases heq : key = name
      · rw [if_pos heq, if_pos heq]
        exact .cons ⟨rfl, hvw⟩ hrest
      · rw [if_neg heq, if_neg heq]
        exact .cons ⟨rfl, hold⟩ ih
    | _ => exact .cons ⟨rfl, hold⟩ ih

/-- Related headers have related subsets, in the same order. -/
theorem headerSubset_forall₂ {R : Value φ → Value φ → Prop} {keys : List String}
    {entries others final final' : List (Value φ × Value φ)}
    (h : List.Forall₂ (fun a b ↦ a.1 = b.1 ∧ R a.2 b.2) entries others)
    (hrelated : HeadersRelated rt keys R headers headers')
    (hfinal : headerSubset rt headers keys entries = .ok final)
    (hfinal' : headerSubset rt headers' keys others = .ok final') :
    List.Forall₂ (fun a b ↦ a.1 = b.1 ∧ R a.2 b.2) final final' := by
  induction keys generalizing entries others with
  | nil =>
    cases hfinal
    cases hfinal'
    exact h
  | cons key rest ih =>
    obtain ⟨v, hv, hrest⟩ := headerSubset_cons.mp hfinal
    obtain ⟨w, hw, hrest'⟩ := headerSubset_cons.mp hfinal'
    obtain ⟨⟨_, _, hv', hw', hvw⟩, hkeys⟩ := List.forall_mem_cons.mp hrelated
    cases hv.symm.trans hv'
    cases hw.symm.trans hw'
    refine ih ?_ hkeys hrest hrest'
    cases hvw with
    | none => exact h
    | some hvw => exact dictSet_forall₂ hvw h

/-! ## Header texts -/

/-- What a name selects is in the subset, and only that. -/
theorem mem_headerSubset {subset : List (Value φ × Value φ)}
    (h : headerSubset rt headers includeHeaders [] = .ok subset) {key : String}
    (hkey : key ∈ includeHeaders) : ∃ value, selectedHeader rt headers key = .ok value ∧
      ∀ v, value = some v ↔ (.str (rt.lower key), v) ∈ subset := by
  obtain ⟨hselected, -, hkeys⟩ := Selected.nil.headerSubset h
  obtain ⟨value, hvalue, hmem⟩ := hkeys key hkey
  refine ⟨value, hvalue, fun v ↦ ⟨fun hv ↦ hmem v hv, fun hv ↦ ?_⟩⟩
  obtain ⟨name, hname, hselects⟩ := hselected _ hv
  cases hname
  exact Except.ok.inj (hvalue.symm.trans (hselects key rfl))

/-- The names of the subset are strings. -/
theorem stringKeys_headerSubset {subset : List (Value φ × Value φ)}
    (h : headerSubset rt headers includeHeaders [] = .ok subset) : StringKeys subset := by
  obtain ⟨hselected, -, -⟩ := Selected.nil.headerSubset h
  intro entry he
  obtain ⟨name, hname, -⟩ := hselected entry he
  exact ⟨name, hname⟩

/-- The header texts are the same when the selected headers have the same JSON. -/
theorem headersRelated_iff {subset subset' : List (Value φ × Value φ)} {text text' : List Char}
    (hsubset : headerSubset rt headers includeHeaders [] = .ok subset)
    (hsubset' : headerSubset rt headers' includeHeaders [] = .ok subset')
    (htext : dumpsSorted (.dict subset) = .ok text)
    (htext' : dumpsSorted (.dict subset') = .ok text') :
    text = text' ↔ HeadersRelated rt includeHeaders JsonAlike headers headers' := by
  constructor
  · rintro rfl key hkey
    obtain ⟨v, hv, hmem⟩ := mem_headerSubset hsubset hkey
    obtain ⟨w, hw, hmem'⟩ := mem_headerSubset hsubset' hkey
    refine ⟨v, w, hv, hw, ?_⟩
    cases v with
    | some value =>
      obtain ⟨other, hother, halike⟩ := mem_of_dumpsSorted htext htext'
        (stringKeys_headerSubset hsubset') ((hmem value).mp rfl)
      rw [(hmem' other).mpr hother]
      exact .some halike
    | none =>
      cases w with
      | none => exact .none
      | some other =>
        obtain ⟨value, hvalue, -⟩ := mem_of_dumpsSorted htext' htext
          (stringKeys_headerSubset hsubset) ((hmem' other).mp rfl)
        exact nomatch (hmem value).mpr hvalue
  · intro hrelated
    have htext'' := dumpsSorted_congr (headerSubset_forall₂ .nil hrelated hsubset hsubset') htext
    exact Except.ok.inj (htext''.symm.trans htext')

end ScrapyCffi.Dupefilter
