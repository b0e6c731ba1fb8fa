import ScrapyCffi.JsonScan.Rescan

/-!
# What `scan_text` finds

A document that the scanner can read as it stands gives up every value bound to the key, unless a
search ends with one falsy match: `scan_text` takes that for no match. Nor does a document come
through whose strings look like comments, since these are cut out of the text before it is parsed.
-/

namespace ScrapyCffi.JsonScan.Extractor

open Relation Value
open ScrapyCffi.Robots (Text strip)

variable {ν δ : Type} (x : Extractor ν δ)

/-- No brace pair in a string of the document holds the key. -/
def BracesFree (key text : Text) : Prop :=
  ∀ inner, x.Reads [text] (.string inner) → inner ≠ text →
    ∀ members, x.Reads (bracePairs [] inner) (.object members) → valuesOf key members = []

/-- When the scanner finds what the document of a text binds to a key. -/
structure Findable (key text : Text) : Prop where
  /-- Nothing in the text is taken for a comment. -/
  plain : removeJsonComments (strip text) = strip text
  separates : x.Separates (text :: bracePairs [] text)
  /-- A lone match is truthy, or an empty list that the second pass has nothing to add to. -/
  first : ∀ value, x.Lone key [text] value →
    x.truthy value = true ∨ (value = .array [] ∧ x.BracesFree key text)
  /-- The brace pairs count where the document itself holds no object with the key. -/
  rescue : (∀ members, x.Reads [text] (.object members) → valuesOf key members = []) →
    ∀ value, x.Lone key (bracePairs [] text) value → x.truthy value = true ∨ value = .array []

section

variable {x} {key text : Text} {doc : Value ν}

/-- Texts are met one by one. -/
theorem Reads.of_cons {texts : List Text} {value : Value ν} (h : x.Reads (text :: texts) value) :
    x.Reads [text] value ∨ x.Reads texts value := by
  obtain ⟨start, hmem, hreach⟩ := h
  rcases List.mem_cons.mp hmem with rfl | hmem
  · exact .inl ⟨start, List.mem_cons_self, hreach⟩
  · exact .inr ⟨start, hmem, hreach⟩

/-- A lone value of the texts is one of the rest where the first has none. -/
theorem Lone.of_cons {texts : List Text} {value : Value ν}
    (h : x.Lone key (text :: texts) value)
    (hnil : ∀ members, x.Reads [text] (.object members) → valuesOf key members = []) :
    x.Lone key texts value := by
  obtain ⟨members, hmet, hvalue, honly⟩ := h
  refine ⟨members, hmet.of_cons.resolve_left fun h ↦ ?_, hvalue, fun others hothers ↦ ?_⟩
  · rw [hnil members h] at hvalue
    cases hvalue
  · exact honly others (hothers.mono (List.subset_cons_self _ _))

/-- A document with an object that has a member is read from its text. -/
theorem read_of_loads (hplain : removeJsonComments (strip text) = strip text)
    (hloads : x.firstParser.loads text = some doc) (hcontainer : doc.isContainer = true)
    {members : List (Text × Value ν)} (hpart : Part doc (.object members))
    (hmembers : members ≠ []) : x.read text = some doc := by
  have hstripped := x.firstParser.stripped hloads hcontainer
  have hcolon := x.firstParser.colon hstripped hpart hmembers
  have hclean : clean text = strip text := hplain
  rw [read, hclean, if_pos (List.contains_iff_mem.mpr hcolon)]
  exact parseTurns_of_loads hstripped hcontainer

/-- The objects of the document are met from its text. -/
theorem reads_of_part (hplain : removeJsonComments (strip text) = strip text)
    (hloads : x.firstParser.loads text = some doc) (hcontainer : doc.isContainer = true)
    {members : List (Text × Value ν)} (hpart : Part doc (.object members))
    (hmembers : members ≠ []) : x.Reads [text] (.object members) :=
  ((Reads.root List.mem_cons_self).parsed
    (read_of_loads hplain hloads hcontainer hpart hmembers)).part hpart

/-- A falsy pack holds nothing, or a single falsy match. -/
theorem truthy_pack {found : List (Value ν)} (h : x.truthy (pack found) = false) :
    found = [] ∨ ∃ value, found = [value] ∧ x.truthy value = false := by
  match found, h with
  | [], _ => exact .inl rfl
  | [value], h => exact .inr ⟨value, rfl, h⟩
  | _ :: _ :: _, h => cases h

end

/-! ## `scan_text` -/

section Scan

variable [DecidableEq δ] {fuel : Nat} {text key : Text} {doc : Value ν}

/-- `scan_text` returns without an exception, and what it returns holds every value that the
document binds to the key: a single match is returned itself, several are in a list. -/
def FindsAll (x : Extractor ν δ) (fuel : Nat) (text key : Text) (doc : Value ν) : Prop :=
  ∃ found, x.scanText fuel text key = some (.ok (pack found)) ∧
    ∀ value, Bound key doc value → ∃ w ∈ found, Same w value

variable {x : Extractor ν δ}

/-- Where `extract` returns an empty list, the second pass returns the first of what it finds. -/
theorem scanText_of_empty {Q : Text → Prop} {P : Value ν → Prop} (hfuel : text.length < fuel)
    (hextract : x.extract fuel key text = some (.array []))
    (hinner : ∀ inner, Q inner →
      ∃ result, x.extract fuel key inner = some result ∧ ∀ item ∈ added result, P item)
    (htop : ∀ top, x.extract fuel [] text = some top → ∀ inner, Part top (.string inner) →
      Q inner) :
    ∃ items, (∀ item ∈ items, P item) ∧
      x.scanText fuel text key = some (.ok ((x.distinct [] items).head?.getD (.array []))) := by
  obtain ⟨top, hall, -⟩ := extract_all (x := x) hfuel
  by_cases htruthy : x.truthy top = true
  · have hstack : ∀ value ∈ (if top.isContainer then [top] else []), ∀ inner,
        Part value (.string inner) → Q inner := fun value hmem ↦ by
      split at hmem
      · rw [List.mem_singleton.mp hmem]
        exact htop top hall
      · cases hmem
    obtain ⟨items, hitems, hP⟩ := rescan_array hinner _ _ hstack
      ⟨[], rfl, fun _ h ↦ absurd h List.not_mem_nil⟩
    refine ⟨items, hP, ?_⟩
    rw [scanText, hextract]
    simp only [Option.bind_eq_bind, Option.bind_some, hall, hitems, if_pos htruthy]
    rfl
  · refine ⟨[], fun _ h ↦ absurd h List.not_mem_nil, ?_⟩
    rw [scanText, hextract]
    simp only [Option.bind_eq_bind, Option.bind_some, hall, if_neg htruthy]
    rfl

/-- Where `extract` finds nothing, `scan_text` returns. -/
theorem scanText_of_nothing (hkey : key ≠ []) (hfuel : text.length < fuel)
    (hextract : x.extract fuel key text = some (.array [])) :
    ∃ result, x.scanText fuel text key = some (.ok result) := by
  have hinner : ∀ inner : Text, inner.length < text.length →
      ∃ result, x.extract fuel key inner = some result ∧ ∀ item ∈ added result, True := by
    intro inner hlt
    obtain ⟨found, hfound, -⟩ := extract_spec (x := x) hkey (Nat.lt_trans hlt hfuel)
    exact ⟨pack found, hfound, fun _ _ ↦ trivial⟩
  obtain ⟨top, hall, hbelow, -⟩ := extract_all (x := x) hfuel
  obtain ⟨items, -, hscan⟩ := scanText_of_empty hfuel hextract hinner fun top' htop ↦ by
    cases hall.symm.trans htop
    exact hbelow
  exact ⟨_, hscan⟩

/-- A lone empty list comes back from the second pass. -/
theorem scanText_of_lone_empty (hkey : key ≠ []) (hfuel : text.length < fuel)
    (hsep : x.Separates [text]) (hlone : x.Lone key [text] (.array []))
    (hfree : x.BracesFree key text) (hextract : x.extract fuel key text = some (.array [])) :
    x.scanText fuel text key = some (.ok (.array [])) := by
  have hinner : ∀ inner : Text, (inner.length < text.length ∧ x.Reads [text] (.string inner)) →
      ∃ result, x.extract fuel key inner = some result ∧
        ∀ item ∈ added result, item = .array [] := by
    rintro inner ⟨hlt, hreads⟩
    have hsub : ∀ value, x.Reads [inner] value → x.Reads [text] value := fun value h ↦
      hreads.of_reads h
    obtain ⟨found, hfound, hcase⟩ := extract_spec (x := x) hkey (Nat.lt_trans hlt hfuel)
    have hempty : ∀ w ∈ found, w = .array [] := by
      intro w hw
      rcases hcase with ⟨-, hsearch⟩ | ⟨hnone, hsearch⟩
      · obtain ⟨members, hmet, hvalue⟩ := hsearch.sound hkey hw
        exact (hlone.same (hsub _ hmet) hvalue).symm.array_nil
      · -- neither the string nor its brace pairs hold the key
        obtain ⟨members, hmet, hvalue⟩ := hsearch.sound hkey hw
        have hnil : valuesOf key members = [] := by
          rcases hmet.of_cons with hmet | hmet
          · exact hnone.valuesOf_eq_nil (hsep.mono hsub) hmet
          · exact hfree inner hreads (fun heq ↦ absurd hlt (heq ▸ Nat.lt_irrefl _)) members hmet
        rw [hnil] at hvalue
        cases hvalue
    refine ⟨pack found, hfound, ?_⟩
    match found, hempty with
    | [], _ => exact nofun
    | [w], h => rw [h w List.mem_cons_self]; exact nofun
    | _ :: _ :: _, h => exact h
  obtain ⟨top, hall, hbelow, hmet⟩ := extract_all (x := x) hfuel
  obtain ⟨items, hitems, hscan⟩ := scanText_of_empty hfuel hextract hinner fun top' htop ↦ by
    cases hall.symm.trans htop
    refine fun inner hpart ↦ ⟨hbelow inner hpart, ?_⟩
    refine hmet.resolve_left (fun hnone ↦ ?_) inner hpart
    obtain ⟨members, hreads, hvalue, -⟩ := hlone
    have hne : members ≠ [] := fun heq ↦ by rw [heq] at hvalue; cases hvalue
    exact hnone.not_reads hsep hreads hne
  rw [hscan, head_distinct items hitems]

/-- A lone falsy match that is no list is lost, or leads to an exception. -/
theorem scanText_of_lone_falsy {value : Value ν} (hkey : key ≠ []) (hfuel : text.length < fuel)
    (hplain : removeJsonComments (strip text) = strip text)
    (hloads : x.firstParser.loads text = some doc) (hcontainer : doc.isContainer = true)
    (hsep : x.Separates [text]) (hrespects : x.Respects [text]) (hlone : x.Lone key [text] value)
    (hbound : Bound key doc value) (hfalsy : x.truthy value = false)
    (hlist : ∀ items, value ≠ .array items) : ¬ x.FindsAll fuel text key doc := by
  rintro ⟨found', hscan, hall⟩
  obtain ⟨members, hpart, hmem⟩ := id hbound
  have hmet := reads_of_part hplain hloads hcontainer hpart (List.ne_nil_of_mem hmem)
  obtain ⟨found, hextract, hcase⟩ := extract_spec (x := x) hkey hfuel
  have hsearch : x.Search key [text] found := by
    rcases hcase with ⟨-, hsearch⟩ | ⟨hnone, -⟩
    · exact hsearch
    · have hnil := hnone.valuesOf_eq_nil hsep hmet
      rw [← mem_valuesOf, hnil] at hmem
      cases hmem
  obtain ⟨w, rfl, hsame⟩ := hsearch.eq_singleton hkey hsep hrespects hlone
  have hwfalsy : x.truthy w = false := hsame.symm.falsy hfalsy
  have hwlist : ∀ items, w ≠ .array items := fun items heq ↦ by
    rw [heq] at hsame
    obtain ⟨others, hothers, -⟩ := hsame.symm.array_eq
    exact hlist others hothers
  -- the second pass ends with an empty list, which does not hold the match
  have hempty : pack found' = .array [] := by
    rw [scanText, hextract] at hscan
    simp only [pack, Option.bind_eq_bind, Option.bind_some, hwfalsy, Bool.false_eq_true,
      if_false] at hscan
    obtain ⟨top, -, hscan⟩ := Option.bind_eq_some_iff.mp hscan
    split at hscan
    · obtain ⟨gathered, hrescan, hscan⟩ := Option.bind_eq_some_iff.mp hscan
      cases gathered with
      | error e => cases hscan
      | ok results =>
        cases rescan_of_not_array hwlist hrescan
        exact finish_of_falsy hwlist hwfalsy (Option.some.inj hscan)
    · exact (Except.ok.inj (Option.some.inj hscan)).symm
  obtain ⟨v, hv, hvsame⟩ := hall value hbound
  match found', hempty, hv with
  | [only], hempty, hv =>
    rw [List.mem_singleton.mp hv, show only = .array [] from hempty] at hvsame
    exact hlist [] hvsame.symm.array_nil

end Scan

/-- The extractor at the highest level, with one text that a parser reads. -/
def onlyOne (parser : Parser Nat) : Extractor Nat Nat where
  strictLevel := .two
  json := parser
  json5 := parser
  orjson := parser
  isZero n := n == 0
  digest value := value.children.length
  str _ := []

/-- A document with a truthy number. -/
def numberText : Text := "\x7b\"k\": 1\x7d".toList

/-- Its parser. -/
def numberParser : Parser Nat :=
  .only numberText ['k'] (.number 1) (by decide) (by decide) rfl (fun _ h ↦ by cases h)

/-- In that document only the object and the number are met. -/
theorem met_numberText {texts : List Text} {value : Value Nat}
    (h : (onlyOne numberParser).Reads texts value) (htexts : ∀ t ∈ texts, t = numberText) :
    value = .string numberText ∨ value = .object [(['k'], .number 1)] ∨ value = .number 1 := by
  refine h.mem_of_closed (S := fun v ↦ v = .string numberText ∨
    v = .object [(['k'], .number 1)] ∨ v = .number 1)
    (fun t ht ↦ .inl (by rw [htexts t ht])) fun a b ha hleads ↦ ?_
  have hread : (onlyOne numberParser).read numberText = some (.object [(['k'], .number 1)]) := rfl
  rcases ha with rfl | rfl | rfl
  · rcases hleads with hchild | ⟨t, heq, hb⟩
    · cases hchild
    · cases heq
      exact .inr (.inl (Option.some.inj (hb.symm.trans hread)))
  · rcases hleads with hchild | ⟨t, heq, -⟩
    · exact .inr (.inr (List.mem_singleton.mp hchild))
    · cases heq
  · rcases hleads with hchild | ⟨t, heq, -⟩
    · cases hchild
    · cases heq

/-- A document with a URL, whose slashes look like a comment. -/
def urlText : Text := "\x7b\"url\": \"http://a/b\"\x7d".toList

/-- Its parser. -/
def urlParser : Parser Nat :=
  .only urlText "url".toList (.string "http://a/b".toList) (by decide) (by decide) rfl
    (fun _ h ↦ by cases h; decide)

end ScrapyCffi.JsonScan.Extractor
