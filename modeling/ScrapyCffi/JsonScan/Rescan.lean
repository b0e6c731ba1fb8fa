import ScrapyCffi.JsonScan.Finished

/-!
# The second pass

What `scan_text` does once `extract` has returned something falsy: it collects from the strings of
all objects. A list of results grows, anything else only survives where there is nothing to add.
-/

namespace ScrapyCffi.JsonScan.Extractor

open Relation Value
open ScrapyCffi.Robots (Text)

variable {ν δ : Type}

variable {x : Extractor ν δ}

theorem mem_of_part_array {items : List (Value ν)} {text : Text}
    (h : Part (.array items) (.string text)) : ∃ value ∈ items, Part value (.string text) := by
  rcases h.cases_head with heq | ⟨value, hvalue, hrest⟩
  · cases heq
  · exact ⟨value, hvalue, hrest⟩

/-- The strings of a pack are those of its matches. -/
theorem mem_of_part_pack {values : List (Value ν)} {text : Text}
    (h : Part (pack values) (.string text)) : ∃ value ∈ values, Part value (.string text) := by
  match values, h with
  | [], h => exact mem_of_part_array h
  | [value], h => exact ⟨value, List.mem_cons_self, h⟩
  | _ :: _ :: _, h => exact mem_of_part_array h

/-- The texts directly in a container are strings in it. -/
theorem mem_childTexts {Q : Text → Prop} {value : Value ν}
    (h : ∀ text, Part value (.string text) → Q text) : ∀ text ∈ childTexts value, Q text := by
  intro text hmem
  obtain ⟨inner, hinner, heq⟩ := List.mem_filterMap.mp hmem
  split at heq
  · cases heq
    exact h text (.single hinner)
  · cases heq

/-- What a result adds to a list of results. -/
def added : Value ν → List (Value ν)
  | .null => []
  | .array items => items
  | value => [value]

/-- Results that are a list take any result. -/
theorem addResult_array (old : List (Value ν)) (inner : Value ν) :
    addResult (.array old) inner = .ok (.array (old ++ added inner)) := by
  cases inner with
  | null => rw [added, List.append_nil]; rfl
  | _ => rfl

variable {inner : Text → Option (Value ν)} {Q : Text → Prop} {P : Value ν → Prop}

theorem gather_array {texts : List Text}
    (hinner : ∀ text ∈ texts, ∃ result, inner text = some result ∧ ∀ item ∈ added result, P item)
    {old : List (Value ν)} (hold : ∀ item ∈ old, P item) :
    ∃ items, gather inner texts (.array old) = some (.ok (.array items)) ∧
      ∀ item ∈ items, P item := by
  induction texts generalizing old with
  | nil => exact ⟨old, rfl, hold⟩
  | cons text rest ih =>
    obtain ⟨result, hresult, hadded⟩ := hinner text List.mem_cons_self
    have hnew : ∀ item ∈ old ++ added result, P item := fun item hmem ↦
      (List.mem_append.mp hmem).elim (hold item) (hadded item)
    obtain ⟨items, hitems, hall⟩ := ih (fun t ht ↦ hinner t (List.mem_cons_of_mem _ ht)) hnew
    refine ⟨items, ?_, hall⟩
    rw [gather, hresult]
    simp only [Option.bind_eq_bind, Option.bind_some, addResult_array, hitems]

/-- With a list of results the loop over the stack ends with a list of results, each of them from
one of the texts on the stack. -/
theorem rescan_array
    (hinner : ∀ text, Q text →
      ∃ result, inner text = some result ∧ ∀ item ∈ added result, P item)
    (stack : List (Value ν)) (results : Value ν) :
    (∀ value ∈ stack, ∀ text, Part value (.string text) → Q text) →
    (∃ old, results = .array old ∧ ∀ item ∈ old, P item) →
      ∃ items, rescan inner stack results = some (.ok (.array items)) ∧
        ∀ item ∈ items, P item := by
  induction stack, results using rescan.induct inner with
  | case1 results =>
    rintro - ⟨old, rfl, hold⟩
    exact ⟨old, by rw [rescan], hold⟩
  | case2 current stack results hgather =>
    rintro hstack ⟨old, rfl, hold⟩
    have htexts := mem_childTexts (hstack current List.mem_cons_self)
    obtain ⟨items, hitems, -⟩ := gather_array (fun t ht ↦ hinner t (htexts t ht)) hold
    cases hgather.symm.trans hitems
  | case3 current stack results e hgather =>
    rintro hstack ⟨old, rfl, hold⟩
    have htexts := mem_childTexts (hstack current List.mem_cons_self)
    obtain ⟨items, hitems, -⟩ := gather_array (fun t ht ↦ hinner t (htexts t ht)) hold
    cases hgather.symm.trans hitems
  | case4 current stack results gathered hgather ih =>
    rintro hstack ⟨old, rfl, hold⟩
    have hcurrent := hstack current List.mem_cons_self
    have htexts := mem_childTexts hcurrent
    obtain ⟨items, hitems, hall⟩ := gather_array (fun t ht ↦ hinner t (htexts t ht)) hold
    cases hgather.symm.trans hitems
    rw [rescan, hgather]
    refine ih (fun value hmem text hpart ↦ ?_) ⟨items, rfl, hall⟩
    rcases List.mem_append.mp hmem with hmem | hmem
    · have hchild := (List.mem_filter.mp (List.mem_reverse.mp hmem)).1
      exact hcurrent text (.head hchild hpart)
    · exact hstack value (List.mem_cons_of_mem _ hmem) text hpart

/-- Without a key, `extract` returns objects of the text, or of its brace pairs where the text has
none. -/
theorem extract_all [DecidableEq δ] {text : Text} {fuel : Nat} (hfuel : text.length < fuel) :
    ∃ result, x.extract fuel [] text = some result ∧ result.Below text.length ∧
      (x.Search [] [text] [] ∨ ∀ inner, Part result (.string inner) →
        x.Reads [text] (.string inner)) := by
  obtain ⟨visited, found, seen, hdescend, hex, htried⟩ :=
    descend_search x [] [text] List.mem_cons_self hfuel
  by_cases hfound : found = []
  · subst hfound
    refine ⟨.array (x.parseAll (bracePairs [] text) seen).1, ?_, fun inner hpart ↦ ?_,
      .inl ⟨visited, seen, hex, fun t ht ↦ (List.mem_singleton.mp ht) ▸ htried⟩⟩
    · rw [extract, hdescend]
      simp
    · obtain ⟨value, hvalue, hinner⟩ := mem_of_part_array hpart
      obtain ⟨candidate, hcandidate, hread⟩ :=
        (parseAll_parsed (x := x) (bracePairs [] text) seen).held value hvalue
      exact ((read_spec hread).2.mono (length_of_mem_bracePairs
        (fun _ h ↦ absurd h List.not_mem_nil) (Nat.le_refl _) candidate hcandidate)) inner hinner
  · have hmet : ∀ value ∈ found, value.Below text.length ∧ x.Reads [text] value := by
      intro value hvalue
      obtain ⟨c, hc, hmatch⟩ := List.mem_flatMap.mp (hex.perm.mem_iff.mp hvalue)
      have hreads := hex.reads c hc
      cases c with
      | object members =>
        have hbelow : (Value.object members).Below text.length := by
          refine (hreads.below fun t ht ↦ ?_).resolve_left ?_
          · rw [List.mem_singleton.mp ht]
          · rintro ⟨_, _, heq⟩
            cases heq
        rcases List.mem_append.mp hmatch with hself | hmember
        · cases List.mem_singleton.mp hself
          exact ⟨hbelow, hreads⟩
        · have hchild : value ∈ (Value.object members).children :=
            List.mem_map_of_mem (mem_valuesOf.mp hmember)
          exact ⟨hbelow.child hchild, hreads.child hchild⟩
      | _ => cases hmatch
    have hpack : ∀ inner, Part (pack found) (.string inner) →
        inner.length < text.length ∧ x.Reads [text] (.string inner) := fun inner hpart ↦ by
      obtain ⟨value, hvalue, hinner⟩ := mem_of_part_pack hpart
      exact ⟨(hmet value hvalue).1 inner hinner, (hmet value hvalue).2.part hinner⟩
    refine ⟨pack found, ?_, fun inner hpart ↦ (hpack inner hpart).1,
      .inr fun inner hpart ↦ (hpack inner hpart).2⟩
    rw [extract, hdescend]
    simp [hfound]

/-- The first of some empty lists is empty, and so is the list of no results. -/
theorem head_distinct (items : List (Value ν)) (h : ∀ item ∈ items, item = .array []) :
    (x.distinct [] items).head?.getD (.array []) = .array [] := by
  cases items with
  | nil => rfl
  | cons item rest =>
    rw [h item List.mem_cons_self]
    rfl

/-! ## Falsy results that are no list -/

/-- Nothing can be added to a result that is no list. -/
theorem addResult_of_not_array {results inner gathered : Value ν}
    (hresults : ∀ items, results ≠ .array items) (h : addResult results inner = .ok gathered) :
    gathered = results := by
  cases results with
  | array items => exact absurd rfl (hresults items)
  | _ =>
    cases inner <;> cases h
    rfl

theorem gather_of_not_array {inner : Text → Option (Value ν)} {texts : List Text}
    {results gathered : Value ν} (hresults : ∀ items, results ≠ .array items)
    (h : gather inner texts results = some (.ok gathered)) : gathered = results := by
  induction texts with
  | nil =>
    rw [gather] at h
    exact (Except.ok.inj (Option.some.inj h)).symm
  | cons text rest ih =>
    rw [gather] at h
    obtain ⟨found, -, h⟩ := Option.bind_eq_some_iff.mp h
    split at h
    · cases h
    · next hadd =>
      cases addResult_of_not_array hresults hadd
      exact ih h

/-- The loop leaves such a result as it is, or raises. -/
theorem rescan_of_not_array {inner : Text → Option (Value ν)} {stack : List (Value ν)}
    {results gathered : Value ν} (hresults : ∀ items, results ≠ .array items)
    (h : rescan inner stack results = some (.ok gathered)) : gathered = results := by
  induction stack, results using rescan.induct inner with
  | case1 results =>
    rw [rescan] at h
    exact (Except.ok.inj (Option.some.inj h)).symm
  | case2 current stack results hgather =>
    rw [rescan, hgather] at h
    cases h
  | case3 current stack results e hgather =>
    rw [rescan, hgather] at h
    cases h
  | case4 current stack results between hgather ih =>
    rw [rescan, hgather] at h
    cases gather_of_not_array hresults hgather
    exact ih hresults h

/-- Going through a falsy result that is no list gives nothing. -/
theorem finish_of_falsy {results result : Value ν} (hresults : ∀ items, results ≠ .array items)
    (hfalsy : x.truthy results = false) (h : x.finish results = .ok result) :
    result = .array [] := by
  cases results with
  | array items => exact absurd rfl (hresults items)
  | object members =>
    rw [truthy, Value.truthy, Bool.not_eq_false', List.isEmpty_iff] at hfalsy
    subst hfalsy
    exact (Except.ok.inj h).symm
  | string text =>
    rw [truthy, Value.truthy, Bool.not_eq_false', List.isEmpty_iff] at hfalsy
    subst hfalsy
    exact (Except.ok.inj h).symm
  | _ => cases h

end ScrapyCffi.JsonScan.Extractor
