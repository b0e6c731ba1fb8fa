import ScrapyCffi.JsonScan.Search

/-!
# Finished searches

A search that starts with empty sets and ends with all of its texts tried. It has met every object
that can be met from them, up to equality; the searches of `extract` are of this kind.
-/

namespace ScrapyCffi.JsonScan.Extractor

open Relation Value
open ScrapyCffi.Base
open ScrapyCffi.Robots (Text)

variable {ν δ : Type} (x : Extractor ν δ)

/-- A search for `key` from some texts has found the matches. -/
def Search (key : Text) (texts : List Text) (found : List (Value ν)) : Prop :=
  ∃ visited after, x.Explores texts key .empty visited found after ∧
    ∀ text ∈ texts, Tried after text

/-- What counts as visited: a container with something in it has been gone through, a string has
been parsed. -/
structure Visited (texts : List Text) (visited : List (Value ν)) (after : Seen δ)
    (value : Value ν) : Prop where
  reads : x.Reads texts value
  container : value.children ≠ [] → value ∈ visited
  string : ∀ text, value = .string text → Tried after text

section Finished

variable {x} {key : Text} {texts : List Text} {visited found : List (Value ν)} {after : Seen δ}

/-- A marked value is like a visited one. -/
theorem Explores.visited_of_marked (h : x.Explores texts key .empty visited found after)
    (hsep : x.Separates texts) {value : Value ν} (hreads : x.Reads texts value)
    (hmarked : x.Marked after value) :
    ∃ c, x.Visited texts visited after c ∧ Same c value := by
  by_cases hcontainer : value.isContainer = true
  · rcases h.hashes _ (hmarked.hash hcontainer) with hempty | ⟨c, hc, hcc, hdigest⟩
    · cases hempty
    · refine ⟨c, ⟨h.reads c hc, fun _ ↦ hc, fun text heq ↦ ?_⟩,
        hsep c value (h.reads c hc) hreads hcc hcontainer hdigest⟩
      rw [heq] at hcc
      cases hcc
  · refine ⟨value, ⟨hreads, fun hchildren ↦ ?_, fun text heq ↦ ?_⟩, rfl⟩
    · cases value <;> first | exact absurd rfl hcontainer | exact absurd rfl hchildren
    · rcases h.strings text (hmarked.string text heq) with hempty | htried
      · cases hempty
      · exact htried

/-- A finished search covers what can be met. -/
theorem Explores.cover (h : x.Explores texts key .empty visited found after)
    (hsep : x.Separates texts) : Cover x.Leads Same (x.Visited texts visited after) where
  trans := fun hab hbc ↦ Eq.trans hab hbc
  simulates := by
    intro a b b' hsame hleads
    rcases hleads with hchild | ⟨text, rfl, hread⟩
    · obtain ⟨a', ha', hlike⟩ := hsame.exists_child hchild
      exact ⟨a', .inl ha', hlike⟩
    · exact ⟨b', .inr ⟨text, hsame.string_eq, hread⟩, rfl⟩
  closed := by
    intro a a' hvisited hleads
    rcases hleads with hchild | ⟨text, rfl, hread⟩
    · have hmem := hvisited.container (List.ne_nil_of_mem hchild)
      exact h.visited_of_marked hsep (hvisited.reads.child hchild) (h.children a hmem a' hchild)
    · have hreads := hvisited.reads.parsed hread
      have hcontainer := (read_spec hread).1
      obtain ⟨hcolon, hparse⟩ := read_eq_some hread
      by_cases htruthy : x.truthy a' = true
      · rcases h.parsed _ (hvisited.string text rfl hcolon) with hempty | hparsed
        · cases hempty
        · exact h.visited_of_marked hsep hreads (hparsed a' hparse htruthy)
      · rw [Bool.not_eq_true] at htruthy
        refine ⟨a', ⟨hreads, fun hchildren ↦ ?_, fun other heq ↦ ?_⟩, rfl⟩
        · exact absurd (children_of_not_truthy hcontainer htruthy) hchildren
        · rw [heq] at hcontainer
          cases hcontainer

/-- Each object that can be met and has members is like a visited one. -/
theorem Explores.exists_visited (h : x.Explores texts key .empty visited found after)
    (htried : ∀ text ∈ texts, Tried after text) (hsep : x.Separates texts)
    {members : List (Text × Value ν)} (hreads : x.Reads texts (.object members))
    (hmembers : members ≠ []) :
    ∃ others, .object others ∈ visited ∧ Same (.object others) (.object members) := by
  obtain ⟨text, hmem, hreach⟩ := hreads
  have hroot : x.Visited texts visited after (.string text) :=
    ⟨.root hmem, fun hchildren ↦ absurd rfl hchildren, fun other heq ↦ by
      cases heq; exact htried text hmem⟩
  obtain ⟨c, hvisited, hsame⟩ := (h.cover hsep).reached ⟨_, hroot, rfl⟩ hreach
  obtain ⟨others, rfl, -⟩ := hsame.object_eq
  obtain ⟨m, hm⟩ := List.exists_mem_of_ne_nil members hmembers
  obtain ⟨other, hother, -⟩ := hsame.exists_child (List.mem_map_of_mem hm)
  exact ⟨others, hvisited.container (List.ne_nil_of_mem hother), hsame⟩

theorem ne_nil_of_mem_valuesOf {members : List (Text × Value ν)} {value : Value ν}
    (h : value ∈ valuesOf key members) : members ≠ [] :=
  List.ne_nil_of_mem (mem_valuesOf.mp h)

/-- The values of an object are among its matches. -/
theorem mem_matchesOf {members : List (Text × Value ν)} {value : Value ν}
    (h : value ∈ valuesOf key members) : value ∈ matchesOf key (.object members) :=
  List.mem_append_right _ h

/-- A finished search finds the values of every object that can be met. -/
theorem Search.finds (h : x.Search key texts found) (hsep : x.Separates texts)
    {members : List (Text × Value ν)} {value : Value ν}
    (hreads : x.Reads texts (.object members)) (hvalue : value ∈ valuesOf key members) :
    ∃ w ∈ found, Same w value := by
  obtain ⟨visited, after, hex, htried⟩ := h
  obtain ⟨others, hvisited, hsame⟩ :=
    hex.exists_visited htried hsep hreads (ne_nil_of_mem_valuesOf hvalue)
  obtain ⟨w, hw, hlike⟩ := hsame.exists_bound hvalue
  exact ⟨w, hex.perm.mem_iff.mpr (List.mem_flatMap.mpr ⟨_, hvisited, mem_matchesOf hw⟩), hlike⟩

/-- A search that finds nothing has met no object with the key. -/
theorem Search.valuesOf_eq_nil (h : x.Search key texts []) (hsep : x.Separates texts)
    {members : List (Text × Value ν)} (hreads : x.Reads texts (.object members)) :
    valuesOf key members = [] := by
  refine List.eq_nil_iff_forall_not_mem.mpr fun value hvalue ↦ ?_
  obtain ⟨w, hw, -⟩ := h.finds hsep hreads hvalue
  cases hw

/-- A search for all objects that finds nothing has met no object with members. -/
theorem Search.not_reads (h : x.Search [] texts []) (hsep : x.Separates texts)
    {members : List (Text × Value ν)} (hreads : x.Reads texts (.object members))
    (hmembers : members ≠ []) : False := by
  obtain ⟨visited, after, hex, htried⟩ := h
  obtain ⟨others, hvisited, -⟩ := hex.exists_visited htried hsep hreads hmembers
  have hmatch : .object others ∈ visited.flatMap (matchesOf []) :=
    List.mem_flatMap.mpr ⟨_, hvisited, List.mem_append_left _ List.mem_cons_self⟩
  exact absurd (hex.perm.mem_iff.mpr hmatch) List.not_mem_nil

/-- Two places of a list that both contribute to a single result hold the same. -/
theorem eq_of_flatMap_eq_singleton {α β : Type} {f : α → List β} {l : List α} {b : β} {a a' : α}
    (h : l.flatMap f = [b]) (ha : a ∈ l) (ha' : a' ∈ l) (hne : f a ≠ []) (hne' : f a' ≠ []) :
    a = a' := by
  induction l with
  | nil => cases ha
  | cons c rest ih =>
    rw [List.flatMap_cons] at h
    rcases List.append_eq_singleton_iff.mp h with ⟨hc, hrest⟩ | ⟨-, hrest⟩
    · have hmem : ∀ {d}, d ∈ c :: rest → f d ≠ [] → d ∈ rest := fun hd hfd ↦
        (List.mem_cons.mp hd).resolve_left fun heq ↦ hfd (heq ▸ hc)
      exact ih hrest (hmem ha hne) (hmem ha' hne')
    · have hhead : ∀ {d}, d ∈ c :: rest → f d ≠ [] → d = c := fun hd hfd ↦
        (List.mem_cons.mp hd).resolve_right fun hd ↦ hfd (List.flatMap_eq_nil_iff.mp hrest _ hd)
      exact (hhead ha hne).trans (hhead ha' hne').symm

/-- A place of a list that contributes to a single result gives all of it. -/
theorem eq_singleton_of_flatMap {α β : Type} {f : α → List β} {l : List α} {b : β} {a : α}
    (h : l.flatMap f = [b]) (ha : a ∈ l) (hne : f a ≠ []) : f a = [b] := by
  obtain ⟨front, back, rfl⟩ := List.append_of_mem ha
  rw [List.flatMap_append, List.flatMap_cons] at h
  rcases List.append_eq_singleton_iff.mp h with ⟨-, hrest⟩ | ⟨-, hrest⟩
  · rcases List.append_eq_singleton_iff.mp hrest with ⟨hnil, -⟩ | ⟨hone, -⟩
    · exact absurd hnil hne
    · exact hone
  · exact absurd (List.append_eq_nil_iff.mp hrest).1 hne

theorem matchesOf_object (hkey : key ≠ []) (members : List (Text × Value ν)) :
    matchesOf key (.object members) = valuesOf key members := by
  rw [matchesOf, if_neg (by rwa [List.isEmpty_iff]), List.nil_append]

/-- What a search finds is bound to the key in an object that can be met. -/
theorem Search.sound (h : x.Search key texts found) (hkey : key ≠ []) {value : Value ν}
    (hvalue : value ∈ found) :
    ∃ members, x.Reads texts (.object members) ∧ value ∈ valuesOf key members := by
  obtain ⟨visited, after, hex, -⟩ := h
  obtain ⟨c, hc, hmatch⟩ := List.mem_flatMap.mp (hex.perm.mem_iff.mp hvalue)
  cases c with
  | object members => exact ⟨members, hex.reads _ hc, matchesOf_object hkey members ▸ hmatch⟩
  | _ => cases hmatch

variable (x) in
/-- Of the objects that can be met from the texts, those with the key are all the same, and
`value` is what they bind to it. -/
def Lone (key : Text) (texts : List Text) (value : Value ν) : Prop :=
  ∃ members, x.Reads texts (.object members) ∧ valuesOf key members = [value] ∧
    ∀ others, x.Reads texts (.object others) → valuesOf key others ≠ [] →
      Same (.object members) (.object others)

/-- All that is bound to the key is the same as the lone value. -/
theorem Lone.same {value other : Value ν} (h : x.Lone key texts value)
    {members : List (Text × Value ν)} (hreads : x.Reads texts (.object members))
    (hother : other ∈ valuesOf key members) : Same value other := by
  obtain ⟨lone, -, hvalue, honly⟩ := h
  obtain ⟨w, hw, hsame⟩ := (honly members hreads (List.ne_nil_of_mem hother)).exists_bound hother
  rw [hvalue, List.mem_singleton] at hw
  exact hw ▸ hsame

/-- A search that finds a single match has met a lone value. -/
theorem Search.lone {value : Value ν} (h : x.Search key texts [value]) (hkey : key ≠ [])
    (hsep : x.Separates texts) : x.Lone key texts value := by
  obtain ⟨visited, after, hex, htried⟩ := h
  have hflat : visited.flatMap (matchesOf key) = [value] := List.perm_singleton.mp hex.perm.symm
  obtain ⟨c, hc, hvalue⟩ := List.mem_flatMap.mp (hflat ▸ List.mem_singleton_self value)
  cases c with
  | object members =>
    have hne := List.ne_nil_of_mem hvalue
    refine ⟨members, hex.reads _ hc, ?_, fun others hreads hothers ↦ ?_⟩
    · rw [← matchesOf_object hkey]
      exact eq_singleton_of_flatMap hflat hc hne
    · obtain ⟨w, hw⟩ := List.exists_mem_of_ne_nil _ hothers
      obtain ⟨twins, htwins, hsame⟩ :=
        hex.exists_visited htried hsep hreads (ne_nil_of_mem_valuesOf hw)
      obtain ⟨w', hw', -⟩ := hsame.exists_bound hw
      have heq := eq_of_flatMap_eq_singleton hflat hc htwins hne
        (List.ne_nil_of_mem (mem_matchesOf hw'))
      rw [heq]
      exact hsame
  | _ => cases hvalue

variable (x) in
/-- Containers that can be met and are the same have the same digest. -/
def Respects (texts : List Text) : Prop :=
  ∀ a b, x.Reads texts a → x.Reads texts b → a.isContainer = true → Same a b →
    x.digest a = x.digest b

/-- A list with one place that contributes. -/
theorem flatMap_eq_of_unique {α β : Type} {f : α → List β} {l : List α} {a : α} (hl : l.Nodup)
    (ha : a ∈ l) (h : ∀ b ∈ l, f b ≠ [] → b = a) : l.flatMap f = f a := by
  obtain ⟨front, back, rfl⟩ := List.append_of_mem ha
  obtain ⟨-, hback, hdisjoint⟩ := List.nodup_append.mp hl
  have hfront : front.flatMap f = [] := List.flatMap_eq_nil_iff.mpr fun b hb ↦
    Classical.byContradiction fun hne ↦
      hdisjoint b hb a List.mem_cons_self (h b (List.mem_append_left _ hb) hne)
  have hrest : back.flatMap f = [] := List.flatMap_eq_nil_iff.mpr fun b hb ↦
    Classical.byContradiction fun hne ↦
      have heq := h b (List.mem_append_right _ (List.mem_cons_of_mem _ hb)) hne
      (List.nodup_cons.mp hback).1 (heq ▸ hb)
  rw [List.flatMap_append, List.flatMap_cons, hfront, hrest, List.nil_append, List.append_nil]

/-- A search that meets a lone value finds it, and nothing else. -/
theorem Search.eq_singleton {value : Value ν} (h : x.Search key texts found) (hkey : key ≠ [])
    (hsep : x.Separates texts) (hrespects : x.Respects texts) (hlone : x.Lone key texts value) :
    ∃ w, found = [w] ∧ Same w value := by
  obtain ⟨visited, after, hex, htried⟩ := h
  obtain ⟨members, hmembers, hvalue, honly⟩ := hlone
  have hmem : value ∈ valuesOf key members := hvalue ▸ List.mem_singleton_self value
  obtain ⟨others, hothers, hsame⟩ :=
    hex.exists_visited htried hsep hmembers (ne_nil_of_mem_valuesOf hmem)
  -- of the visited objects only this one has the key, since it alone has its digest
  have hunique : ∀ c ∈ visited, matchesOf key c ≠ [] → c = .object others := by
    intro c hc hne
    refine List.inj_on_of_nodup_map hex.nodup hc hothers ?_
    cases c with
    | object twins =>
      rw [matchesOf_object hkey] at hne
      have htwins := honly twins (hex.reads _ hc) hne
      exact hrespects _ _ (hex.reads _ hc) (hex.reads _ hothers) rfl (hsame.trans htwins).symm
    | _ => exact absurd rfl hne
  obtain ⟨_, heq, hviews⟩ := hsame.object_eq
  cases heq
  have hview := hviews key
  rw [hvalue, List.map_singleton, List.map_eq_singleton_iff] at hview
  obtain ⟨w, hw, hwv⟩ := hview
  refine ⟨w, ?_, hwv⟩
  have hflat := flatMap_eq_of_unique (hex.nodup.of_map _) hothers hunique
  rw [matchesOf_object hkey, hw] at hflat
  exact List.perm_singleton.mp (hflat ▸ hex.perm)

end Finished

/-! ## The brace pairs -/

/-- A candidate is a part of the text. -/
theorem length_of_mem_bracePairs {n : Nat} {stack : List Text} {rest : Text}
    (hstack : ∀ start ∈ stack, start.length ≤ n) (hrest : rest.length ≤ n) :
    ∀ candidate ∈ bracePairs stack rest, candidate.length ≤ n := by
  induction rest generalizing stack with
  | nil => exact nofun
  | cons c rest ih =>
    have hle : rest.length ≤ n := Nat.le_of_succ_le hrest
    intro candidate hmem
    rw [bracePairs.eq_def] at hmem
    dsimp only at hmem
    split at hmem
    · refine ih (fun start hstart ↦ ?_) hle candidate hmem
      rcases List.mem_cons.mp hstart with rfl | hstart
      · exact hrest
      · exact hstack start hstart
    · split at hmem
      · split at hmem
        · exact ih (fun _ h ↦ absurd h List.not_mem_nil) hle candidate hmem
        · next start stack =>
          rcases List.mem_cons.mp hmem with rfl | hmem
          · exact Nat.le_trans (List.length_take_le' _ _) (hstack start List.mem_cons_self)
          · exact ih (fun s hs ↦ hstack s (List.mem_cons_of_mem _ hs)) hle candidate hmem
      · exact ih hstack hle candidate hmem

/-- What `parseAll` has done with the candidates. -/
structure Parsed (candidates : List Text) (seen : Seen δ) (objects : List (Value ν))
    (after : Seen δ) : Prop where
  texts : seen.jsonTexts ⊆ after.jsonTexts
  strings : after.strJson = seen.strJson
  hashes : after.objHashes = seen.objHashes
  tried : ∀ candidate ∈ candidates, Tried after candidate
  held : ∀ value ∈ objects, ∃ candidate ∈ candidates, x.read candidate = some value
  parsed : ∀ t ∈ after.jsonTexts, t ∈ seen.jsonTexts ∨
    ∀ value, x.parseTurns maxDepth t = some value → value ∈ objects

section Rescue

variable {x} {key : Text}

theorem Parsed.grown {candidates : List Text} {objects : List (Value ν)} {seen after : Seen δ}
    (h : x.Parsed candidates seen objects after) : Grown seen after :=
  ⟨h.texts, h.strings ▸ List.Subset.refl _, h.hashes ▸ List.Subset.refl _⟩

/-- One more candidate. -/
theorem Parsed.cons {candidate : Text} {candidates : List Text} {parsed : Option (Value ν)}
    {objects : List (Value ν)} {seen mid after : Seen δ}
    (htry : x.tryParse candidate seen = (parsed, mid))
    (h : x.Parsed candidates mid objects after) :
    x.Parsed (candidate :: candidates) seen (parsed.toList ++ objects) after := by
  rcases tryParse_cases x candidate seen with ⟨heq, htried⟩ | ⟨heq, hread⟩
  · cases htry.symm.trans heq
    refine { h with tried := fun c hc ↦ ?_, held := fun value hvalue ↦ ?_ }
    · rcases List.mem_cons.mp hc with rfl | hc
      · exact htried.mono h.grown
      · exact h.tried c hc
    · obtain ⟨c, hc, hc'⟩ := h.held value hvalue
      exact ⟨c, List.mem_cons_of_mem _ hc, hc'⟩
  · cases htry.symm.trans heq
    refine ⟨fun t ht ↦ h.texts (List.mem_cons_of_mem _ ht), h.strings, h.hashes, fun c hc ↦ ?_,
      fun value hvalue ↦ ?_, fun t ht ↦ ?_⟩
    · rcases List.mem_cons.mp hc with rfl | hc
      · exact fun _ ↦ h.texts List.mem_cons_self
      · exact h.tried c hc
    · rcases List.mem_append.mp hvalue with hvalue | hvalue
      · exact ⟨candidate, List.mem_cons_self, Option.mem_toList.mp hvalue⟩
      · obtain ⟨c, hc, hc'⟩ := h.held value hvalue
        exact ⟨c, List.mem_cons_of_mem _ hc, hc'⟩
    · rcases h.parsed t ht with hmid | hparsed
      · rcases List.mem_cons.mp hmid with rfl | hseen
        · refine .inr fun value hvalue ↦ List.mem_append_left _ ?_
          exact Option.mem_toList.mpr (hread.trans hvalue)
        · exact .inl hseen
      · exact .inr fun value hvalue ↦ List.mem_append_right _ (hparsed value hvalue)

theorem parseAll_parsed (candidates : List Text) (seen : Seen δ) :
    x.Parsed candidates seen (x.parseAll candidates seen).1 (x.parseAll candidates seen).2 := by
  induction candidates generalizing seen with
  | nil => exact ⟨List.Subset.refl _, rfl, rfl, nofun, nofun, fun _ ht ↦ .inl ht⟩
  | cons candidate rest ih => exact .cons rfl (ih _)

/-- The texts that `parseAll` has added belong to the search in what they hold. -/
theorem Parsed.explores {candidates roots : List Text} {objects visited found : List (Value ν)}
    {seen mid after : Seen δ} (h : x.Parsed candidates seen objects mid)
    (hex : x.Explores roots key mid visited found after)
    (hmarked : ∀ value ∈ objects, x.Marked after value) :
    x.Explores roots key seen visited found after where
  grown := h.grown.trans hex.grown
  reads := hex.reads
  perm := hex.perm
  nodup := hex.nodup
  fresh c hc := h.hashes ▸ hex.fresh c hc
  kept := hex.kept
  hashes d hd := h.hashes ▸ hex.hashes d hd
  children := hex.children
  strings s hs := h.strings ▸ hex.strings s hs
  parsed t ht := by
    rcases hex.parsed t ht with hmid | hparsed
    · exact (h.parsed t hmid).imp_right fun hobjects value hvalue _ ↦
        hmarked value (hobjects value hvalue)
    · exact .inr hparsed

end Rescue

/-! ## `extract` -/

section Extract

variable [DecidableEq δ] {x} {key text : Text} {fuel : Nat}

/-- The search in the text itself. -/
theorem descend_search (x : Extractor ν δ) (key : Text) (roots : List Text)
    (hroot : text ∈ roots) (hfuel : text.length < fuel) :
    ∃ visited found after, x.descend key fuel text .empty = some (found, after) ∧
      x.Explores roots key .empty visited found after ∧ Tried after text :=
  descends x roots key fuel text .empty hfuel (.root hroot)

omit [DecidableEq δ] in
theorem Explores.mono {roots others : List Text} {seen after : Seen δ}
    {visited found : List (Value ν)} (h : x.Explores roots key seen visited found after)
    (hsub : roots ⊆ others) : x.Explores others key seen visited found after :=
  { h with reads := fun c hc ↦ (h.reads c hc).mono hsub }

/-- `extract` packs what a search in the text finds, or else a search in the text and its brace
pairs. -/
theorem extract_spec (hkey : key ≠ []) (hfuel : text.length < fuel) :
    ∃ found, x.extract fuel key text = some (pack found) ∧
      ((found ≠ [] ∧ x.Search key [text] found) ∨
        (x.Search key [text] [] ∧ x.Search key (text :: bracePairs [] text) found)) := by
  obtain ⟨visited, found, seen, hdescend, hex, htried⟩ :=
    descend_search x key [text] List.mem_cons_self hfuel
  have hfirst : x.Search key [text] found :=
    ⟨visited, seen, hex, fun t ht ↦ (List.mem_singleton.mp ht) ▸ htried⟩
  by_cases hfound : found = []
  · subst hfound
    have hparsed := parseAll_parsed (x := x) (bracePairs [] text) seen
    have hobjects : ∀ value ∈ (x.parseAll (bracePairs [] text) seen).1,
        value.Below fuel ∧ x.Reads (text :: bracePairs [] text) value := fun value hvalue ↦ by
      obtain ⟨candidate, hcandidate, hread⟩ := hparsed.held value hvalue
      have hle := length_of_mem_bracePairs (fun _ h ↦ absurd h List.not_mem_nil)
        (Nat.le_refl text.length) candidate hcandidate
      exact ⟨(read_spec hread).2.mono (by omega),
        (Reads.root (List.mem_cons_of_mem _ hcandidate)).parsed hread⟩
    obtain ⟨others, more, after, hwalk, hex', hmarked⟩ :=
      walkItems_explores (descends x (text :: bracePairs [] text) key fuel) _
        (x.parseAll (bracePairs [] text) seen).2 (fun v hv ↦ (hobjects v hv).1)
        (fun v hv ↦ (hobjects v hv).2)
    refine ⟨more, ?_, .inr ⟨hfirst, _, after,
      (hex.mono (List.cons_subset_cons _ (List.nil_subset _))).trans
        (hparsed.explores hex' hmarked), fun t ht ↦ ?_⟩⟩
    · rw [extract, hdescend]
      simp [hkey, hwalk]
    · rcases List.mem_cons.mp ht with rfl | ht
      · exact htried.mono (hparsed.grown.trans hex'.grown)
      · exact (hparsed.tried t ht).mono hex'.grown
  · refine ⟨found, ?_, .inl ⟨hfound, hfirst⟩⟩
    rw [extract, hdescend]
    simp [hfound]

end Extract

end ScrapyCffi.JsonScan.Extractor
