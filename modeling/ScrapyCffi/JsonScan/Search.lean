import Mathlib.Data.List.Nodup
import Mathlib.Data.List.Perm.Basic
import ScrapyCffi.Base.Cover
import ScrapyCffi.JsonScan.Scanner

/-!
# What a search visits

The containers that `find_key_recursively` visits, the matches it takes from them, and what is in
the sets afterwards. A container whose digest is known is skipped: where different containers
have different digests, a finished search has met every container up to equality.
-/

namespace ScrapyCffi.JsonScan.Extractor

open Relation Value
open ScrapyCffi.Base
open ScrapyCffi.Robots (Text)

variable {ν δ : Type} [DecidableEq δ] (x : Extractor ν δ)

/-! ## What can be met -/

/-- A container leads to the values in it, a text to what is read from it. -/
def Leads (a b : Value ν) : Prop :=
  b ∈ a.children ∨ ∃ text, a = .string text ∧ x.read text = some b

/-- What can be met from some texts. -/
def Reads (texts : List Text) (value : Value ν) : Prop :=
  ∃ text ∈ texts, ReflTransGen x.Leads (.string text) value

/-- Containers that can be met and differ have different digests. -/
def Separates (texts : List Text) : Prop :=
  ∀ a b, x.Reads texts a → x.Reads texts b → a.isContainer = true → b.isContainer = true →
    x.digest a = x.digest b → Same a b

/-- The matches that a container itself gives. -/
def matchesOf (key : Text) : Value ν → List (Value ν)
  | .object members => (if key.isEmpty then [.object members] else []) ++ valuesOf key members
  | _ => []

section Reads

omit [DecidableEq δ]

variable {x} {texts : List Text}

theorem Reads.root {text : Text} (h : text ∈ texts) : x.Reads texts (.string text) :=
  ⟨text, h, .refl⟩

theorem Reads.leads {a b : Value ν} (h : x.Reads texts a) (hleads : x.Leads a b) :
    x.Reads texts b := by
  obtain ⟨text, hmem, hreach⟩ := h
  exact ⟨text, hmem, hreach.tail hleads⟩

theorem Reads.child {a b : Value ν} (h : x.Reads texts a) (hchild : b ∈ a.children) :
    x.Reads texts b := h.leads (.inl hchild)

theorem Reads.parsed {text : Text} {value : Value ν} (h : x.Reads texts (.string text))
    (hread : x.read text = some value) : x.Reads texts value :=
  h.leads (.inr ⟨text, rfl, hread⟩)

theorem Reads.part {a b : Value ν} (h : x.Reads texts a) (hpart : Part a b) :
    x.Reads texts b := by
  induction hpart with
  | refl => exact h
  | tail _ hchild ih => exact ih.child hchild

/-- What is met stays among values that lead to no others. -/
theorem Reads.mem_of_closed {S : Value ν → Prop} {value : Value ν} (h : x.Reads texts value)
    (hroots : ∀ text ∈ texts, S (.string text)) (hclosed : ∀ a b, S a → x.Leads a b → S b) :
    S value := by
  obtain ⟨text, hmem, hreach⟩ := h
  induction hreach with
  | refl => exact hroots text hmem
  | tail _ hleads ih => exact hclosed _ _ ih hleads

/-- What is met from a text that is met. -/
theorem Reads.of_reads {text : Text} {value : Value ν} (h : x.Reads texts (.string text))
    (hvalue : x.Reads [text] value) : x.Reads texts value := by
  obtain ⟨start, hstart, hreach⟩ := hvalue
  cases List.mem_singleton.mp hstart
  obtain ⟨origin, hmem, hfirst⟩ := h
  exact ⟨origin, hmem, hfirst.trans hreach⟩

/-- What is met from some of the texts is met from all of them. -/
theorem Reads.mono {others : List Text} {value : Value ν} (h : x.Reads texts value)
    (hsub : texts ⊆ others) : x.Reads others value := by
  obtain ⟨text, hmem, hreach⟩ := h
  exact ⟨text, hsub hmem, hreach⟩

theorem Separates.mono {texts others : List Text} (h : x.Separates others)
    (hsub : ∀ value, x.Reads texts value → x.Reads others value) : x.Separates texts :=
  fun a b ha hb ↦ h a b (hsub a ha) (hsub b hb)

/-- Apart from the texts themselves, only shorter strings are met. -/
theorem Reads.below {n : Nat} {value : Value ν} (h : x.Reads texts value)
    (hlength : ∀ text ∈ texts, text.length ≤ n) :
    (∃ text ∈ texts, value = .string text) ∨ value.Below n := by
  obtain ⟨text, hmem, hreach⟩ := h
  induction hreach with
  | refl => exact .inl ⟨text, hmem, rfl⟩
  | tail _ hleads ih =>
    right
    rcases hleads with hchild | ⟨inner, rfl, hread⟩
    · rcases ih with ⟨_, _, rfl⟩ | hbelow
      · cases hchild
      · exact hbelow.child hchild
    · have hle : inner.length ≤ n := by
        rcases ih with ⟨start, hroot, heq⟩ | hbelow
        · cases heq
          exact hlength _ hroot
        · exact Nat.le_of_lt hbelow.string
      exact (read_spec hread).2.mono hle

end Reads

/-! ## The sets -/

/-- Each set has grown. -/
structure Grown (seen after : Seen δ) : Prop where
  texts : seen.jsonTexts ⊆ after.jsonTexts
  strings : seen.strJson ⊆ after.strJson
  hashes : seen.objHashes ⊆ after.objHashes

/-- The digest of a container is known, or the string is. -/
structure Marked (seen : Seen δ) (value : Value ν) : Prop where
  hash : value.isContainer = true → x.digest value ∈ seen.objHashes
  string : ∀ text, value = .string text → text ∈ seen.strJson

/-- The text has been parsed before, unless it has no colon. -/
def Tried (seen : Seen δ) (text : Text) : Prop :=
  (clean text).contains ':' = true → clean text ∈ seen.jsonTexts

/-- A search from `seen` to `after`: what it has visited and found. -/
structure Explores (roots : List Text) (key : Text) (seen : Seen δ)
    (visited found : List (Value ν)) (after : Seen δ) : Prop where
  grown : Grown seen after
  reads : ∀ c ∈ visited, x.Reads roots c
  perm : found.Perm (visited.flatMap (matchesOf key))
  /-- No digest is visited twice. -/
  nodup : (visited.map x.digest).Nodup
  fresh : ∀ c ∈ visited, x.digest c ∉ seen.objHashes
  kept : ∀ c ∈ visited, x.digest c ∈ after.objHashes
  /-- A new digest is that of a visited container. -/
  hashes : ∀ h ∈ after.objHashes,
    h ∈ seen.objHashes ∨ ∃ c ∈ visited, c.isContainer = true ∧ x.digest c = h
  children : ∀ c ∈ visited, ∀ v ∈ c.children, x.Marked after v
  strings : ∀ s ∈ after.strJson, s ∈ seen.strJson ∨ Tried after s
  /-- What a new text holds is marked. -/
  parsed : ∀ t ∈ after.jsonTexts, t ∈ seen.jsonTexts ∨
    ∀ value, x.parseTurns maxDepth t = some value → x.truthy value = true → x.Marked after value

section Explores

omit [DecidableEq δ]

variable {x} {roots : List Text} {key : Text} {seen mid after : Seen δ}
  {visited others found more : List (Value ν)}

theorem Grown.refl (seen : Seen δ) : Grown seen seen :=
  ⟨List.Subset.refl _, List.Subset.refl _, List.Subset.refl _⟩

theorem Grown.trans (h : Grown seen mid) (h' : Grown mid after) : Grown seen after :=
  ⟨List.Subset.trans h.texts h'.texts, List.Subset.trans h.strings h'.strings,
    List.Subset.trans h.hashes h'.hashes⟩

theorem Marked.mono {value : Value ν} (h : x.Marked seen value) (hgrown : Grown seen after) :
    x.Marked after value :=
  ⟨fun hcontainer ↦ hgrown.hashes (h.hash hcontainer),
    fun text heq ↦ hgrown.strings (h.string text heq)⟩

theorem Tried.mono {text : Text} (h : Tried seen text) (hgrown : Grown seen after) :
    Tried after text := fun hcolon ↦ hgrown.texts (h hcolon)

/-- Nothing visited. -/
theorem Explores.refl (seen : Seen δ) : x.Explores roots key seen [] [] seen where
  grown := .refl seen
  reads _ h := absurd h List.not_mem_nil
  perm := .refl _
  nodup := List.nodup_nil
  fresh _ h := absurd h List.not_mem_nil
  kept _ h := absurd h List.not_mem_nil
  hashes _ h := .inl h
  children _ h := absurd h List.not_mem_nil
  strings _ h := .inl h
  parsed _ h := .inl h

/-- One search after the other. -/
theorem Explores.trans (h : x.Explores roots key seen visited found mid)
    (h' : x.Explores roots key mid others more after) :
    x.Explores roots key seen (visited ++ others) (found ++ more) after where
  grown := h.grown.trans h'.grown
  reads c hc := (List.mem_append.mp hc).elim (h.reads c) (h'.reads c)
  perm := by
    rw [List.flatMap_append]
    exact h.perm.append h'.perm
  nodup := by
    rw [List.map_append]
    refine h.nodup.append h'.nodup fun d hd hd' ↦ ?_
    obtain ⟨c, hc, rfl⟩ := List.mem_map.mp hd
    obtain ⟨b, hb, heq⟩ := List.mem_map.mp hd'
    exact h'.fresh b hb (heq ▸ h.kept c hc)
  fresh c hc := by
    rcases List.mem_append.mp hc with hc | hc
    · exact h.fresh c hc
    · exact fun hd ↦ h'.fresh c hc (h.grown.hashes hd)
  kept c hc := by
    rcases List.mem_append.mp hc with hc | hc
    · exact h'.grown.hashes (h.kept c hc)
    · exact h'.kept c hc
  hashes d hd := by
    rcases h'.hashes d hd with hmid | ⟨c, hc, hdigest⟩
    · rcases h.hashes d hmid with hseen | ⟨c, hc, hdigest⟩
      · exact .inl hseen
      · exact .inr ⟨c, List.mem_append_left _ hc, hdigest⟩
    · exact .inr ⟨c, List.mem_append_right _ hc, hdigest⟩
  children c hc v hv := by
    rcases List.mem_append.mp hc with hc | hc
    · exact (h.children c hc v hv).mono h'.grown
    · exact h'.children c hc v hv
  strings s hs := by
    rcases h'.strings s hs with hmid | htried
    · exact (h.strings s hmid).imp_right fun htried ↦ htried.mono h'.grown
    · exact .inr htried
  parsed t ht := by
    rcases h'.parsed t ht with hmid | hparsed
    · exact (h.parsed t hmid).imp_right fun hparsed value hvalue htruthy ↦
        (hparsed value hvalue htruthy).mono h'.grown
    · exact .inr hparsed

/-- A container is visited when its digest is new and all in it is marked afterwards. -/
theorem Explores.container {c : Value ν} {total : List (Value ν)}
    (h : x.Explores roots key (seen.addHash (x.digest c)) visited found after)
    (hnew : x.digest c ∉ seen.objHashes) (hcontainer : c.isContainer = true)
    (hreads : x.Reads roots c) (hchildren : ∀ v ∈ c.children, x.Marked after v)
    (hperm : total.Perm (matchesOf key c ++ found)) :
    x.Explores roots key seen (c :: visited) total after where
  grown := ⟨h.grown.texts, h.grown.strings, fun _ hd ↦ h.grown.hashes (List.mem_cons_of_mem _ hd)⟩
  reads d hd := by
    rcases List.mem_cons.mp hd with rfl | hd
    · exact hreads
    · exact h.reads d hd
  perm := by
    rw [List.flatMap_cons]
    exact hperm.trans (h.perm.append_left _)
  nodup := by
    rw [List.map_cons]
    refine List.nodup_cons.mpr ⟨fun hmem ↦ ?_, h.nodup⟩
    obtain ⟨b, hb, heq⟩ := List.mem_map.mp hmem
    exact h.fresh b hb (heq ▸ List.mem_cons_self)
  fresh d hd := by
    rcases List.mem_cons.mp hd with rfl | hd
    · exact hnew
    · exact fun hmem ↦ h.fresh d hd (List.mem_cons_of_mem _ hmem)
  kept d hd := by
    rcases List.mem_cons.mp hd with rfl | hd
    · exact h.grown.hashes List.mem_cons_self
    · exact h.kept d hd
  hashes d hd := by
    rcases h.hashes d hd with hmem | ⟨b, hb, hdigest⟩
    · rcases List.mem_cons.mp hmem with rfl | hseen
      · exact .inr ⟨c, List.mem_cons_self, hcontainer, rfl⟩
      · exact .inl hseen
    · exact .inr ⟨b, List.mem_cons_of_mem _ hb, hdigest⟩
  children d hd := by
    rcases List.mem_cons.mp hd with rfl | hd
    · exact hchildren
    · exact h.children d hd
  strings := h.strings
  parsed := h.parsed

/-- A string is new, and its text has been tried afterwards. -/
theorem Explores.string {text : Text}
    (h : x.Explores roots key (seen.addString text) visited found after)
    (htried : Tried after text) : x.Explores roots key seen visited found after where
  grown := ⟨h.grown.texts, fun _ hs ↦ h.grown.strings (List.mem_cons_of_mem _ hs), h.grown.hashes⟩
  reads := h.reads
  perm := h.perm
  nodup := h.nodup
  fresh := h.fresh
  kept := h.kept
  hashes := h.hashes
  children := h.children
  strings s hs := by
    rcases h.strings s hs with hmem | hs
    · rcases List.mem_cons.mp hmem with rfl | hseen
      · exact .inr htried
      · exact .inl hseen
    · exact .inr hs
  parsed := h.parsed

/-- A text is new, and what it holds is marked afterwards. -/
theorem Explores.text {text : Text}
    (h : x.Explores roots key (seen.addText text) visited found after)
    (hparsed : ∀ value, x.parseTurns maxDepth text = some value → x.truthy value = true →
      x.Marked after value) : x.Explores roots key seen visited found after where
  grown := ⟨fun _ ht ↦ h.grown.texts (List.mem_cons_of_mem _ ht), h.grown.strings, h.grown.hashes⟩
  reads := h.reads
  perm := h.perm
  nodup := h.nodup
  fresh := h.fresh
  kept := h.kept
  hashes := h.hashes
  children := h.children
  strings := h.strings
  parsed t ht := by
    rcases h.parsed t ht with hmem | ht
    · rcases List.mem_cons.mp hmem with rfl | hseen
      · exact .inr hparsed
      · exact .inl hseen
    · exact .inr ht

end Explores

/-! ## The search -/

/-- What `descend` makes of the strings shorter than `n` that can be met. -/
def Descends (roots : List Text) (key : Text) (n : Nat)
    (descend : Text → Seen δ → Option (Found ν δ)) : Prop :=
  ∀ text seen, text.length < n → x.Reads roots (.string text) →
    ∃ visited found after, descend text seen = some (found, after) ∧
      x.Explores roots key seen visited found after ∧ Tried after text

section Walk

variable {x} {roots : List Text} {key : Text} {n : Nat}
  {descend : Text → Seen δ → Option (Found ν δ)}

omit [DecidableEq δ] in
/-- The second try at a string. -/
theorem retry_explores (hd : x.Descends roots key n descend) {value : Value ν} (seen : Seen δ)
    (hbelow : value.Below n) (hreads : x.Reads roots value) :
    ∃ visited found after, retry descend value seen = some (found, after) ∧
      x.Explores roots key seen visited found after := by
  cases value with
  | string text =>
    by_cases hbraces : hasBraces text = true
    · obtain ⟨visited, found, after, hdescend, hex, -⟩ := hd text seen hbelow.string hreads
      exact ⟨visited, found, after, (if_pos hbraces).trans hdescend, hex⟩
    · exact ⟨[], [], seen, if_neg hbraces, .refl seen⟩
  | _ => exact ⟨[], [], seen, rfl, .refl seen⟩

omit [DecidableEq δ] in
/-- A value that is no container and no string needs no mark. -/
theorem marked_scalar {value : Value ν} (seen : Seen δ) (hcontainer : value.isContainer = false)
    (hstring : ∀ text, value ≠ .string text) : x.Marked seen value :=
  ⟨fun h ↦ absurd (hcontainer.symm.trans h) Bool.false_ne_true,
    fun text heq ↦ absurd heq (hstring text)⟩

mutual

/-- The search in a value returns, and the value is marked afterwards. -/
theorem walk_explores (hd : x.Descends roots key n descend) :
    ∀ (value : Value ν) (seen : Seen δ), value.Below n → x.Reads roots value →
      ∃ visited found after, x.walk descend key value seen = some (found, after) ∧
        x.Explores roots key seen visited found after ∧ x.Marked after value
  | .array items, seen, hbelow, hreads => by
    by_cases hknown : seen.objHashes.contains (x.digest (.array items)) = true
    · refine ⟨[], [], seen, ?_, .refl seen, fun _ ↦ List.contains_iff_mem.mp hknown, nofun⟩
      rw [walk, if_pos hknown]
    · have hnew := hknown ∘ List.contains_iff_mem.mpr
      obtain ⟨visited, found, after, hwalk, hex, hmarked⟩ :=
        walkItems_explores hd items (seen.addHash (x.digest (.array items)))
          (fun _ hv ↦ hbelow.child hv) (fun _ hv ↦ hreads.child hv)
      refine ⟨_, found, after, ?_, hex.container hnew rfl hreads hmarked (.refl _),
        fun _ ↦ hex.grown.hashes List.mem_cons_self, nofun⟩
      rw [walk, if_neg hknown, hwalk]
  | .object members, seen, hbelow, hreads => by
    by_cases hknown : seen.objHashes.contains (x.digest (.object members)) = true
    · refine ⟨[], [], seen, ?_, .refl seen, fun _ ↦ List.contains_iff_mem.mp hknown, nofun⟩
      rw [walk, if_pos hknown]
    · have hnew := hknown ∘ List.contains_iff_mem.mpr
      obtain ⟨visited, found, inner, after, hwalk, hperm, hex, hmarked⟩ :=
        walkMembers_explores hd members (seen.addHash (x.digest (.object members)))
          (fun m hm ↦ hbelow.child (List.mem_map_of_mem hm))
          (fun m hm ↦ hreads.child (List.mem_map_of_mem hm))
      refine ⟨_, (if key.isEmpty then [.object members] else []) ++ found, after, ?_,
        hex.container hnew rfl hreads ?_ ?_, fun _ ↦ hex.grown.hashes List.mem_cons_self, nofun⟩
      · rw [walk, if_neg hknown, hwalk]
        rfl
      · intro v hv
        obtain ⟨m, hm, rfl⟩ := List.mem_map.mp hv
        exact hmarked m hm
      · rw [matchesOf, List.append_assoc]
        exact hperm.append_left _
  | .string text, seen, hbelow, hreads => by
    by_cases hknown : seen.strJson.contains text = true
    · refine ⟨[], [], seen, ?_, .refl seen, nofun, fun other heq ↦ ?_⟩
      · rw [walk, if_pos hknown]
      · cases heq
        exact List.contains_iff_mem.mp hknown
    · obtain ⟨visited, found, after, hdescend, hex, htried⟩ :=
        hd text (seen.addString text) hbelow.string hreads
      refine ⟨visited, found, after, ?_, hex.string htried, nofun, fun other heq ↦ ?_⟩
      · rw [walk, if_neg hknown, hdescend]
      · cases heq
        exact hex.grown.strings List.mem_cons_self
  | .null, seen, _, _ => ⟨[], [], seen, rfl, .refl seen, marked_scalar seen rfl nofun⟩
  | .bool _, seen, _, _ => ⟨[], [], seen, rfl, .refl seen, marked_scalar seen rfl nofun⟩
  | .number _, seen, _, _ => ⟨[], [], seen, rfl, .refl seen, marked_scalar seen rfl nofun⟩

/-- The search goes through the items. -/
theorem walkItems_explores (hd : x.Descends roots key n descend) :
    ∀ (items : List (Value ν)) (seen : Seen δ), (∀ v ∈ items, v.Below n) →
      (∀ v ∈ items, x.Reads roots v) →
      ∃ visited found after, x.walkItems descend key items seen = some (found, after) ∧
        x.Explores roots key seen visited found after ∧ ∀ v ∈ items, x.Marked after v
  | [], seen, _, _ => ⟨[], [], seen, rfl, .refl seen, nofun⟩
  | item :: rest, seen, hbelow, hreads => by
    obtain ⟨visited, found, mid, hwalk, hex, hmarked⟩ :=
      walk_explores hd item seen (hbelow item List.mem_cons_self) (hreads item List.mem_cons_self)
    obtain ⟨others, more, after, hrest, hex', hmarked'⟩ :=
      walkItems_explores hd rest mid (fun v hv ↦ hbelow v (List.mem_cons_of_mem _ hv))
        (fun v hv ↦ hreads v (List.mem_cons_of_mem _ hv))
    refine ⟨visited ++ others, found ++ more, after, ?_, hex.trans hex', fun v hv ↦ ?_⟩
    · rw [walkItems, hwalk]
      simp only [Option.bind_eq_bind, Option.bind_some, hrest]
    · rcases List.mem_cons.mp hv with rfl | hv
      · exact hmarked.mono hex'.grown
      · exact hmarked' v hv

/-- The search goes through the members, whose own matches come with the others. -/
theorem walkMembers_explores (hd : x.Descends roots key n descend) :
    ∀ (members : List (Text × Value ν)) (seen : Seen δ), (∀ m ∈ members, m.2.Below n) →
      (∀ m ∈ members, x.Reads roots m.2) →
      ∃ visited found inner after, x.walkMembers descend key members seen = some (found, after) ∧
        found.Perm (valuesOf key members ++ inner) ∧
        x.Explores roots key seen visited inner after ∧ ∀ m ∈ members, x.Marked after m.2
  | [], seen, _, _ => ⟨[], [], [], seen, rfl, .refl _, .refl seen, nofun⟩
  | (k, value) :: rest, seen, hbelow, hreads => by
    have hbelow' := hbelow (k, value) List.mem_cons_self
    have hreads' := hreads (k, value) List.mem_cons_self
    obtain ⟨visited, found, mid, hwalk, hex, hmarked⟩ := walk_explores hd value seen hbelow' hreads'
    obtain ⟨visited', again, mid', hretry, hex'⟩ := retry_explores hd mid hbelow' hreads'
    obtain ⟨others, more, inner, after, hrest, hperm, hex'', hmarked'⟩ :=
      walkMembers_explores hd rest mid' (fun m hm ↦ hbelow m (List.mem_cons_of_mem _ hm))
        (fun m hm ↦ hreads m (List.mem_cons_of_mem _ hm))
    refine ⟨_, (if k = key then [value] else []) ++ found ++ again ++ more, _, after, ?_, ?_,
      (hex.trans hex').trans hex'', fun m hm ↦ ?_⟩
    · rw [walkMembers, hwalk]
      simp only [Option.bind_eq_bind, Option.bind_some, hretry, hrest]
    · rw [valuesOf_cons, List.append_assoc, List.append_assoc, List.append_assoc,
        ← List.append_assoc found again]
      exact ((hperm.append_left _).trans (List.perm_append_comm_assoc _ _ _)).append_left _
    · rcases List.mem_cons.mp hm with rfl | hm
      · exact hmarked.mono (hex'.trans hex'').grown
      · exact hmarked' m hm

end

omit [DecidableEq δ] in
/-- A text is skipped because it was tried or cannot hold an object, or it is parsed. -/
theorem tryParse_cases (x : Extractor ν δ) (text : Text) (seen : Seen δ) :
    (x.tryParse text seen = (none, seen) ∧ Tried seen text) ∨
      (x.tryParse text seen = (x.read text, seen.addText (clean text)) ∧
        x.read text = x.parseTurns maxDepth (clean text)) := by
  rw [tryParse, read]
  by_cases hcolon : (clean text).contains ':' = true
  · by_cases hknown : seen.jsonTexts.contains (clean text) = true
    · refine .inl ⟨if_pos (by rw [hknown, Bool.or_true]), fun _ ↦ List.contains_iff_mem.mp hknown⟩
    · refine .inr ⟨?_, if_pos hcolon⟩
      rw [if_pos hcolon, if_neg (by rw [hcolon]; simpa using hknown)]
  · refine .inl ⟨if_pos ?_, fun h ↦ absurd h hcolon⟩
    rw [Bool.not_eq_true] at hcolon
    rw [hcolon]
    rfl

/-- Enough fuel: the strings in a parsed text are shorter than the text. -/
theorem descends (x : Extractor ν δ) (roots : List Text) (key : Text) (fuel : Nat) :
    x.Descends roots key fuel (x.descend key fuel) := by
  induction fuel with
  | zero => exact fun text _ h ↦ absurd h (Nat.not_lt_zero _)
  | succ fuel ih =>
    intro text seen hlt hreads
    rcases tryParse_cases x text seen with ⟨htry, htried⟩ | ⟨htry, hread⟩
    · refine ⟨[], [], seen, ?_, .refl seen, htried⟩
      rw [descend, htry]
    · cases hvalue : x.read text with
      | none =>
        refine ⟨[], [], _, ?_, .text (.refl _) fun value h ↦ ?_, fun _ ↦ List.mem_cons_self⟩
        · rw [descend, htry, hvalue]
        · rw [← hread, hvalue] at h
          cases h
      | some value =>
        have honly : ∀ {other}, x.parseTurns maxDepth (clean text) = some other → other = value :=
          fun h ↦ Option.some.inj ((hread.trans h).symm.trans hvalue)
        by_cases htruthy : x.truthy value = true
        · obtain ⟨visited, found, after, hwalk, hex, hmarked⟩ :=
            walk_explores ih value (seen.addText (clean text))
              ((read_spec hvalue).2.mono (Nat.le_of_lt_succ hlt)) (hreads.parsed hvalue)
          refine ⟨visited, found, after, ?_, hex.text fun other h _ ↦ honly h ▸ hmarked,
            fun _ ↦ hex.grown.texts List.mem_cons_self⟩
          rw [descend, htry, hvalue]
          exact (if_pos htruthy).trans hwalk
        · refine ⟨[], [], _, ?_, .text (.refl _) fun other h ht ↦ ?_, fun _ ↦ List.mem_cons_self⟩
          · rw [descend, htry, hvalue]
            exact if_neg htruthy
          · rw [honly h] at ht
            exact absurd ht htruthy

end Walk

end ScrapyCffi.JsonScan.Extractor
