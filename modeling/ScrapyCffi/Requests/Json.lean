import ScrapyCffi.Requests.Encoding
import Mathlib.Data.List.Sort

/-!
# `json.dumps`

What `json.dumps` with compact separators writes for a value, in the two ways the code calls it:
`ensure_ascii=False` in the order of the dictionaries (`utils/state_codec.py:20–24`) and ASCII
with `sort_keys=True` (`dupefilter/base.py:26`, `dupefilter/fingerprint.py:49`).
-/

namespace ScrapyCffi.Requests

open ScrapyCffi.Base

variable {φ : Type} [PyFloat φ]

/-- The text of a number. -/
def numeralText (n : Numeral) : String := String.ofList (n.head :: n.tail)

/-- The string a dictionary key is written as. -/
def Value.keyText : Value φ → Option String
  | .str s => some s
  | .none => some "null"
  | .bool true => some "true"
  | .bool false => some "false"
  | .int n => some (numeralText (.ofInt n))
  | .float x => some (numeralText (PyFloat.repr x))
  | _ => Option.none

mutual

/-- The JSON a value is written as, or none where `json.dumps` raises `TypeError`. -/
def Value.toJson : Value φ → Option Json
  | .none => some .null
  | .bool b => some (.bool b)
  | .int n => some (.number (.ofInt n))
  | .float x => some (.number (PyFloat.repr x))
  | .str s => some (.string s)
  | .bytes _ => Option.none
  | .msg _ => Option.none
  | .function _ => Option.none
  | .list items => (itemsJson items).map .array
  | .tuple items => (itemsJson items).map .array
  | .dict entries => (entriesJson entries).map .object
  termination_by structural v => v

/-- The JSON of each item. -/
def itemsJson : List (Value φ) → Option (List Json)
  | [] => some []
  | item :: rest => do
    let json ← item.toJson
    return json :: (← itemsJson rest)
  termination_by structural l => l

/-- The JSON of each entry. -/
def entriesJson : List (Value φ × Value φ) → Option (List (String × Json))
  | [] => some []
  | (key, value) :: rest => do
    let name ← key.keyText
    let json ← value.toJson
    return (name, json) :: (← entriesJson rest)
  termination_by structural l => l

end

/-! ## Sorted keys -/

/-- The number a value is compared as. -/
def Value.number : Value φ → Option (Int ⊕ φ)
  | .bool b => some (.inl b.toNat)
  | .int n => some (.inl n)
  | .float x => some (.inr x)
  | _ => Option.none

/-- How two numbers compare; other operands raise `TypeError`. -/
def compareNumbers (a b : Value φ) : Except PyError (Option Ordering) :=
  match a.number, b.number with
  | some (.inl m), some (.inl n) => .ok (some (compare m n))
  | some (.inl m), some (.inr y) => .ok ((PyFloat.compareInt y m).map Ordering.swap)
  | some (.inr x), some (.inl n) => .ok (PyFloat.compareInt x n)
  | some (.inr x), some (.inr y) => .ok (PyFloat.compare x y)
  | _, _ => .error .typeError

/-- The order of keys. -/
def keyLe : Value φ → Value φ → Bool
  | .str s, .str t => s ≤ t
  | a, b =>
    match compareNumbers a b with
    | .ok order => order = some .lt ∨ order = some .eq
    | .error _ => false

/-- Whether `sorted` can compare the keys: all strings, all numbers, or a single one. -/
def comparable (keys : List (Value φ)) : Bool :=
  keys.all (fun key ↦ key matches .str _) || keys.all (fun key ↦ key.number.isSome) ||
    keys.length ≤ 1

/-- Entries in the order of their keys. -/
def sortEntries (entries : List (Value φ × Value φ)) : List (Value φ × Value φ) :=
  entries.insertionSort fun a b ↦ keyLe a.1 b.1 = true

mutual

/-- A value with the keys of every dictionary sorted, or none where `sorted` raises
`TypeError`. -/
def Value.sortKeys : Value φ → Option (Value φ)
  | .list items => (sortItemsKeys items).map .list
  | .tuple items => (sortItemsKeys items).map .tuple
  | .dict entries =>
    if comparable (entries.map Prod.fst) then
      (sortEntriesKeys entries).map fun sorted ↦ .dict (sortEntries sorted)
    else Option.none
  | .none => some .none
  | .bool b => some (.bool b)
  | .int n => some (.int n)
  | .float x => some (.float x)
  | .str s => some (.str s)
  | .bytes b => some (.bytes b)
  | .msg m => some (.msg m)
  | .function name => some (.function name)
  termination_by structural v => v

/-- Each item with sorted keys. -/
def sortItemsKeys : List (Value φ) → Option (List (Value φ))
  | [] => some []
  | item :: rest => do
    let sorted ← item.sortKeys
    return sorted :: (← sortItemsKeys rest)
  termination_by structural l => l

/-- Each value of a dictionary with sorted keys. -/
def sortEntriesKeys : List (Value φ × Value φ) → Option (List (Value φ × Value φ))
  | [] => some []
  | (key, value) :: rest => do
    let sorted ← value.sortKeys
    return (key, sorted) :: (← sortEntriesKeys rest)
  termination_by structural l => l

end

/-- `json.dumps(value, ensure_ascii=False, separators=(",", ":"))`. -/
def dumps (value : Value φ) : Except PyError (List Char) :=
  (value.toJson.map (Json.write false)).elim (.error .typeError) .ok

/-- `json.dumps(value, separators=(",", ":"), sort_keys=True)`. -/
def dumpsSorted (value : Value φ) : Except PyError (List Char) :=
  ((value.sortKeys.bind Value.toJson).map (Json.write true)).elim (.error .typeError) .ok

/-! ## Texts with sorted keys -/

/-- `json.dumps` with sorted keys returns the text of the JSON of the sorted value. -/
theorem dumpsSorted_eq_ok {value : Value φ} {text : List Char} :
    dumpsSorted value = .ok text ↔
      ∃ sorted json, value.sortKeys = some sorted ∧ sorted.toJson = some json ∧
        json.write true = text := by
  unfold dumpsSorted
  cases hsorted : value.sortKeys with
  | none => simp
  | some sorted =>
    cases hjson : sorted.toJson with
    | none => simp [hjson]
    | some json => simp [hjson]

/-- A text with sorted keys is ASCII. -/
theorem dumpsSorted_ascii {value : Value φ} {text : List Char} (h : dumpsSorted value = .ok text) :
    ∀ c ∈ text, c.toNat < 128 := by
  obtain ⟨_, json, -, -, rfl⟩ := dumpsSorted_eq_ok.mp h
  exact json.write_ascii

/-- Values with the same text, once their keys are sorted. -/
def JsonAlike (v w : Value φ) : Prop := ∃ text, dumpsSorted v = .ok text ∧ dumpsSorted w = .ok text

/-- Values have the same text when they have the same JSON. -/
theorem jsonAlike_iff {v w : Value φ} :
    JsonAlike v w ↔ ∃ v' w' json, v.sortKeys = some v' ∧ w.sortKeys = some w' ∧
      v'.toJson = some json ∧ w'.toJson = some json := by
  constructor
  · rintro ⟨text, hv, hw⟩
    obtain ⟨v', json, hv', hjson, rfl⟩ := dumpsSorted_eq_ok.mp hv
    obtain ⟨w', other, hw', hother, heq⟩ := dumpsSorted_eq_ok.mp hw
    rw [Json.write_inj heq] at hother
    exact ⟨v', w', json, hv', hw', hjson, hother⟩
  · rintro ⟨v', w', json, hv, hw, hv', hw'⟩
    exact ⟨_, dumpsSorted_eq_ok.mpr ⟨v', json, hv, hv', rfl⟩,
      dumpsSorted_eq_ok.mpr ⟨w', json, hw, hw', rfl⟩⟩

/-- The members of an object are those of the entries. -/
theorem mem_entriesJson {entries : List (Value φ × Value φ)} {members : List (String × Json)}
    (h : entriesJson entries = some members) (member : String × Json) :
    member ∈ members ↔
      ∃ entry ∈ entries, entry.1.keyText = some member.1 ∧ entry.2.toJson = some member.2 := by
  induction entries generalizing members with
  | nil =>
    cases h
    simp
  | cons entry rest ih =>
    simp only [entriesJson, bind, Option.bind_eq_some_iff, pure, Option.some.injEq] at h
    obtain ⟨name, hname, json, hjson, others, hothers, rfl⟩ := h
    have hhead : member = (name, json) ↔
        entry.1.keyText = some member.1 ∧ entry.2.toJson = some member.2 := by
      simp [hname, hjson, Prod.ext_iff, eq_comm]
    simp only [List.mem_cons, ih hothers, hhead, or_and_right, exists_or, exists_eq_left]

/-- Every entry of a written dictionary has a name and a JSON. -/
theorem exists_of_entriesJson {entries : List (Value φ × Value φ)} {members : List (String × Json)}
    (h : entriesJson entries = some members) :
    ∀ entry ∈ entries, ∃ name json, entry.1.keyText = some name ∧ entry.2.toJson = some json := by
  induction entries generalizing members with
  | nil => simp
  | cons entry rest ih =>
    simp only [entriesJson, bind, Option.bind_eq_some_iff, pure, Option.some.injEq] at h
    obtain ⟨name, hname, json, hjson, others, hothers, rfl⟩ := h
    exact List.forall_mem_cons.mpr ⟨⟨name, json, hname, hjson⟩, ih hothers⟩

/-- The entries with sorted values are those of the entries. -/
theorem mem_sortEntriesKeys {entries sorted : List (Value φ × Value φ)}
    (h : sortEntriesKeys entries = some sorted) (entry : Value φ × Value φ) :
    entry ∈ sorted ↔ ∃ e ∈ entries, e.1 = entry.1 ∧ e.2.sortKeys = some entry.2 := by
  induction entries generalizing sorted with
  | nil =>
    cases h
    simp
  | cons e rest ih =>
    simp only [sortEntriesKeys, bind, Option.bind_eq_some_iff, pure, Option.some.injEq] at h
    obtain ⟨first, hfirst, others, hothers, rfl⟩ := h
    have hhead : entry = (e.1, first) ↔ e.1 = entry.1 ∧ e.2.sortKeys = some entry.2 := by
      simp [hfirst, Prod.ext_iff, eq_comm]
    simp only [List.mem_cons, ih hothers, hhead, or_and_right, exists_or, exists_eq_left]

/-- Every value of a sorted dictionary can be sorted. -/
theorem exists_of_sortEntriesKeys {entries sorted : List (Value φ × Value φ)}
    (h : sortEntriesKeys entries = some sorted) :
    ∀ entry ∈ entries, ∃ value, entry.2.sortKeys = some value := by
  induction entries generalizing sorted with
  | nil => simp
  | cons e rest ih =>
    simp only [sortEntriesKeys, bind, Option.bind_eq_some_iff, pure, Option.some.injEq] at h
    obtain ⟨first, hfirst, others, hothers, rfl⟩ := h
    exact List.forall_mem_cons.mpr ⟨⟨first, hfirst⟩, ih hothers⟩

/-- The text of a dictionary with sorted keys. -/
theorem dumpsSorted_dict {entries : List (Value φ × Value φ)} {text : List Char} :
    dumpsSorted (.dict entries) = .ok text ↔
      ∃ sorted members, comparable (entries.map Prod.fst) = true ∧
        sortEntriesKeys entries = some sorted ∧ entriesJson (sortEntries sorted) = some members ∧
        (Json.object members).write true = text := by
  simp only [dumpsSorted_eq_ok, Value.sortKeys]
  constructor
  · rintro ⟨v, json, hv, hjson, rfl⟩
    split at hv
    · next hcomparable =>
      obtain ⟨sorted, hsorted, rfl⟩ := Option.map_eq_some_iff.mp hv
      rw [Value.toJson] at hjson
      obtain ⟨members, hmembers, rfl⟩ := Option.map_eq_some_iff.mp hjson
      exact ⟨sorted, members, hcomparable, hsorted, hmembers, rfl⟩
    · cases hv
  · rintro ⟨sorted, members, hcomparable, hsorted, hmembers, rfl⟩
    refine ⟨.dict (sortEntries sorted), .object members, ?_, ?_, rfl⟩
    · rw [if_pos hcomparable, hsorted, Option.map_some]
    · rw [Value.toJson, hmembers, Option.map_some]

/-- In dictionaries with the same text the values under a name have the same text. -/
theorem mem_of_dumpsSorted {entries others : List (Value φ × Value φ)} {text : List Char}
    (hentries : dumpsSorted (.dict entries) = .ok text)
    (hothers : dumpsSorted (.dict others) = .ok text) (hkeys : StringKeys others)
    {name : String} {value : Value φ} (hmem : (.str name, value) ∈ entries) :
    ∃ other, (.str name, other) ∈ others ∧ JsonAlike value other := by
  obtain ⟨sorted, members, -, hsorted, hmembers, rfl⟩ := dumpsSorted_dict.mp hentries
  obtain ⟨sorted', members', -, hsorted', hmembers', heq⟩ := dumpsSorted_dict.mp hothers
  cases Json.write_inj heq
  -- down to the member of the name
  obtain ⟨v, hv⟩ := exists_of_sortEntriesKeys hsorted _ hmem
  have hentry : (.str name, v) ∈ sortEntries sorted :=
    (List.mem_insertionSort _).mpr ((mem_sortEntriesKeys hsorted _).mpr ⟨_, hmem, rfl, hv⟩)
  obtain ⟨_, json, hname, hjson⟩ := exists_of_entriesJson hmembers _ hentry
  cases hname
  have hmember : (name, json) ∈ members :=
    (mem_entriesJson hmembers _).mpr ⟨_, hentry, rfl, hjson⟩
  -- and up to an entry of the other dictionary
  obtain ⟨⟨key, w⟩, hw, hkey, hwjson⟩ := (mem_entriesJson hmembers' _).mp hmember
  obtain ⟨⟨key', other⟩, hother, rfl, hsort⟩ :=
    (mem_sortEntriesKeys hsorted' _).mp ((List.mem_insertionSort _).mp hw)
  obtain ⟨name', hname'⟩ := hkeys _ hother
  cases hname'
  cases hkey
  exact ⟨other, hother, jsonAlike_iff.mpr ⟨v, w, json, hv, hsort, hjson, hwjson⟩⟩

/-! ## Dictionaries written alike -/

private theorem sortEntriesKeys_congr {entries others sorted : List (Value φ × Value φ)}
    (h : List.Forall₂ (fun a b ↦ a.1 = b.1 ∧ JsonAlike a.2 b.2) entries others)
    (hsorted : sortEntriesKeys entries = some sorted) :
    ∃ sorted', sortEntriesKeys others = some sorted' ∧
      List.Forall₂ (fun a b ↦ a.1 = b.1 ∧ a.2.toJson = b.2.toJson) sorted sorted' := by
  induction h generalizing sorted with
  | nil =>
    cases hsorted
    exact ⟨[], rfl, .nil⟩
  | @cons entry other rest more hentry _ ih =>
    simp only [sortEntriesKeys, bind, Option.bind_eq_some_iff, pure, Option.some.injEq] at hsorted
    obtain ⟨v, hv, tail, htail, rfl⟩ := hsorted
    obtain ⟨v', w, json, hv', hw, hjson, hwjson⟩ := jsonAlike_iff.mp hentry.2
    cases hv.symm.trans hv'
    obtain ⟨tail', htail', halike⟩ := ih htail
    refine ⟨(other.1, w) :: tail', ?_, .cons ⟨hentry.1, hjson.trans hwjson.symm⟩ halike⟩
    simp [sortEntriesKeys, hw, htail']

private theorem orderedInsert_congr {R : Value φ × Value φ → Value φ × Value φ → Prop}
    (hR : ∀ a b, R a b → a.1 = b.1) {a b : Value φ × Value φ}
    {entries others : List (Value φ × Value φ)} (hab : R a b)
    (h : List.Forall₂ R entries others) :
    List.Forall₂ R (entries.orderedInsert (fun a b ↦ keyLe a.1 b.1 = true) a)
      (others.orderedInsert (fun a b ↦ keyLe a.1 b.1 = true) b) := by
  induction h with
  | nil => exact .cons hab .nil
  | @cons entry other rest more hentry hrest ih =>
    simp only [List.orderedInsert_cons, hR a b hab, hR entry other hentry]
    split
    · exact .cons hab (.cons hentry hrest)
    · exact .cons hentry ih

private theorem sortEntries_congr {R : Value φ × Value φ → Value φ × Value φ → Prop}
    (hR : ∀ a b, R a b → a.1 = b.1) {entries others : List (Value φ × Value φ)}
    (h : List.Forall₂ R entries others) :
    List.Forall₂ R (sortEntries entries) (sortEntries others) := by
  induction h with
  | nil => exact .nil
  | cons hentry _ ih => exact orderedInsert_congr hR hentry ih

private theorem entriesJson_congr {entries others : List (Value φ × Value φ)}
    (h : List.Forall₂ (fun a b ↦ a.1 = b.1 ∧ a.2.toJson = b.2.toJson) entries others) :
    entriesJson entries = entriesJson others := by
  induction h with
  | nil => rfl
  | cons hentry _ ih => rw [entriesJson, entriesJson, hentry.1, hentry.2, ih]

private theorem keys_congr {entries others : List (Value φ × Value φ)}
    (h : List.Forall₂ (fun a b ↦ a.1 = b.1 ∧ JsonAlike a.2 b.2) entries others) :
    entries.map Prod.fst = others.map Prod.fst := by
  induction h with
  | nil => rfl
  | cons hentry _ ih => rw [List.map_cons, List.map_cons, hentry.1, ih]

/-- Dictionaries with the same keys have the same text when their values have. -/
theorem dumpsSorted_congr {entries others : List (Value φ × Value φ)} {text : List Char}
    (h : List.Forall₂ (fun a b ↦ a.1 = b.1 ∧ JsonAlike a.2 b.2) entries others)
    (htext : dumpsSorted (.dict entries) = .ok text) : dumpsSorted (.dict others) = .ok text := by
  obtain ⟨sorted, members, hcomparable, hsorted, hmembers, rfl⟩ := dumpsSorted_dict.mp htext
  obtain ⟨sorted', hsorted', halike⟩ := sortEntriesKeys_congr h hsorted
  have hkeys : entries.map Prod.fst = others.map Prod.fst := keys_congr h
  have hjson := entriesJson_congr (sortEntries_congr (fun _ _ hab ↦ hab.1) halike)
  exact dumpsSorted_dict.mpr
    ⟨sorted', members, hkeys ▸ hcomparable, hsorted', hjson ▸ hmembers, rfl⟩

/-! ## Values with a text -/

mutual

/-- A JSON tree has a text. -/
theorem Value.toJson_of_jsonTree (v : Value φ) (h : v.JsonTree) : ∃ json, v.toJson = some json := by
  match v with
  | .none | .bool _ | .int _ | .float _ | .str _ => exact ⟨_, rfl⟩
  | .list items =>
    obtain ⟨json, hjson⟩ := itemsJson_of_jsonTree items h
    exact ⟨.array json, by rw [Value.toJson, hjson, Option.map_some]⟩
  | .dict entries =>
    obtain ⟨json, hjson⟩ := entriesJson_of_jsonTree entries h.1 h.2
    exact ⟨.object json, by rw [Value.toJson, hjson, Option.map_some]⟩
  | .bytes _ => exact h.elim
  | .msg _ => exact h.elim
  | .tuple _ => exact h.elim
  | .function _ => exact h.elim

/-- JSON trees in a list have texts. -/
theorem itemsJson_of_jsonTree (items : List (Value φ))
    (h : NestedItems Value.Scalar StringKeys items) : ∃ json, itemsJson items = some json := by
  match items with
  | [] => exact ⟨[], rfl⟩
  | item :: rest =>
    obtain ⟨json, hjson⟩ := item.toJson_of_jsonTree h.1
    obtain ⟨others, hothers⟩ := itemsJson_of_jsonTree rest h.2
    exact ⟨json :: others, by rw [itemsJson, hjson, hothers]; rfl⟩

/-- JSON trees in a dictionary with string keys have texts. -/
theorem entriesJson_of_jsonTree (entries : List (Value φ × Value φ)) (hkeys : StringKeys entries)
    (h : NestedEntries Value.Scalar StringKeys entries) :
    ∃ json, entriesJson entries = some json := by
  match entries with
  | [] => exact ⟨[], rfl⟩
  | (key, value) :: rest =>
    obtain ⟨name, hname⟩ := hkeys (key, value) List.mem_cons_self
    obtain ⟨json, hjson⟩ := value.toJson_of_jsonTree h.1
    obtain ⟨others, hothers⟩ := entriesJson_of_jsonTree rest
      (fun entry he ↦ hkeys entry (List.mem_cons_of_mem _ he)) h.2
    refine ⟨(name, json) :: others, ?_⟩
    rw [entriesJson, show key = .str name from hname, hjson, hothers]
    rfl

end

end ScrapyCffi.Requests
