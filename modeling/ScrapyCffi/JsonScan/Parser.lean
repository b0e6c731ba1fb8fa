import ScrapyCffi.JsonScan.Document

/-!
# Parsing a text

`remove_json_comments` and the parsing part of `try_parse_json_recursive`
(`utils/jsonLoad.py:50–53`, `82–128`). The parsers of `orjson`, `json` and `json5` are parameters,
with the laws of their languages that the extractor relies on.
-/

namespace ScrapyCffi.JsonScan

open Relation
open ScrapyCffi.Robots (Text strip isSpace)

variable {ν δ : Type}

/-! ## Comments and escapes -/

/-- `re.sub(r'//.*?(?=\n|$)', '', text)`; the flag says that a comment is being skipped. -/
def removeLineComments : Bool → Text → Text
  | _, [] => []
  | true, '\n' :: rest => '\n' :: removeLineComments false rest
  | true, _ :: rest => removeLineComments true rest
  | false, '/' :: '/' :: rest => removeLineComments true rest
  | false, c :: rest => c :: removeLineComments false rest

/-- `*/` occurs in the text. -/
def closesComment : Text → Bool
  | '*' :: '/' :: _ => true
  | _ :: rest => closesComment rest
  | [] => false

/-- `re.sub(r'/\*.*?\*/', '', text, flags=re.S)`; the flag says that a comment is being
skipped. -/
def removeBlockComments : Bool → Text → Text
  | _, [] => []
  | true, '*' :: '/' :: rest => removeBlockComments false rest
  | true, _ :: rest => removeBlockComments true rest
  | false, '/' :: '*' :: rest =>
    if closesComment rest then removeBlockComments true rest
    -- nothing closes it, and the star opens no other comment
    else '/' :: '*' :: removeBlockComments false rest
  | false, c :: rest => c :: removeBlockComments false rest

/-- `remove_json_comments`. -/
def removeJsonComments (text : Text) : Text :=
  removeBlockComments false (removeLineComments false text)

/-- `json_str.replace(r'\"', '"')`. -/
def unescapeQuotes : Text → Text
  | '\\' :: '"' :: rest => '"' :: unescapeQuotes rest
  | c :: rest => c :: unescapeQuotes rest
  | [] => []

/-- `json_str.replace(r'\\', '\\')`. -/
def unescapeBackslashes : Text → Text
  | '\\' :: '\\' :: rest => '\\' :: unescapeBackslashes rest
  | c :: rest => c :: unescapeBackslashes rest
  | [] => []

/-- `unescaped`. -/
def unescape (text : Text) : Text := unescapeBackslashes (unescapeQuotes text)

theorem length_removeLineComments_le (skipping : Bool) (text : Text) :
    (removeLineComments skipping text).length ≤ text.length := by
  induction skipping, text using removeLineComments.induct <;>
    simp_all [removeLineComments] <;> omega

theorem length_removeBlockComments_le (skipping : Bool) (text : Text) :
    (removeBlockComments skipping text).length ≤ text.length := by
  induction skipping, text using removeBlockComments.induct <;>
    simp_all [removeBlockComments] <;> omega

theorem length_strip_le (text : Text) : (strip text).length ≤ text.length :=
  Nat.le_trans (List.rdropWhile_prefix _ _).length_le (List.dropWhile_suffix _).length_le

/-- The text a parser gets: without the space around it and without comments. -/
def clean (text : Text) : Text := removeJsonComments (strip text)

theorem length_clean_le (text : Text) : (clean text).length ≤ text.length :=
  calc (clean text).length
    _ ≤ (removeLineComments false (strip text)).length := length_removeBlockComments_le _ _
    _ ≤ (strip text).length := length_removeLineComments_le _ _
    _ ≤ text.length := length_strip_le text

theorem length_unescapeQuotes_le (text : Text) : (unescapeQuotes text).length ≤ text.length := by
  induction text using unescapeQuotes.induct <;> simp_all [unescapeQuotes]
  omega

theorem length_unescapeBackslashes_le (text : Text) :
    (unescapeBackslashes text).length ≤ text.length := by
  induction text using unescapeBackslashes.induct <;> simp_all [unescapeBackslashes]
  omega

theorem length_unescape_le (text : Text) : (unescape text).length ≤ text.length :=
  Nat.le_trans (length_unescapeBackslashes_le _) (length_unescapeQuotes_le text)

/-! ## Parsers -/

namespace Value

/-- All strings in a value are shorter than `n`. -/
def Below (n : Nat) (value : Value ν) : Prop :=
  ∀ text, Part value (.string text) → text.length < n

theorem Below.mono {m n : Nat} {value : Value ν} (h : value.Below m) (hmn : m ≤ n) :
    value.Below n := fun text hpart ↦ Nat.lt_of_lt_of_le (h text hpart) hmn

theorem Below.child {n : Nat} {value inner : Value ν} (h : value.Below n)
    (hinner : inner ∈ value.children) : inner.Below n :=
  fun text hpart ↦ h text (.head hinner hpart)

theorem Below.string {n : Nat} {text : Text} (h : (Value.string (ν := ν) text).Below n) :
    text.length < n := h text .refl

end Value

/-- A parser of a language like JSON: `none` is an exception. -/
structure Parser (ν : Type) where
  loads : Text → Option (Value ν)
  /-- A string stands between quotes in the text. -/
  below : ∀ {text doc}, loads text = some doc → doc.Below text.length
  /-- A colon stands between a name and its value. -/
  colon : ∀ {text doc members}, loads text = some doc → Value.Part doc (.object members) →
    members ≠ [] → ':' ∈ text
  /-- Space around an object or an array has no meaning. -/
  stripped : ∀ {text doc}, loads text = some doc → doc.isContainer = true →
    loads (strip text) = some doc

/-- A parser that reads one text, as an object with one scalar member. -/
def Parser.only (text key : Text) (value : Value ν) (hcolon : ':' ∈ text)
    (hstrip : strip text = text) (hscalar : value.children = [])
    (hvalue : ∀ inner, value = .string inner → inner.length < text.length) : Parser ν where
  loads t := if t = text then some (.object [(key, value)]) else none
  below := by
    intro t doc h inner hpart
    obtain ⟨rfl, hdoc⟩ := Option.ite_none_right_eq_some.mp h
    cases hdoc
    rcases hpart.cases_head with heq | ⟨child, hchild, hrest⟩
    · cases heq
    · cases List.mem_singleton.mp hchild
      rcases hrest.cases_head with heq | ⟨other, hother, -⟩
      · exact hvalue inner heq
      · rw [show (key, value).2 = value from rfl, hscalar] at hother
        cases hother
  colon := by
    intro t doc members h _ _
    rw [(Option.ite_none_right_eq_some.mp h).1]
    exact hcolon
  stripped := by
    intro t doc h _
    obtain ⟨rfl, hdoc⟩ := Option.ite_none_right_eq_some.mp h
    rw [hstrip, if_pos rfl, hdoc]

/-- `strict_level`. -/
inductive StrictLevel
  | zero
  | one
  | two

/-- `JSONExtractor` without its sets, with the parts of the libraries that it uses: the digest of
`hash_obj` and the text of `str(result)`. -/
structure Extractor (ν δ : Type) where
  strictLevel : StrictLevel
  json : Parser ν
  json5 : Parser ν
  orjson : Parser ν
  isZero : ν → Bool
  digest : Value ν → δ
  str : Value ν → Text

namespace Extractor

variable (x : Extractor ν δ)

/-- The parser that is tried first at the level. -/
def firstParser : Parser ν :=
  match x.strictLevel with
  | .two => x.orjson
  | .one => x.json
  | .zero => x.json

/-- The parsers tried after it. -/
def otherParsers : List (Parser ν) :=
  match x.strictLevel with
  | .two => []
  | .one => []
  | .zero => [x.json5]

/-- `parsers`. -/
def parsers : List (Parser ν) := x.firstParser :: x.otherParsers

/-- `bool(value)`. -/
abbrev truthy (value : Value ν) : Bool := value.truthy x.isZero

/-- The first loop over the parsers: the first result that is a container or a string. -/
def firstUsable (text : Text) : List (Parser ν) → Option (Value ν)
  | [] => none
  | parser :: rest =>
    match parser.loads text with
    | some (.array items) => some (.array items)
    | some (.object members) => some (.object members)
    | some (.string inner) => some (.string inner)
    | _ => firstUsable text rest

/-- The second loop over the parsers, with the text unescaped; `next` is the following turn. -/
def reparse (next : Text → Option (Value ν)) (text : Text) : Option (Value ν) :=
  match x.parsers.findSome? (Parser.loads · (unescape text)) with
  | none => none
  | some .null => none
  | some (.array items) => some (.array items)
  | some (.object members) => some (.object members)
  | some (.string inner) => next inner
  | some _ => next text

/-- The turns of `for _ in range(max_depth)`. -/
def parseTurns : Nat → Text → Option (Value ν)
  | 0, _ => none
  | turns + 1, text =>
    match firstUsable text x.parsers with
    | some (.array items) => some (.array items)
    | some (.object members) => some (.object members)
    | some (.string inner) => x.reparse (parseTurns turns) inner
    | _ => x.reparse (parseTurns turns) text

/-- `max_depth`. -/
def maxDepth : Nat := 5

/-- What `try_parse_json_recursive` makes of a text that it has not seen. -/
def read (text : Text) : Option (Value ν) :=
  if (clean text).contains ':' then x.parseTurns maxDepth (clean text) else none

/-! ## What is parsed -/

variable {x}

/-- A usable result is what one of the parsers reads. -/
theorem firstUsable_eq_some {text : Text} {ps : List (Parser ν)} {value : Value ν}
    (h : firstUsable text ps = some value) : ∃ parser ∈ ps, parser.loads text = some value := by
  induction ps with
  | nil => cases h
  | cons parser rest ih =>
    rw [firstUsable] at h
    split at h
    · next hloads => exact ⟨parser, List.mem_cons_self, hloads.trans h⟩
    · next hloads => exact ⟨parser, List.mem_cons_self, hloads.trans h⟩
    · next hloads => exact ⟨parser, List.mem_cons_self, hloads.trans h⟩
    · obtain ⟨other, hother, hloads⟩ := ih h
      exact ⟨other, List.mem_cons_of_mem _ hother, hloads⟩

/-- A usable container or string is shorter than the text it is read from. -/
theorem below_of_firstUsable {text : Text} {ps : List (Parser ν)} {value : Value ν}
    (h : firstUsable text ps = some value) : value.Below text.length := by
  obtain ⟨parser, -, hloads⟩ := firstUsable_eq_some h
  exact parser.below hloads

/-- What a turn makes of shorter texts decides what the second loop returns. -/
theorem reparse_spec {next : Text → Option (Value ν)} {text : Text} {value : Value ν}
    (hnext : ∀ {t v}, t.length ≤ text.length → next t = some v →
      v.isContainer = true ∧ v.Below t.length)
    (h : x.reparse next text = some value) :
    value.isContainer = true ∧ value.Below text.length := by
  have hloaded : ∀ v, x.parsers.findSome? (Parser.loads · (unescape text)) = some v →
      v.Below text.length := by
    intro v hv
    obtain ⟨parser, -, hloads⟩ := List.exists_of_findSome?_eq_some hv
    exact (parser.below hloads).mono (length_unescape_le text)
  rw [reparse] at h
  split at h
  · cases h
  · cases h
  · next hfind => cases h; exact ⟨rfl, hloaded _ hfind⟩
  · next hfind => cases h; exact ⟨rfl, hloaded _ hfind⟩
  · next inner hfind =>
    have hlt := (hloaded _ hfind).string
    obtain ⟨hcontainer, hbelow⟩ := hnext (Nat.le_of_lt hlt) h
    exact ⟨hcontainer, hbelow.mono (Nat.le_of_lt hlt)⟩
  · exact hnext (Nat.le_refl _) h

/-- The turns return a container, with strings shorter than the text. -/
theorem parseTurns_spec {turns : Nat} {text : Text} {value : Value ν}
    (h : x.parseTurns turns text = some value) :
    value.isContainer = true ∧ value.Below text.length := by
  induction turns generalizing text value with
  | zero => cases h
  | succ turns ih =>
    rw [parseTurns] at h
    split at h
    · next hfirst => cases h; exact ⟨rfl, below_of_firstUsable hfirst⟩
    · next hfirst => cases h; exact ⟨rfl, below_of_firstUsable hfirst⟩
    · next inner hfirst =>
      have hlt := (below_of_firstUsable hfirst).string
      obtain ⟨hcontainer, hbelow⟩ := reparse_spec (fun _ hv ↦ ih hv) h
      exact ⟨hcontainer, hbelow.mono (Nat.le_of_lt hlt)⟩
    · exact reparse_spec (fun _ hv ↦ ih hv) h

/-- A text that is read has a colon left in it, and the turns read it. -/
theorem read_eq_some {text : Text} {value : Value ν} (h : x.read text = some value) :
    (clean text).contains ':' = true ∧ x.parseTurns maxDepth (clean text) = some value := by
  rw [read] at h
  split at h
  · next hcolon => exact ⟨hcolon, h⟩
  · cases h

/-- What is read is a container, with strings shorter than the text. -/
theorem read_spec {text : Text} {value : Value ν} (h : x.read text = some value) :
    value.isContainer = true ∧ value.Below text.length := by
  obtain ⟨hcontainer, hbelow⟩ := parseTurns_spec (read_eq_some h).2
  exact ⟨hcontainer, hbelow.mono (length_clean_le text)⟩

/-- A container that the first parser reads is what the turns return. -/
theorem parseTurns_of_loads {turns : Nat} {text : Text} {doc : Value ν}
    (h : x.firstParser.loads text = some doc) (hcontainer : doc.isContainer = true) :
    x.parseTurns (turns + 1) text = some doc := by
  rw [parseTurns, parsers, firstUsable, h]
  cases doc with
  | array items => rfl
  | object members => rfl
  | _ => cases hcontainer

end Extractor
end ScrapyCffi.JsonScan
