import ScrapyCffi.JsonScan.Parser

/-!
# The scanner

The sets, the search, the rescue scan and `scan_text` (`utils/jsonLoad.py:82–88`, `130–271`).
A text inside a document can hold a document in turn: `fuel` bounds how deep the search follows
such texts, and `none` means that it ran out.
-/

namespace ScrapyCffi.JsonScan

open ScrapyCffi.Robots (Text strip)

variable {ν δ : Type} [DecidableEq δ]

/-- `seen_json_texts`, `seen_str_json` and `seen_obj_hashes`. -/
structure Seen (δ : Type) where
  jsonTexts : List Text
  strJson : List Text
  objHashes : List δ

namespace Seen

/-- The sets at the start of `extract`. -/
def empty : Seen δ := ⟨[], [], []⟩

/-- `self.seen_json_texts.add(json_str)`. -/
def addText (seen : Seen δ) (text : Text) : Seen δ :=
  { seen with jsonTexts := text :: seen.jsonTexts }

/-- `self.seen_str_json.add(obj)`. -/
def addString (seen : Seen δ) (text : Text) : Seen δ :=
  { seen with strJson := text :: seen.strJson }

/-- `self.seen_obj_hashes.add(obj_hash)`. -/
def addHash (seen : Seen δ) (digest : δ) : Seen δ :=
  { seen with objHashes := digest :: seen.objHashes }

end Seen

/-- What a search returns: the matches and the sets after it. -/
abbrev Found (ν δ : Type) := List (Value ν) × Seen δ

namespace Extractor

variable (x : Extractor ν δ)

/-- `try_parse_json_recursive`. -/
def tryParse (text : Text) (seen : Seen δ) : Option (Value ν) × Seen δ :=
  if !(clean text).contains ':' || seen.jsonTexts.contains (clean text) then (none, seen)
  else (x.parseTurns maxDepth (clean text), seen.addText (clean text))

/-! ## The search -/

/-- `"{" in v and "}" in v`. -/
def hasBraces (text : Text) : Bool := text.contains '\x7b' && text.contains '\x7d'

/-- The second try at a string that is the value of a member. -/
def retry (descend : Text → Seen δ → Option (Found ν δ)) (value : Value ν) (seen : Seen δ) :
    Option (Found ν δ) :=
  match value with
  | .string text => if hasBraces text then descend text seen else some ([], seen)
  | _ => some ([], seen)

mutual

/-- `find_key_recursively`; `descend` parses a string and searches what it holds. -/
def walk (descend : Text → Seen δ → Option (Found ν δ)) (key : Text) :
    Value ν → Seen δ → Option (Found ν δ)
  | .array items, seen =>
    if seen.objHashes.contains (x.digest (.array items)) then some ([], seen)
    else walkItems descend key items (seen.addHash (x.digest (.array items)))
  | .object members, seen =>
    if seen.objHashes.contains (x.digest (.object members)) then some ([], seen)
    else do
      let (found, seen) ←
        walkMembers descend key members (seen.addHash (x.digest (.object members)))
      some ((if key.isEmpty then [.object members] else []) ++ found, seen)
  | .string text, seen =>
    if seen.strJson.contains text then some ([], seen) else descend text (seen.addString text)
  | _, seen => some ([], seen)

/-- The loop over the items of an array. -/
def walkItems (descend : Text → Seen δ → Option (Found ν δ)) (key : Text) :
    List (Value ν) → Seen δ → Option (Found ν δ)
  | [], seen => some ([], seen)
  | item :: rest, seen => do
    let (found, seen) ← walk descend key item seen
    let (more, seen) ← walkItems descend key rest seen
    some (found ++ more, seen)

/-- The loop over the members of an object. -/
def walkMembers (descend : Text → Seen δ → Option (Found ν δ)) (key : Text) :
    List (Text × Value ν) → Seen δ → Option (Found ν δ)
  | [], seen => some ([], seen)
  | (k, value) :: rest, seen => do
    let (found, seen) ← walk descend key value seen
    let (again, seen) ← retry descend value seen
    let (more, seen) ← walkMembers descend key rest seen
    some ((if k = key then [value] else []) ++ found ++ again ++ more, seen)

end

/-- `parsed = self.try_parse_json_recursive(text)`, and the search in what is parsed unless it is
falsy. -/
def descend (key : Text) : Nat → Text → Seen δ → Option (Found ν δ)
  | 0, _, _ => none
  | fuel + 1, text, seen =>
    match x.tryParse text seen with
    | (none, seen) => some ([], seen)
    | (some parsed, seen) =>
      if x.truthy parsed then x.walk (descend key fuel) key parsed seen else some ([], seen)

/-! ## The rescue -/

/-- The candidates of `find_brace_pairs_safe`, each `\x7b` paired with its `\x7d`: the stack holds
what follows the open ones, `rest` what is still to be read. -/
def bracePairs : List Text → Text → List Text
  | _, [] => []
  | stack, c :: rest =>
    if c = '\x7b' then bracePairs ((c :: rest) :: stack) rest
    else if c = '\x7d' then
      match stack with
      | [] => bracePairs [] rest
      | start :: stack => start.take (start.length - rest.length) :: bracePairs stack rest
    else bracePairs stack rest

/-- `find_brace_pairs_safe` on its candidates. -/
def parseAll : List Text → Seen δ → List (Value ν) × Seen δ
  | [], seen => ([], seen)
  | candidate :: rest, seen =>
    let (parsed, seen) := x.tryParse candidate seen
    let (objects, seen) := parseAll rest seen
    (parsed.toList ++ objects, seen)

/-- `pack`: a single match itself, or the list of the matches. -/
def pack : List (Value ν) → Value ν
  | [value] => value
  | values => .array values

/-- `extract` without a rule. -/
def extract (fuel : Nat) (key text : Text) : Option (Value ν) := do
  let (found, seen) ← x.descend key fuel text .empty
  if !found.isEmpty then some (pack found)
  else
    let (objects, seen) := x.parseAll (bracePairs [] text) seen
    if key.isEmpty then some (.array objects)
    else
      let (found, _) ← x.walkItems (x.descend key fuel) key objects seen
      some (pack found)

/-! ## `scan_text` -/

/-- The exceptions that can leave `scan_text`. -/
inductive PyError
  | attributeError
  | typeError

/-- `results.extend(inner_res)` or `results.append(inner_res)`, unless `inner_res` is `None`. -/
def addResult (results inner : Value ν) : Except PyError (Value ν) :=
  match inner, results with
  | .null, results => .ok results
  | .array items, .array old => .ok (.array (old ++ items))
  | value, .array old => .ok (.array (old ++ [value]))
  | _, _ => .error .attributeError

/-- The texts directly in a container, as they are met. -/
def childTexts (value : Value ν) : List Text :=
  value.children.filterMap fun
    | .string text => some text
    | _ => none

/-- The containers directly in a container, the last one first. -/
def pushed (value : Value ν) : List (Value ν) := (value.children.filter Value.isContainer).reverse

/-- The texts of one container, each searched by `inner`. -/
def gather (inner : Text → Option (Value ν)) :
    List Text → Value ν → Option (Except PyError (Value ν))
  | [], results => some (.ok results)
  | text :: rest, results => do
    let found ← inner text
    match addResult results found with
    | .error e => some (.error e)
    | .ok results => gather inner rest results

/-- The values in a container take less space than the container. -/
theorem sum_sizeOf_children_lt (value : Value ν) :
    (value.children.map sizeOf).sum < sizeOf value := by
  cases value with
  | array items =>
    have h : (items.map sizeOf).sum ≤ sizeOf items := by
      induction items with
      | nil => exact Nat.zero_le _
      | cons item rest ih =>
        rw [List.map_cons, List.sum_cons, List.cons.sizeOf_spec]
        omega
    rw [Value.children, Value.array.sizeOf_spec]
    omega
  | object members =>
    have h : ((members.map Prod.snd).map sizeOf).sum ≤ sizeOf members := by
      induction members with
      | nil => exact Nat.zero_le _
      | cons m rest ih =>
        have hm : sizeOf m = 1 + sizeOf m.1 + sizeOf m.2 := Prod.mk.sizeOf_spec m.1 m.2
        rw [List.map_cons, List.map_cons, List.sum_cons, List.cons.sizeOf_spec]
        omega
    rw [Value.children, Value.object.sizeOf_spec]
    omega
  | _ => simp [Value.children]

theorem sum_map_filter_le {α : Type} (f : α → Nat) (p : α → Bool) (l : List α) :
    ((l.filter p).map f).sum ≤ (l.map f).sum := by
  induction l with
  | nil => exact Nat.le_refl _
  | cons a rest ih =>
    rw [List.filter_cons, List.map_cons, List.sum_cons]
    split
    · rw [List.map_cons, List.sum_cons]
      omega
    · omega

theorem sum_sizeOf_pushed_lt (value : Value ν) : ((pushed value).map sizeOf).sum < sizeOf value :=
  calc ((pushed value).map sizeOf).sum
    _ = ((value.children.filter Value.isContainer).map sizeOf).sum := by
      rw [pushed, List.map_reverse, List.sum_reverse]
    _ ≤ (value.children.map sizeOf).sum := sum_map_filter_le sizeOf _ _
    _ < sizeOf value := sum_sizeOf_children_lt value

/-- The loop over the stack of `scan_text`, whose top comes first. -/
def rescan (inner : Text → Option (Value ν)) :
    List (Value ν) → Value ν → Option (Except PyError (Value ν))
  | [], results => some (.ok results)
  | current :: stack, results =>
    match gather inner (childTexts current) results with
    | none => none
    | some (.error e) => some (.error e)
    | some (.ok results) => rescan inner (pushed current ++ stack) results
  termination_by stack => (stack.map sizeOf).sum
  decreasing_by
    have h := sum_sizeOf_pushed_lt current
    simp only [List.map_append, List.sum_append, List.map_cons, List.sum_cons]
    omega

/-- What `for r in results` goes through. -/
def iterate : Value ν → Except PyError (List (Value ν))
  | .array items => .ok items
  | .object members => .ok (members.map fun m ↦ .string m.1)
  | .string text => .ok (text.map fun c ↦ .string [c])
  | _ => .error .typeError

/-- The parser of the level for a result that is a text. -/
def resultParser : Parser ν :=
  match x.strictLevel with
  | .two => x.orjson
  | .one => x.json
  | .zero => x.json5

/-- A result that is the text of an object is replaced by what the parser makes of it. -/
def parseResult (result : Value ν) : Value ν :=
  match result with
  | .string text =>
    if text.contains ':' && (strip text).head? == some '{' then
      (x.resultParser.loads text).getD result
    else result
  | _ => result

/-- The loop that keeps the results whose `str` is new. -/
def distinct : List Text → List (Value ν) → List (Value ν)
  | _, [] => []
  | seen, result :: rest =>
    let result := x.parseResult result
    if seen.contains (x.str result) then distinct seen rest
    else result :: distinct (x.str result :: seen) rest

/-- The end of `scan_text`: the first of the distinct results, or the empty list of them. -/
def finish (results : Value ν) : Except PyError (Value ν) := do
  let results ← iterate results
  pure ((x.distinct [] results).head?.getD (.array []))

/-- `scan_text` without a rule. -/
def scanText (fuel : Nat) (text key : Text) : Option (Except PyError (Value ν)) := do
  let results ← x.extract fuel key text
  if x.truthy results then some (.ok results)
  else
    let top ← x.extract fuel [] text
    if x.truthy top then
      let gathered ←
        rescan (x.extract fuel key) (if top.isContainer then [top] else []) results
      some (gathered.bind x.finish)
    else some (.ok (.array []))

end Extractor
end ScrapyCffi.JsonScan
