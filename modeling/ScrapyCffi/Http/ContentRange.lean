import Mathlib.Init

/-!
# Header mappings and byte-range texts

Header lookup of `scrapy_cffi/core/downloader/internet/request.py:77–83` and the two
regular expressions of `scrapy_cffi/core/sessions.py:495,528–530`. Names are compared
after lowering; only ASCII names are looked up, for which the ASCII lowering below and
Python's `str.lower` select the same keys. `re.I` folds the letters of a pattern, so the
long s is accepted for `s`; digits are ASCII because the patterns spell `[0-9]`.
-/

namespace ScrapyCffi.Http

/-- A header mapping in insertion order. -/
abbrev Headers := List (String × String)

/-- `str.lower` on a header name. -/
def lower (name : String) : List Char := name.toList.map Char.toLower

/-- `find_header_key`: the first key equal to `key` up to case; `request.py:77–83`. -/
def findHeaderKey (headers : Option Headers) (key : String) : Option String :=
  match headers with
  | none => none
  | some items => (items.map Prod.fst).find? fun k ↦ lower k == lower key

/-- The value of the first field whose lowered name is `name`; `sessions.py:490–493`. -/
def field (name : String) (headers : Headers) : Option String :=
  (headers.find? fun item ↦ lower item.1 == lower name).map Prod.snd

/-- `headers[key] = value` on a mapping: an existing key keeps its position. -/
def setItem (key value : String) : Headers → Headers
  | [] => [(key, value)]
  | item :: rest =>
    if item.1 = key then (key, value) :: rest else item :: setItem key value rest

/-- The fields whose lowered name differs from `name`; `sessions.py:504–507`. -/
def without (name : String) (headers : Headers) : Headers :=
  headers.filter fun item ↦ lower item.1 != lower name

/-- Removing a name leaves no field of that name. -/
theorem field_without (name : String) (headers : Headers) :
    field name (without name headers) = none := by
  simp only [field, Option.map_eq_none_iff, List.find?_eq_none, without, List.mem_filter]
  rintro item ⟨-, h⟩
  simpa using h

/-- An appended or overwritten key is read back by name. -/
theorem field_setItem_self (key value : String) (headers : Headers)
    (h : ∀ item ∈ headers, lower item.1 ≠ lower key) :
    field key (setItem key value headers) = some value := by
  induction headers with
  | nil => simp [setItem, field]
  | cons item rest ih =>
    have hne : lower item.1 ≠ lower key := h item (by simp)
    have hkey : item.1 ≠ key := fun he ↦ hne (by rw [he])
    have hrest := ih fun other ho ↦ h other (by simp [ho])
    simp only [field, setItem, hkey, ↓reduceIte, List.find?_cons] at hrest ⊢
    have hb : (lower item.1 == lower key) = false := by simpa using hne
    rw [hb]
    exact hrest

/-- Overwriting the first key of a name replaces what that name reads. -/
theorem field_setItem_found (key value : String) (headers : Headers) (name : String)
    (hk : (headers.map Prod.fst).find? (fun k ↦ lower k == lower name) = some key) :
    field name (setItem key value headers) = some value := by
  induction headers with
  | nil => simp at hk
  | cons item rest ih =>
    simp only [List.map_cons, List.find?_cons] at hk
    by_cases hn : lower item.1 = lower name
    · have hb : (lower item.1 == lower name) = true := by simpa using hn
      simp only [hb, Option.some.injEq] at hk
      subst hk
      simp [setItem, field, hb]
    · have hb : (lower item.1 == lower name) = false := by simpa using hn
      simp only [hb] at hk
      have hkey : item.1 ≠ key := by
        intro he
        have hm := List.find?_some hk
        rw [he] at hb
        rw [hb] at hm
        cases hm
      have hrest := ih hk
      simp only [field, setItem, hkey, ↓reduceIte, List.find?_cons, hb] at hrest ⊢
      exact hrest

/-! ### Range patterns -/

/-- One letter of a pattern under `re.I`. -/
def sameLetter (p c : Char) : Bool := c.toLower == p || (p == 's' && c == 'ſ')

/-- Match a literal and return the rest of the text. -/
def literal : List Char → List Char → Option (List Char)
  | [], text => some text
  | _ :: _, [] => none
  | p :: ps, c :: text => if sameLetter p c then literal ps text else none

/-- Match `[0-9]+` and return its value as `int` reads it, with the rest of the text. -/
def digits (text : List Char) : Option (Nat × List Char) :=
  if text.takeWhile Char.isDigit = [] then none
  else some (Nat.ofDigitChars 10 (text.takeWhile Char.isDigit) 0, text.dropWhile Char.isDigit)

/-- The three groups of a matched `Content-Range`; `total` is `none` for `*`. -/
structure ContentRange where
  start : Nat
  stop : Nat
  total : Option Nat
  deriving DecidableEq, Repr

/-- `re.fullmatch(r"bytes ([0-9]+)-([0-9]+)/(\*|[0-9]+)", text, re.I)`;
`sessions.py:528–534`. -/
def matchContentRange (text : String) : Option ContentRange := do
  let text ← literal "bytes ".toList text.toList
  let (start, text) ← digits text
  let text ← literal ['-'] text
  let (stop, text) ← digits text
  let text ← literal ['/'] text
  if text = ['*'] then return ⟨start, stop, none⟩
  let (total, text) ← digits text
  if text = [] then return ⟨start, stop, some total⟩ else none

/-- `re.fullmatch(r"bytes \*/([0-9]+)", text, re.I)`; `sessions.py:495–496`. -/
def matchUnsatisfied (text : String) : Option Nat := do
  let text ← literal "bytes */".toList text.toList
  let (total, text) ← digits text
  if text = [] then return total else none

/-- The `Range` value of one request; `sessions.py:484–486`. -/
def rangeText (start stop : Nat) : String := "bytes=" ++ toString start ++ "-" ++ toString stop

/-- How a server reads one `Range` value. -/
def matchRange (text : String) : Option (Nat × Nat) := do
  let text ← literal "bytes=".toList text.toList
  let (start, text) ← digits text
  let text ← literal ['-'] text
  let (stop, text) ← digits text
  if text = [] then return (start, stop) else none

/-- The `Content-Range` of a satisfied range. -/
def contentRangeText (range : ContentRange) : String :=
  "bytes " ++ toString range.start ++ "-" ++ toString range.stop ++ "/" ++
    (range.total.map toString).getD "*"

/-- The `Content-Range` of an unsatisfied range. -/
def unsatisfiedText (total : Nat) : String := "bytes */" ++ toString total

private theorem literal_self (ps text : List Char) (h : ps.all fun p ↦ p.toLower = p) :
    literal ps (ps ++ text) = some text := by
  induction ps with
  | nil => rfl
  | cons p ps ih =>
    simp only [List.all_cons, Bool.and_eq_true, decide_eq_true_eq] at h
    have hp : sameLetter p p = true := by simp [sameLetter, h.1]
    simp only [List.cons_append, literal, hp, ↓reduceIte]
    exact ih h.2

private theorem digits_toDigits (n : Nat) (text : List Char)
    (h : text.takeWhile Char.isDigit = []) :
    digits (Nat.toDigits 10 n ++ text) = some (n, text) := by
  have hd : ∀ c ∈ Nat.toDigits 10 n, c.isDigit = true :=
    fun c hc ↦ Nat.isDigit_of_mem_toDigits (by decide) (by decide) hc
  have hdrop : text.dropWhile Char.isDigit = text := by
    simpa [h] using List.takeWhile_append_dropWhile (p := Char.isDigit) (l := text)
  simp only [digits, List.takeWhile_append_of_pos hd, List.dropWhile_append_of_pos hd, h,
    List.append_nil, hdrop, Nat.toDigits_ne_nil, ↓reduceIte, Nat.ofDigitChars_ten_toDigits]

/-- A server reads the bounds of every requested range. -/
theorem matchRange_text (start stop : Nat) :
    matchRange (rangeText start stop) = some (start, stop) := by
  have htext : (rangeText start stop).toList =
      "bytes=".toList ++ (Nat.toDigits 10 start ++ (['-'] ++ (Nat.toDigits 10 stop ++ []))) := by
    simp [rangeText]
  simp only [matchRange, htext, Option.bind_eq_bind]
  rw [literal_self _ _ (by decide), Option.bind_some, digits_toDigits _ _ (by rfl),
    Option.bind_some, literal_self _ _ (by decide), Option.bind_some,
    digits_toDigits _ _ (by rfl), Option.bind_some]
  rfl

/-- Every rendered `Content-Range` is matched with its own three groups. -/
theorem matchContentRange_text (range : ContentRange) :
    matchContentRange (contentRangeText range) = some range := by
  obtain ⟨start, stop, total⟩ := range
  have htext : (contentRangeText ⟨start, stop, total⟩).toList =
      "bytes ".toList ++ (Nat.toDigits 10 start ++ (['-'] ++ (Nat.toDigits 10 stop ++
        (['/'] ++ ((total.map toString).getD "*").toList)))) := by
    simp [contentRangeText]
  simp only [matchContentRange, htext, Option.bind_eq_bind]
  rw [literal_self _ _ (by decide), Option.bind_some, digits_toDigits _ _ (by rfl),
    Option.bind_some, literal_self _ _ (by decide), Option.bind_some,
    digits_toDigits _ _ (by rfl), Option.bind_some, literal_self _ _ (by decide),
    Option.bind_some]
  cases total with
  | none => rfl
  | some n =>
    have hne : Nat.toDigits 10 n ≠ ['*'] := by
      intro he
      have := Nat.isDigit_of_mem_toDigits (b := 10) (n := n) (c := '*') (by decide) (by decide)
        (by simp [he])
      revert this
      decide
    have hdig := digits_toDigits n [] rfl
    simp only [List.append_nil] at hdig
    simp [hne, hdig]

/-- Every rendered unsatisfied range is matched with its total. -/
theorem matchUnsatisfied_text (total : Nat) :
    matchUnsatisfied (unsatisfiedText total) = some total := by
  have htext : (unsatisfiedText total).toList =
      "bytes */".toList ++ (Nat.toDigits 10 total ++ []) := by
    simp [unsatisfiedText]
  simp only [matchUnsatisfied, htext, Option.bind_eq_bind]
  rw [literal_self _ _ (by decide), Option.bind_some, digits_toDigits _ _ (by rfl),
    Option.bind_some]
  rfl

example : matchContentRange "BYTEſ 0-1/5" = some ⟨0, 1, some 5⟩ := by decide

example : matchContentRange "bytes 0-1/5 " = none := by decide

end ScrapyCffi.Http
