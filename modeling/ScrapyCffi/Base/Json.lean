import Mathlib.Data.List.Basic

/-!
# JSON text

A tree of JSON values and the text a compact writer makes of it: no blanks between tokens,
short escapes, `\uXXXX` for control characters and, on request, for everything beyond ASCII.
The text is self-delimiting, so what precedes another text can be read back from the whole.
-/

namespace ScrapyCffi.Base

/-- The characters a numeral starts with. -/
def numeralStarts : List Char := "0123456789-NI".toList

/-- The characters a numeral goes on with. -/
def numeralChars : List Char := "0123456789+-.eNaInfity".toList

/-- The text of a number. -/
structure Numeral where
  head : Char
  tail : List Char
  head_mem : head ∈ numeralStarts
  tail_mem : ∀ c ∈ tail, c ∈ numeralChars

/-- A value of a JSON text. -/
inductive Json
  | null
  | bool (b : Bool)
  | number (n : Numeral)
  | string (s : String)
  | array (items : List Json)
  | object (members : List (String × Json))

/-- The characters with an escape of two characters, and the second of the two. -/
def shortEscapes : List (Char × Char) :=
  [('"', '"'), ('\\', '\\'), ('\n', 'n'), ('\r', 'r'), ('\t', 't'), (Char.ofNat 12, 'f'),
    (Char.ofNat 8, 'b')]

/-- The letter of the short escape of a character. -/
def shortEscape (c : Char) : Option Char := shortEscapes.lookup c

/-- Four hexadecimal digits. -/
def hex4 (n : Nat) : List Char :=
  [(n / 4096 % 16).digitChar, (n / 256 % 16).digitChar, (n / 16 % 16).digitChar,
    (n % 16).digitChar]

/-- `\uXXXX`, or a pair of them for a character beyond the basic plane. -/
def unicodeEscape (n : Nat) : List Char :=
  if n < 65536 then '\\' :: 'u' :: hex4 n
  else '\\' :: 'u' :: (hex4 (55296 + (n - 65536) / 1024) ++
    '\\' :: 'u' :: hex4 (56320 + (n - 65536) % 1024))

/-- What stands for a character between quotes. -/
def escape (ascii : Bool) (c : Char) : List Char :=
  match shortEscape c with
  | some letter => ['\\', letter]
  | none => if c.toNat < 32 ∨ (ascii = true ∧ 126 < c.toNat) then unicodeEscape c.toNat else [c]

/-- A string between quotes. -/
def quote (ascii : Bool) (s : String) : List Char :=
  '"' :: (s.toList.flatMap (escape ascii) ++ ['"'])

mutual

/-- The text of a value. -/
def Json.write (ascii : Bool) : Json → List Char
  | .null => "null".toList
  | .bool true => "true".toList
  | .bool false => "false".toList
  | .number n => n.head :: n.tail
  | .string s => quote ascii s
  | .array [] => ['[', ']']
  | .array (item :: rest) => '[' :: (item.write ascii ++ Json.writeItems ascii rest)
  | .object [] => ['{', '}']
  | .object ((key, value) :: rest) =>
    '{' :: (quote ascii key ++ ':' :: (value.write ascii ++ Json.writeMembers ascii rest))
  termination_by structural j => j

/-- The rest of an array after one of its items. -/
def Json.writeItems (ascii : Bool) : List Json → List Char
  | [] => [']']
  | item :: rest => ',' :: (item.write ascii ++ Json.writeItems ascii rest)
  termination_by structural l => l

/-- The rest of an object after one of its members. -/
def Json.writeMembers (ascii : Bool) : List (String × Json) → List Char
  | [] => ['}']
  | (key, value) :: rest =>
    ',' :: (quote ascii key ++ ':' :: (value.write ascii ++ Json.writeMembers ascii rest))
  termination_by structural l => l

end

/-! ## Reading a string back -/

private theorem digitChar_inj {m n : Nat} (hm : m < 16) (hn : n < 16)
    (h : m.digitChar = n.digitChar) : m = n := by
  have key : ∀ a < 16, ∀ b < 16, a.digitChar = b.digitChar → a = b := by decide
  exact key m hm n hn h

/-- Four digits hold 16 bits. -/
theorem hex4_append_inj {m n : Nat} {x y : List Char} (hm : m < 65536) (hn : n < 65536)
    (h : hex4 m ++ x = hex4 n ++ y) : m = n ∧ x = y := by
  simp only [hex4, List.cons_append, List.nil_append, List.cons.injEq] at h
  obtain ⟨h3, h2, h1, h0, hxy⟩ := h
  have d3 := digitChar_inj (by omega) (by omega) h3
  have d2 := digitChar_inj (by omega) (by omega) h2
  have d1 := digitChar_inj (by omega) (by omega) h1
  have d0 := digitChar_inj (by omega) (by omega) h0
  exact ⟨by omega, hxy⟩

/-- A character is no surrogate. -/
theorem toNat_not_surrogate (c : Char) :
    c.toNat < 55296 ∨ 57343 < c.toNat ∧ c.toNat < 1114112 := c.valid

/-- A `\u` escape is read back with what follows it. -/
theorem unicodeEscape_append_inj {a b : Char} {x y : List Char}
    (h : unicodeEscape a.toNat ++ x = unicodeEscape b.toNat ++ y) : a = b ∧ x = y := by
  have ha := toNat_not_surrogate a
  have hb := toNat_not_surrogate b
  rw [← Char.toNat_inj]
  unfold unicodeEscape at h
  split at h <;> split at h <;>
    simp only [List.cons_append, List.append_assoc, List.cons.injEq, true_and] at h
  · exact hex4_append_inj (by omega) (by omega) h
  · obtain ⟨heq, -⟩ := hex4_append_inj (by omega) (by omega) h
    omega
  · obtain ⟨heq, -⟩ := hex4_append_inj (by omega) (by omega) h
    omega
  · obtain ⟨high, hrest⟩ := hex4_append_inj (by omega) (by omega) h
    simp only [List.cons.injEq, true_and] at hrest
    obtain ⟨low, hxy⟩ := hex4_append_inj (by omega) (by omega) hrest
    exact ⟨by omega, hxy⟩

/-- A short escape stands in the table. -/
theorem mem_of_shortEscape {c letter : Char} (h : shortEscape c = some letter) :
    (c, letter) ∈ shortEscapes := by
  obtain ⟨before, after, heq, -⟩ := List.lookup_eq_some_iff.mp h
  rw [heq]
  simp

/-- The letter of a short escape tells the character, and is not the `u` of a long one. -/
theorem shortEscape_inj {a b letter : Char} (ha : shortEscape a = some letter)
    (hb : shortEscape b = some letter) : a = b := by
  have key : ∀ p ∈ shortEscapes, ∀ q ∈ shortEscapes, p.2 = q.2 → p.1 = q.1 := by decide
  exact key _ (mem_of_shortEscape ha) _ (mem_of_shortEscape hb) rfl

/-- The letter of a `\u` escape is none of a short one. -/
theorem shortEscape_ne_u (c : Char) : shortEscape c ≠ some 'u' := by
  have key : ∀ p ∈ shortEscapes, p.2 ≠ 'u' := by decide
  intro h
  exact key _ (mem_of_shortEscape h) rfl

/-- A character written as it is is neither a backslash nor a quote. -/
theorem ne_of_shortEscape_eq_none {c : Char} (h : shortEscape c = none) : c ≠ '\\' ∧ c ≠ '"' := by
  constructor
  · rintro rfl
    revert h
    decide
  · rintro rfl
    revert h
    decide

/-- A long escape starts with a backslash and a `u`. -/
theorem unicodeEscape_head (n : Nat) : ∃ rest, unicodeEscape n = '\\' :: 'u' :: rest := by
  unfold unicodeEscape
  split
  · exact ⟨_, rfl⟩
  · exact ⟨_, rfl⟩

/-- An escape is a short one, a long one or the character itself. -/
theorem escape_cases (ascii : Bool) (c : Char) :
    (∃ letter, shortEscape c = some letter ∧ escape ascii c = ['\\', letter]) ∨
      escape ascii c = unicodeEscape c.toNat ∨ shortEscape c = none ∧ escape ascii c = [c] := by
  unfold escape
  cases h : shortEscape c with
  | some letter => exact .inl ⟨letter, rfl, rfl⟩
  | none =>
    dsimp only
    split
    · exact .inr (.inl rfl)
    · exact .inr (.inr ⟨rfl, rfl⟩)

/-- An escape is read back with what follows it. -/
theorem escape_append_inj {ascii : Bool} {a b : Char} {x y : List Char}
    (h : escape ascii a ++ x = escape ascii b ++ y) : a = b ∧ x = y := by
  obtain ⟨ra, hra⟩ := unicodeEscape_head a.toNat
  obtain ⟨rb, hrb⟩ := unicodeEscape_head b.toNat
  rcases escape_cases ascii a with ⟨la, hsa, hea⟩ | hea | ⟨hsa, hea⟩ <;>
    rcases escape_cases ascii b with ⟨lb, hsb, heb⟩ | heb | ⟨hsb, heb⟩ <;> rw [hea, heb] at h
  · simp only [List.cons_append, List.nil_append, List.cons.injEq, true_and] at h
    obtain ⟨rfl, rfl⟩ := h
    exact ⟨shortEscape_inj hsa hsb, rfl⟩
  · rw [hrb] at h
    simp only [List.cons_append, List.cons.injEq, true_and] at h
    exact absurd (h.1 ▸ hsa) (shortEscape_ne_u a)
  · simp only [List.cons_append, List.cons.injEq] at h
    exact absurd h.1.symm (ne_of_shortEscape_eq_none hsb).1
  · rw [hra] at h
    simp only [List.cons_append, List.cons.injEq, true_and] at h
    exact absurd (h.1 ▸ hsb) (shortEscape_ne_u b)
  · exact unicodeEscape_append_inj h
  · rw [hra] at h
    simp only [List.cons_append, List.cons.injEq] at h
    exact absurd h.1.symm (ne_of_shortEscape_eq_none hsb).1
  · simp only [List.cons_append, List.cons.injEq] at h
    exact absurd h.1 (ne_of_shortEscape_eq_none hsa).1
  · rw [hrb] at h
    simp only [List.cons_append, List.cons.injEq] at h
    exact absurd h.1 (ne_of_shortEscape_eq_none hsa).1
  · simpa using h

/-- No escape starts with a quote. -/
theorem escape_ne_quote {ascii : Bool} {c : Char} {x y : List Char} :
    escape ascii c ++ x ≠ '"' :: y := by
  intro h
  rcases escape_cases ascii c with ⟨letter, -, he⟩ | he | ⟨hs, he⟩
  · simp [he] at h
  · obtain ⟨rest, hrest⟩ := unicodeEscape_head c.toNat
    simp [he, hrest] at h
  · rw [he, List.cons_append, List.cons.injEq] at h
    exact (ne_of_shortEscape_eq_none hs).2 h.1

private theorem chars_append_inj {ascii : Bool} {s t : List Char} {x y : List Char}
    (h : s.flatMap (escape ascii) ++ '"' :: x = t.flatMap (escape ascii) ++ '"' :: y) :
    s = t ∧ x = y := by
  induction s generalizing t with
  | nil =>
    cases t with
    | nil => simpa using h
    | cons c rest =>
      rw [List.flatMap_cons, List.append_assoc] at h
      exact absurd h.symm escape_ne_quote
  | cons c rest ih =>
    cases t with
    | nil =>
      rw [List.flatMap_cons, List.append_assoc] at h
      exact absurd h escape_ne_quote
    | cons d others =>
      rw [List.flatMap_cons, List.flatMap_cons, List.append_assoc, List.append_assoc] at h
      obtain ⟨rfl, hrest⟩ := escape_append_inj h
      obtain ⟨rfl, hxy⟩ := ih hrest
      exact ⟨rfl, hxy⟩

/-- A quoted string is read back with what follows it. -/
theorem quote_append_inj {ascii : Bool} {s t : String} {x y : List Char}
    (h : quote ascii s ++ x = quote ascii t ++ y) : s = t ∧ x = y := by
  simp only [quote, List.cons_append, List.append_assoc, List.nil_append, List.cons.injEq,
    true_and] at h
  obtain ⟨hst, hxy⟩ := chars_append_inj h
  exact ⟨String.toList_inj.mp hst, hxy⟩

/-! ## Reading a value back -/

/-- A text that does not go on a numeral. -/
def Stops (x : List Char) : Prop := ∀ c ∈ x.head?, c ∉ numeralChars

/-- A text stops a numeral when its first character is none of one. -/
theorem stops_cons {c : Char} {x : List Char} (h : c ∉ numeralChars) : Stops (c :: x) := by
  intro d hd
  cases hd
  exact h

/-- The end of a text stops a numeral. -/
theorem stops_nil : Stops [] := by
  intro c hc
  cases hc

theorem takeWhile_numeral {tail x : List Char} (htail : ∀ c ∈ tail, c ∈ numeralChars)
    (hx : Stops x) : (tail ++ x).takeWhile (· ∈ numeralChars) = tail := by
  rw [List.takeWhile_append_of_pos (by simpa using htail)]
  cases x with
  | nil => simp
  | cons c rest => rw [List.takeWhile_cons_of_neg (by simpa using hx c rfl), List.append_nil]

/-- A numeral is read back with what follows it. -/
theorem Numeral.append_inj {m n : Numeral} {x y : List Char} (hx : Stops x) (hy : Stops y)
    (h : (m.head :: m.tail) ++ x = (n.head :: n.tail) ++ y) : m = n ∧ x = y := by
  rw [List.cons_append, List.cons_append, List.cons.injEq] at h
  obtain ⟨hhead, hrest⟩ := h
  have htail : m.tail = n.tail := by
    rw [← takeWhile_numeral m.tail_mem hx, hrest, takeWhile_numeral n.tail_mem hy]
  cases m
  cases n
  subst hhead htail
  exact ⟨rfl, List.append_cancel_left hrest⟩

/-- The seven ways a value can start. -/
def Json.kind : Json → Nat
  | .null => 0
  | .bool true => 1
  | .bool false => 2
  | .string _ => 3
  | .array _ => 4
  | .object _ => 5
  | .number _ => 6

/-- What a first character announces. -/
def leadKind (c : Char) : Nat :=
  if c = 'n' then 0
  else if c = 't' then 1
  else if c = 'f' then 2
  else if c = '"' then 3
  else if c = '[' then 4
  else if c = '{' then 5
  else if c ∈ numeralStarts then 6
  else 7

/-- The first character of a text tells the kind of its value. -/
theorem Json.write_eq_cons (ascii : Bool) (j : Json) :
    ∃ c rest, j.write ascii = c :: rest ∧ leadKind c = j.kind := by
  cases j with
  | null => exact ⟨_, _, rfl, rfl⟩
  | bool b => cases b <;> exact ⟨_, _, rfl, rfl⟩
  | number n =>
    have key : ∀ c ∈ numeralStarts, leadKind c = 6 := List.forall_iff_forall_mem.mp (by decide)
    exact ⟨_, _, rfl, key _ n.head_mem⟩
  | string s => exact ⟨_, _, rfl, rfl⟩
  | array items => cases items <;> exact ⟨_, _, rfl, rfl⟩
  | object members => cases members <;> exact ⟨_, _, rfl, rfl⟩

/-- What a value of each kind is. -/
theorem Json.exists_of_kind (k : Json) :
    match k.kind with
    | 0 => k = .null
    | 1 => k = .bool true
    | 2 => k = .bool false
    | 3 => ∃ s, k = .string s
    | 4 => ∃ items, k = .array items
    | 5 => ∃ members, k = .object members
    | _ => ∃ n, k = .number n := by
  cases k with
  | null => rfl
  | bool b => cases b <;> rfl
  | number n => exact ⟨n, rfl⟩
  | string s => exact ⟨s, rfl⟩
  | array items => exact ⟨items, rfl⟩
  | object members => exact ⟨members, rfl⟩

/-- No value starts like the end of an array. -/
theorem Json.write_ne_bracket {ascii : Bool} {j : Json} {x y : List Char} :
    j.write ascii ++ x ≠ ']' :: y := by
  intro h
  obtain ⟨c, rest, hj, hc⟩ := j.write_eq_cons ascii
  rw [hj, List.cons_append, List.cons.injEq] at h
  rw [h.1] at hc
  have hlead : leadKind ']' = 7 := by decide
  have hle : j.kind ≤ 6 := by
    unfold kind
    split <;> omega
  omega

/-- Texts that agree are of values of one kind. -/
theorem Json.kind_eq_of_write_append_eq {ascii : Bool} {j k : Json} {x y : List Char}
    (h : j.write ascii ++ x = k.write ascii ++ y) : j.kind = k.kind := by
  obtain ⟨c, rest, hj, hc⟩ := j.write_eq_cons ascii
  obtain ⟨d, others, hk, hd⟩ := k.write_eq_cons ascii
  rw [hj, hk, List.cons_append, List.cons_append, List.cons.injEq] at h
  rw [← hc, ← hd, h.1]

/-- The text after an item stops a numeral. -/
theorem Json.stops_writeItems (ascii : Bool) (items : List Json) (x : List Char) :
    Stops (Json.writeItems ascii items ++ x) := by
  cases items <;> exact stops_cons (by decide)

/-- The text after a member stops a numeral. -/
theorem Json.stops_writeMembers (ascii : Bool) (members : List (String × Json)) (x : List Char) :
    Stops (Json.writeMembers ascii members ++ x) := by
  cases members with
  | nil => exact stops_cons (by decide)
  | cons member rest =>
    cases member
    exact stops_cons (by decide)

mutual

/-- A value is read back with what follows it, unless that goes on a numeral. -/
theorem Json.write_append_inj {ascii : Bool} (j : Json) {k : Json} {x y : List Char}
    (hx : Stops x) (hy : Stops y) (h : j.write ascii ++ x = k.write ascii ++ y) :
    j = k ∧ x = y := by
  have hkind := Json.kind_eq_of_write_append_eq h
  have hk := k.exists_of_kind
  rw [← hkind] at hk
  match j with
  | .null =>
    obtain rfl : k = .null := hk
    exact ⟨rfl, List.append_cancel_left h⟩
  | .bool true =>
    obtain rfl : k = .bool true := hk
    exact ⟨rfl, List.append_cancel_left h⟩
  | .bool false =>
    obtain rfl : k = .bool false := hk
    exact ⟨rfl, List.append_cancel_left h⟩
  | .number m =>
    obtain ⟨n, rfl⟩ : ∃ n, k = .number n := hk
    obtain ⟨rfl, hxy⟩ := Numeral.append_inj hx hy h
    exact ⟨rfl, hxy⟩
  | .string s =>
    obtain ⟨t, rfl⟩ : ∃ t, k = .string t := hk
    obtain ⟨rfl, hxy⟩ := quote_append_inj h
    exact ⟨rfl, hxy⟩
  | .array [] =>
    obtain ⟨others, rfl⟩ : ∃ others, k = .array others := hk
    match others with
    | [] => exact ⟨rfl, List.append_cancel_left h⟩
    | item :: rest =>
      simp only [write, List.cons_append, List.append_assoc, List.cons.injEq, true_and] at h
      exact absurd h.symm Json.write_ne_bracket
  | .array (item :: rest) =>
    obtain ⟨others, rfl⟩ : ∃ others, k = .array others := hk
    match others with
    | [] =>
      simp only [write, List.cons_append, List.append_assoc, List.cons.injEq, true_and] at h
      exact absurd h Json.write_ne_bracket
    | other :: more =>
      simp only [write, List.cons_append, List.append_assoc, List.cons.injEq, true_and] at h
      obtain ⟨rfl, hrest⟩ := item.write_append_inj (Json.stops_writeItems _ _ _)
        (Json.stops_writeItems _ _ _) h
      obtain ⟨rfl, hxy⟩ := Json.writeItems_append_inj rest hrest
      exact ⟨rfl, hxy⟩
  | .object members =>
    obtain ⟨others, rfl⟩ : ∃ others, k = .object others := hk
    obtain ⟨rfl, hxy⟩ := Json.object_append_inj members h
    exact ⟨rfl, hxy⟩

/-- The text of an object is read back with whatever follows it. -/
theorem Json.object_append_inj {ascii : Bool} (members : List (String × Json))
    {others : List (String × Json)} {x y : List Char}
    (h : (Json.object members).write ascii ++ x = (Json.object others).write ascii ++ y) :
    members = others ∧ x = y := by
  match members, others with
  | [], [] => exact ⟨rfl, List.append_cancel_left h⟩
  | [], (_, _) :: _ => simp [write, quote] at h
  | (_, _) :: _, [] => simp [write, quote] at h
  | (key, value) :: rest, (other, content) :: more =>
    simp only [write, List.cons_append, List.append_assoc, List.cons.injEq, true_and] at h
    obtain ⟨rfl, hvalue⟩ := quote_append_inj h
    simp only [List.cons.injEq, true_and] at hvalue
    obtain ⟨rfl, hrest⟩ := value.write_append_inj (Json.stops_writeMembers _ _ _)
      (Json.stops_writeMembers _ _ _) hvalue
    obtain ⟨rfl, hxy⟩ := Json.writeMembers_append_inj rest hrest
    exact ⟨rfl, hxy⟩

/-- The rest of an array is read back with what follows it. -/
theorem Json.writeItems_append_inj {ascii : Bool} (items : List Json) {others : List Json}
    {x y : List Char}
    (h : Json.writeItems ascii items ++ x = Json.writeItems ascii others ++ y) :
    items = others ∧ x = y := by
  match items, others with
  | [], [] => exact ⟨rfl, List.append_cancel_left h⟩
  | [], _ :: _ => simp [writeItems] at h
  | _ :: _, [] => simp [writeItems] at h
  | item :: rest, other :: more =>
    simp only [writeItems, List.cons_append, List.append_assoc, List.cons.injEq, true_and] at h
    obtain ⟨rfl, hrest⟩ := item.write_append_inj (Json.stops_writeItems _ _ _)
      (Json.stops_writeItems _ _ _) h
    obtain ⟨rfl, hxy⟩ := Json.writeItems_append_inj rest hrest
    exact ⟨rfl, hxy⟩

/-- The rest of an object is read back with what follows it. -/
theorem Json.writeMembers_append_inj {ascii : Bool} (members : List (String × Json))
    {others : List (String × Json)} {x y : List Char}
    (h : Json.writeMembers ascii members ++ x = Json.writeMembers ascii others ++ y) :
    members = others ∧ x = y := by
  match members, others with
  | [], [] => exact ⟨rfl, List.append_cancel_left h⟩
  | [], (_, _) :: _ => simp [writeMembers] at h
  | (_, _) :: _, [] => simp [writeMembers] at h
  | (key, value) :: rest, (other, content) :: more =>
    simp only [writeMembers, List.cons_append, List.append_assoc, List.cons.injEq, true_and] at h
    obtain ⟨rfl, hvalue⟩ := quote_append_inj h
    simp only [List.cons.injEq, true_and] at hvalue
    obtain ⟨rfl, hrest⟩ := value.write_append_inj (Json.stops_writeMembers _ _ _)
      (Json.stops_writeMembers _ _ _) hvalue
    obtain ⟨rfl, hxy⟩ := Json.writeMembers_append_inj rest hrest
    exact ⟨rfl, hxy⟩

end

/-- Different values have different texts. -/
theorem Json.write_inj {ascii : Bool} {j k : Json} (h : j.write ascii = k.write ascii) :
    j = k := by
  have hnil : j.write ascii ++ [] = k.write ascii ++ [] := by rw [h]
  exact (Json.write_append_inj j stops_nil stops_nil hnil).1

/-! ## Texts in ASCII -/

private theorem hex4_ascii (n : Nat) : ∀ c ∈ hex4 n, c.toNat < 128 := by
  have key : ∀ d < 16, d.digitChar.toNat < 128 := by decide
  intro c hc
  simp only [hex4, List.mem_cons, List.not_mem_nil, or_false] at hc
  rcases hc with rfl | rfl | rfl | rfl <;> exact key _ (by omega)

private theorem unicodeEscape_ascii (n : Nat) : ∀ c ∈ unicodeEscape n, c.toNat < 128 := by
  intro c hc
  unfold unicodeEscape at hc
  split at hc <;> simp only [List.mem_cons, List.mem_append] at hc
  · rcases hc with rfl | rfl | hc
    · decide
    · decide
    · exact hex4_ascii _ c hc
  · rcases hc with rfl | rfl | hc | rfl | rfl | hc
    · decide
    · decide
    · exact hex4_ascii _ c hc
    · decide
    · decide
    · exact hex4_ascii _ c hc

/-- An escape for an ASCII text is ASCII. -/
theorem escape_ascii (a : Char) : ∀ c ∈ escape true a, c.toNat < 128 := by
  intro c hc
  unfold escape at hc
  split at hc
  · next letter h =>
    have key : ∀ p ∈ shortEscapes, p.2.toNat < 128 := by decide
    rcases List.mem_pair.mp hc with rfl | rfl
    · decide
    · exact key _ (mem_of_shortEscape h)
  · split at hc
    · exact unicodeEscape_ascii _ c hc
    · next h =>
      have hle : ¬ 126 < a.toNat := fun hlt ↦ h (.inr ⟨rfl, hlt⟩)
      rw [List.mem_singleton.mp hc]
      omega

/-- A quoted string of an ASCII text is ASCII. -/
theorem quote_ascii (s : String) : ∀ c ∈ quote true s, c.toNat < 128 := by
  intro c hc
  simp only [quote, List.mem_cons, List.mem_append, List.mem_flatMap, List.not_mem_nil,
    or_false] at hc
  rcases hc with rfl | ⟨a, -, hc⟩ | rfl
  · decide
  · exact escape_ascii a c hc
  · decide

/-- A numeral is ASCII. -/
theorem Numeral.ascii (n : Numeral) : ∀ c ∈ n.head :: n.tail, c.toNat < 128 := by
  have starts : ∀ c ∈ numeralStarts, c.toNat < 128 := List.forall_iff_forall_mem.mp (by decide)
  have chars : ∀ c ∈ numeralChars, c.toNat < 128 := List.forall_iff_forall_mem.mp (by decide)
  intro c hc
  rcases List.mem_cons.mp hc with rfl | hc
  · exact starts _ n.head_mem
  · exact chars c (n.tail_mem c hc)

mutual

/-- An ASCII text is ASCII. -/
theorem Json.write_ascii (j : Json) : ∀ c ∈ j.write true, c.toNat < 128 := by
  match j with
  | .null | .bool true | .bool false | .array [] | .object [] =>
    simp only [write]
    exact List.forall_iff_forall_mem.mp (by decide)
  | .number n => exact n.ascii
  | .string s => exact quote_ascii s
  | .array (item :: rest) =>
    intro c hc
    simp only [write, List.mem_cons, List.mem_append] at hc
    rcases hc with rfl | hc | hc
    · decide
    · exact item.write_ascii c hc
    · exact Json.writeItems_ascii rest c hc
  | .object ((key, value) :: rest) =>
    intro c hc
    simp only [write, List.mem_cons, List.mem_append] at hc
    rcases hc with rfl | hc | rfl | hc | hc
    · decide
    · exact quote_ascii key c hc
    · decide
    · exact value.write_ascii c hc
    · exact Json.writeMembers_ascii rest c hc

/-- The rest of an array in an ASCII text is ASCII. -/
theorem Json.writeItems_ascii (items : List Json) :
    ∀ c ∈ Json.writeItems true items, c.toNat < 128 := by
  match items with
  | [] =>
    simp only [writeItems]
    exact List.forall_iff_forall_mem.mp (by decide)
  | item :: rest =>
    intro c hc
    simp only [writeItems, List.mem_cons, List.mem_append] at hc
    rcases hc with rfl | hc | hc
    · decide
    · exact item.write_ascii c hc
    · exact Json.writeItems_ascii rest c hc

/-- The rest of an object in an ASCII text is ASCII. -/
theorem Json.writeMembers_ascii (members : List (String × Json)) :
    ∀ c ∈ Json.writeMembers true members, c.toNat < 128 := by
  match members with
  | [] =>
    simp only [writeMembers]
    exact List.forall_iff_forall_mem.mp (by decide)
  | (key, value) :: rest =>
    intro c hc
    simp only [writeMembers, List.mem_cons, List.mem_append] at hc
    rcases hc with rfl | hc | rfl | hc | hc
    · decide
    · exact quote_ascii key c hc
    · decide
    · exact value.write_ascii c hc
    · exact Json.writeMembers_ascii rest c hc

end

/-! ## Numbers -/

private theorem digit_mem {c : Char} (h : c.isDigit) : c ∈ numeralStarts ∧ c ∈ numeralChars := by
  have key : ∀ d < 10, (Nat.digitChar d) ∈ numeralStarts ∧ (Nat.digitChar d) ∈ numeralChars := by
    decide
  simp only [Char.isDigit, Bool.and_eq_true, decide_eq_true_eq, ge_iff_le, UInt32.le_iff_toNat_le]
    at h
  have hlow : 48 ≤ c.toNat := h.1
  have hhigh : c.toNat ≤ 57 := h.2
  have hc : Nat.digitChar (c.toNat - 48) = c := by
    apply Char.toNat_inj.mp
    rw [Nat.toNat_digitChar_of_lt_ten (by omega)]
    omega
  rw [← hc]
  exact key _ (by omega)

/-- A decimal digit starts a numeral and goes on one. -/
theorem digit_mem_of_toDigits {n : Nat} {c : Char} (h : c ∈ Nat.toDigits 10 n) :
    c ∈ numeralStarts ∧ c ∈ numeralChars :=
  digit_mem (Nat.isDigit_of_mem_toDigits (by decide) (by decide) h)

/-- The decimal numeral of a natural number. -/
def Numeral.ofNat (n : Nat) : Numeral where
  head := (Nat.toDigits 10 n).head Nat.toDigits_ne_nil
  tail := (Nat.toDigits 10 n).tail
  head_mem := (digit_mem_of_toDigits (List.head_mem _)).1
  tail_mem _ hc := (digit_mem_of_toDigits (List.mem_of_mem_tail hc)).2

/-- The decimal numeral of an integer. -/
def Numeral.ofInt : Int → Numeral
  | .ofNat n => Numeral.ofNat n
  | .negSucc n =>
    { head := '-'
      tail := Nat.toDigits 10 (n + 1)
      head_mem := by decide
      tail_mem := fun _ hc ↦ (digit_mem_of_toDigits hc).2 }

example : (Json.object [("a", .array [.number (.ofInt (-12)), .null])]).write true =
    "\x7b\"a\":[-12,null]\x7d".toList := by decide

end ScrapyCffi.Base
