import Mathlib.Data.List.SplitBy

/-!
# Percent coding

`quote_plus` and `unquote_plus` of `urllib.parse` with their defaults. A text is the list of its
characters. What is unquoted need not be UTF-8: the decoder puts U+FFFD for each longest run of
bytes that begins a character and does not end it.
-/

namespace ScrapyCffi.Base.Percent

/-- The bytes of a text in UTF-8. -/
def encodeUtf8 (text : List Char) : List UInt8 := text.flatMap String.utf8EncodeChar

/-! ## Decoding with replacement -/

/-- A byte of a character behind its first one. -/
def isContinuation (b : UInt8) : Bool := 0x80 ≤ b && b ≤ 0xbf

/-- `c` may go on behind the first byte `b` of a character of three or four bytes. -/
def goesOn (b c : UInt8) : Bool :=
  0xe0 ≤ b && b ≤ 0xf4 && isContinuation c && (b != 0xe0 || 0xa0 ≤ c) && (b != 0xed || c ≤ 0x9f) &&
    (b != 0xf0 || 0x90 ≤ c) && (b != 0xf4 || c ≤ 0x8f)

/-- How many bytes one U+FFFD stands for, where no character is to be read. -/
def malformedLength : List UInt8 → Nat
  | b :: c :: rest =>
    if goesOn b c then
      if 0xf0 ≤ b ∧ rest.head?.any isContinuation then 3 else 2
    else 1
  | _ => 1

/-- `bytes.decode("utf-8", "replace")`. -/
def decodeReplace : List UInt8 → List Char
  | [] => []
  | b :: rest =>
    match (b :: rest).toByteArray.utf8DecodeChar? 0 with
    | some c => c :: decodeReplace (rest.drop (c.utf8Size - 1))
    | none => '\ufffd' :: decodeReplace (rest.drop (malformedLength (b :: rest) - 1))
termination_by data => data.length
decreasing_by all_goals
  rw [List.length_drop, List.length_cons]
  omega

/-- One character is read from what begins with it. -/
theorem decodeReplace_append (c : Char) (rest : List UInt8) :
    decodeReplace (String.utf8EncodeChar c ++ rest) = c :: decodeReplace rest := by
  have hlength : (String.utf8EncodeChar c).length = c.utf8Size := String.length_utf8EncodeChar c
  have hpos : 0 < c.utf8Size := c.utf8Size_pos
  cases hbytes : String.utf8EncodeChar c with
  | nil =>
    rw [hbytes, List.length_nil] at hlength
    omega
  | cons b more =>
    have hread : (b :: (more ++ rest)).toByteArray.utf8DecodeChar? 0 = some c := by
      have h := ByteArray.utf8DecodeChar?_utf8EncodeChar_append (b := rest.toByteArray) (c := c)
      rwa [hbytes, ← List.toByteArray_append, List.cons_append] at h
    rw [hbytes, List.length_cons] at hlength
    rw [List.cons_append, decodeReplace, hread]
    show c :: decodeReplace ((more ++ rest).drop (c.utf8Size - 1)) = c :: decodeReplace rest
    rw [← hlength, Nat.add_sub_cancel, List.drop_left]

/-- A text is read back from its bytes. -/
@[simp] theorem decodeReplace_encodeUtf8 (text : List Char) :
    decodeReplace (encodeUtf8 text) = text := by
  induction text with
  | nil => rw [encodeUtf8, List.flatMap_nil, decodeReplace]
  | cons c rest ih =>
    rw [encodeUtf8, List.flatMap_cons, decodeReplace_append]
    exact congrArg (c :: ·) ih

/-! ## Quoting -/

/-- A letter or a digit of ASCII. -/
def isAlnum (b : UInt8) : Bool :=
  (0x30 ≤ b && b ≤ 0x39) || (0x41 ≤ b && b ≤ 0x5a) || (0x61 ≤ b && b ≤ 0x7a)

/-- `_ALWAYS_SAFE`: letters, digits and `_.-~`. -/
def alwaysSafe (b : UInt8) : Bool :=
  isAlnum b || b == 0x5f || b == 0x2e || b == 0x2d || b == 0x7e

/-- A digit of `format(b, "X")`. -/
def hexDigit (n : Nat) : Char := Char.ofNat (if n < 10 then 0x30 + n else 0x37 + n)

/-- `_Quoter.__missing__` with a space in the safe set. -/
def quoter (b : UInt8) : List Char :=
  if alwaysSafe b || b == 0x20 then [Char.ofNat b.toNat]
  else ['%', hexDigit (b.toNat / 16), hexDigit (b.toNat % 16)]

/-- `quote_plus`. Where the text has no space it is quoted without one in the safe set, which comes
to the same. -/
def quotePlus (text : List Char) : List Char :=
  ((encodeUtf8 text).flatMap quoter).map fun c ↦ if c = ' ' then '+' else c

/-! ## Unquoting -/

/-- The value of a hexadecimal digit. -/
def hexValue (b : UInt8) : Option Nat :=
  if 0x30 ≤ b ∧ b ≤ 0x39 then some (b.toNat - 0x30)
  else if 0x41 ≤ b ∧ b ≤ 0x46 then some (b.toNat - 0x37)
  else if 0x61 ≤ b ∧ b ≤ 0x66 then some (b.toNat - 0x57)
  else none

/-- `_hextobyte`. -/
def hexToByte (high low : UInt8) : Option UInt8 :=
  match hexValue high, hexValue low with
  | some h, some l => some (UInt8.ofNat (16 * h + l))
  | _, _ => none

/-- `unquote_to_bytes`. -/
def unquoteToBytes : List UInt8 → List UInt8
  | b :: high :: low :: rest =>
    if b = 0x25 then
      match hexToByte high low with
      | some value => value :: unquoteToBytes rest
      | none => b :: unquoteToBytes (high :: low :: rest)
    else b :: unquoteToBytes (high :: low :: rest)
  | rest => rest

/-- `str.isascii` of one character. -/
def isAscii (c : Char) : Bool := c.toNat < 128

/-- A run of ASCII characters is unquoted, another one is left. -/
def unquoteRun (run : List Char) : List Char :=
  if run.all isAscii then decodeReplace (unquoteToBytes (encodeUtf8 run)) else run

/-- `unquote`. -/
def unquote (text : List Char) : List Char :=
  if '%' ∈ text then ((text.splitBy fun a b ↦ isAscii a == isAscii b).map unquoteRun).flatten
  else text

/-- `unquote_plus`. -/
def unquotePlus (text : List Char) : List Char :=
  unquote (text.map fun c ↦ if c = '+' then ' ' else c)

/-! ## Round trip -/

/-- A byte that begins no escape is left. -/
theorem unquoteToBytes_cons {b : UInt8} (hb : b ≠ 0x25) (rest : List UInt8) :
    unquoteToBytes (b :: rest) = b :: unquoteToBytes rest := by
  match rest with
  | [] => rfl
  | [_] => rfl
  | high :: low :: rest => rw [unquoteToBytes, if_neg hb]

/-- Bytes without an escape are left. -/
theorem unquoteToBytes_eq_self {data : List UInt8} (h : 0x25 ∉ data) :
    unquoteToBytes data = data := by
  induction data with
  | nil => rfl
  | cons b rest ih =>
    rw [List.mem_cons, not_or] at h
    rw [unquoteToBytes_cons (Ne.symm h.1), ih h.2]

/-- The byte of an ASCII character. -/
theorem utf8EncodeChar_ascii {c : Char} (h : isAscii c = true) :
    String.utf8EncodeChar c = [UInt8.ofNat c.toNat] := by
  have hlt : c.toNat < 128 := of_decide_eq_true h
  have hsize : c.utf8Size = 1 := by
    rw [Char.utf8Size_eq_one_iff, UInt32.le_iff_toNat_le]
    show c.toNat ≤ 127
    omega
  rw [String.utf8EncodeChar_eq_singleton hsize]
  rfl

/-- An ASCII text is one run. -/
theorem unquote_ascii {text : List Char} (h : ∀ c ∈ text, isAscii c = true) :
    unquote text = decodeReplace (unquoteToBytes (encodeUtf8 text)) := by
  have hall : text.all isAscii = true := List.all_eq_true.mpr h
  rw [unquote]
  split
  · next hmem =>
    have hchain : text.IsChain fun a b ↦ (isAscii a == isAscii b) = true :=
      List.Pairwise.isChain (List.pairwise_of_forall_mem_list fun a ha b hb ↦ by
        rw [h a ha, h b hb]
        rfl)
    rw [List.splitBy_of_isChain (List.ne_nil_of_mem hmem) hchain, List.map_singleton,
      List.flatten_singleton, unquoteRun, if_pos hall]
  · next hmem =>
    have hnone : 0x25 ∉ encodeUtf8 text := by
      intro hb
      obtain ⟨c, hc, hb⟩ := List.mem_flatMap.mp hb
      rw [utf8EncodeChar_ascii (h c hc), List.mem_singleton] at hb
      have hlt : c.toNat < 128 := of_decide_eq_true (h c hc)
      have hcode : c.toNat = 37 := by
        have hnat := congrArg UInt8.toNat hb
        rw [UInt8.toNat_ofNat', Nat.mod_eq_of_lt (by omega)] at hnat
        exact hnat.symm
      have hpercent : c = '%' := Char.toNat_inj.mp hcode
      exact hmem (hpercent ▸ hc)
    rw [unquoteToBytes_eq_self hnone, decodeReplace_encodeUtf8]

/-- What a quoted text is made of. -/
def isQuoted (c : Char) : Bool :=
  isAscii c && (alwaysSafe (UInt8.ofNat c.toNat) || c == '%' || c == '+')

/-- A hexadecimal digit. -/
theorem hexDigit_spec : ∀ n < 16, isAscii (hexDigit n) = true ∧ isQuoted (hexDigit n) = true ∧
    hexDigit n ≠ ' ' ∧ hexDigit n ≠ '+' ∧ hexValue (UInt8.ofNat (hexDigit n).toNat) = some n := by
  decide

/-- A byte that is left in a quoted text is one of ASCII, and neither a plus nor a percent. -/
theorem toNat_of_safe {b : UInt8} (h : (alwaysSafe b || b == 0x20) = true) :
    b.toNat < 128 ∧ b ≠ 0x25 ∧ b ≠ 0x2b := by
  refine ⟨?_, ?_, ?_⟩
  · simp only [alwaysSafe, isAlnum, Bool.or_eq_true, Bool.and_eq_true, decide_eq_true_eq,
      beq_iff_eq, UInt8.le_iff_toNat_le, ← UInt8.toNat_inj, UInt8.reduceToNat] at h
    omega
  · rintro rfl
    revert h
    decide
  · rintro rfl
    revert h
    decide

/-- The character of an ASCII byte. -/
theorem toNat_ofNat_toNat {b : UInt8} (h : b.toNat < 128) : (Char.ofNat b.toNat).toNat = b.toNat := by
  have hvalid : b.toNat.isValidChar := .inl (by omega)
  rw [Char.ofNat, dif_pos hvalid]
  rfl

/-- What a byte is quoted as: nothing in it is a plus, and a space stands only for itself. -/
theorem mem_quoter {b : UInt8} {c : Char} (hc : c ∈ quoter b) :
    isAscii c = true ∧ c ≠ '+' ∧ (isQuoted c = true ∨ c = ' ') := by
  rw [quoter] at hc
  split at hc
  · next hsafe =>
    obtain ⟨hlt, -, hplus⟩ := toNat_of_safe hsafe
    rw [List.mem_singleton] at hc
    have hnat : c.toNat = b.toNat := by rw [hc, toNat_ofNat_toNat hlt]
    have hbyte : UInt8.ofNat c.toNat = b := by rw [hnat, UInt8.ofNat_toNat]
    have hascii : isAscii c = true := decide_eq_true (by omega)
    refine ⟨hascii, ?_, ?_⟩
    · rintro rfl
      exact hplus hbyte.symm
    · rw [Bool.or_eq_true, beq_iff_eq] at hsafe
      rcases hsafe with hsafe | hspace
      · left
        rw [isQuoted, hascii, hbyte, hsafe]
        rfl
      · right
        rw [hc, hspace]
        rfl
  · have hb : b.toNat < 256 := UInt8.toNat_lt_size b
    simp only [List.mem_cons, List.not_mem_nil, or_false] at hc
    rcases hc with rfl | rfl | rfl
    · decide
    · obtain ⟨hascii, hquoted, -, hplus, -⟩ := hexDigit_spec (b.toNat / 16) (by omega)
      exact ⟨hascii, hplus, .inl hquoted⟩
    · obtain ⟨hascii, hquoted, -, hplus, -⟩ := hexDigit_spec (b.toNat % 16) (by omega)
      exact ⟨hascii, hplus, .inl hquoted⟩

/-- A quoted text has letters, digits, `_.-~`, `%` and `+`. -/
theorem quotePlus_quoted {text : List Char} {c : Char} (hc : c ∈ quotePlus text) :
    isQuoted c = true := by
  obtain ⟨d, hd, rfl⟩ := List.mem_map.mp hc
  obtain ⟨b, -, hd⟩ := List.mem_flatMap.mp hd
  split
  · rfl
  · next hspace => exact (mem_quoter hd).2.2.resolve_right hspace

/-- A byte is read back from what it is quoted as. -/
theorem unquoteToBytes_quoter (b : UInt8) (rest : List UInt8) :
    unquoteToBytes (encodeUtf8 (quoter b) ++ rest) = b :: unquoteToBytes rest := by
  rw [quoter]
  split
  · next hsafe =>
    obtain ⟨hlt, hpercent, -⟩ := toNat_of_safe hsafe
    have hascii : isAscii (Char.ofNat b.toNat) = true :=
      decide_eq_true (by rwa [toNat_ofNat_toNat hlt])
    have hbytes : encodeUtf8 [Char.ofNat b.toNat] = [b] := by
      rw [encodeUtf8, List.flatMap_singleton, utf8EncodeChar_ascii hascii, toNat_ofNat_toNat hlt,
        UInt8.ofNat_toNat]
    rw [hbytes]
    exact unquoteToBytes_cons hpercent rest
  · have hb : b.toNat < 256 := UInt8.toNat_lt_size b
    obtain ⟨hhigh, -, -, -, hhighValue⟩ := hexDigit_spec (b.toNat / 16) (by omega)
    obtain ⟨hlow, -, -, -, hlowValue⟩ := hexDigit_spec (b.toNat % 16) (by omega)
    have hbytes : encodeUtf8 ['%', hexDigit (b.toNat / 16), hexDigit (b.toNat % 16)] =
        [0x25, UInt8.ofNat (hexDigit (b.toNat / 16)).toNat,
          UInt8.ofNat (hexDigit (b.toNat % 16)).toNat] := by
      simp only [encodeUtf8, List.flatMap_cons, List.flatMap_nil, utf8EncodeChar_ascii hhigh,
        utf8EncodeChar_ascii hlow]
      rfl
    have hvalue : hexToByte (UInt8.ofNat (hexDigit (b.toNat / 16)).toNat)
        (UInt8.ofNat (hexDigit (b.toNat % 16)).toNat) = some b := by
      rw [hexToByte, hhighValue, hlowValue]
      show some (UInt8.ofNat (16 * (b.toNat / 16) + b.toNat % 16)) = some b
      rw [Nat.div_add_mod, UInt8.ofNat_toNat]
    rw [hbytes]
    show unquoteToBytes (0x25 :: _ :: _ :: rest) = _
    rw [unquoteToBytes, if_pos rfl, hvalue]

/-- Bytes are read back from what they are quoted as. -/
theorem unquoteToBytes_flatMap_quoter (data : List UInt8) :
    unquoteToBytes (encodeUtf8 (data.flatMap quoter)) = data := by
  induction data with
  | nil => rfl
  | cons b rest ih =>
    have happend : encodeUtf8 (quoter b ++ rest.flatMap quoter) =
        encodeUtf8 (quoter b) ++ encodeUtf8 (rest.flatMap quoter) := List.flatMap_append
    rw [List.flatMap_cons, happend, unquoteToBytes_quoter, ih]

/-- A text is read back from its quoted form. -/
@[simp] theorem unquotePlus_quotePlus (text : List Char) : unquotePlus (quotePlus text) = text := by
  have hspaces : (quotePlus text).map (fun c ↦ if c = '+' then ' ' else c) =
      (encodeUtf8 text).flatMap quoter := by
    rw [quotePlus, List.map_map]
    conv_rhs => rw [← List.map_id ((encodeUtf8 text).flatMap quoter)]
    apply List.map_congr_left
    intro c hc
    obtain ⟨b, -, hc⟩ := List.mem_flatMap.mp hc
    have hplus : c ≠ '+' := (mem_quoter hc).2.1
    by_cases hspace : c = ' '
    · simp [hspace]
    · simp [hspace, hplus]
  have hascii : ∀ c ∈ (encodeUtf8 text).flatMap quoter, isAscii c = true := by
    intro c hc
    obtain ⟨b, -, hc⟩ := List.mem_flatMap.mp hc
    exact (mem_quoter hc).1
  rw [unquotePlus, hspaces, unquote_ascii hascii, unquoteToBytes_flatMap_quoter,
    decodeReplace_encodeUtf8]

end ScrapyCffi.Base.Percent
