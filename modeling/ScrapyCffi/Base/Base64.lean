import Mathlib.Data.List.Basic

/-!
# Base64

The standard alphabet with padding, and the lenient decoder that goes with it: characters
outside the alphabet are skipped, and the padding that completes a group ends the text.
-/

namespace ScrapyCffi.Base

/-- The 64 digits. -/
def base64Alphabet : List Char :=
  "ABCDEFGHIJKLMNOPQRSTUVWXYZabcdefghijklmnopqrstuvwxyz0123456789+/".toList

/-- The digit for six bits. -/
def base64Digit (n : Nat) : Char := base64Alphabet.getD n '='

/-- The six bits of a digit. -/
def base64Value (c : Char) : Option Nat := base64Alphabet.idxOf? c

/-- Four digits for three bytes; a shorter last group is padded. -/
def base64Encode : List UInt8 → List Char
  | [] => []
  | [a] => [base64Digit (a.toNat / 4), base64Digit (a.toNat % 4 * 16), '=', '=']
  | [a, b] =>
    [base64Digit (a.toNat / 4), base64Digit (a.toNat % 4 * 16 + b.toNat / 16),
      base64Digit (b.toNat % 16 * 4), '=']
  | a :: b :: c :: rest =>
    base64Digit (a.toNat / 4) :: base64Digit (a.toNat % 4 * 16 + b.toNat / 16) ::
      base64Digit (b.toNat % 16 * 4 + c.toNat / 64) :: base64Digit (c.toNat % 64) ::
      base64Encode rest

/-- The decoder after `quad` digits of a group, with the bits of the last one that no byte has
taken yet and the padding seen since. -/
def base64DecodeFrom (quad left pads : Nat) : List Char → Option (List UInt8)
  | [] => if quad = 0 then some [] else none
  | c :: rest =>
    if c = '=' then
      if quad < 2 then base64DecodeFrom quad left pads rest
      else if quad + (pads + 1) < 4 then base64DecodeFrom quad left (pads + 1) rest
      else some []
    else match base64Value c with
      | none => base64DecodeFrom quad left pads rest
      | some v => match quad with
        | 0 => base64DecodeFrom 1 v 0 rest
        | 1 => (base64DecodeFrom 2 (v % 16) 0 rest).map (UInt8.ofNat (left * 4 + v / 16) :: ·)
        | 2 => (base64DecodeFrom 3 (v % 4) 0 rest).map (UInt8.ofNat (left * 16 + v / 4) :: ·)
        | _ => (base64DecodeFrom 0 0 0 rest).map (UInt8.ofNat (left * 64 + v) :: ·)

/-- The bytes a text stands for. -/
def base64Decode (text : List Char) : Option (List UInt8) := base64DecodeFrom 0 0 0 text

set_option maxRecDepth 4000 in
/-- A digit is no padding and gives its bits back. -/
theorem base64Value_digit {n : Nat} (h : n < 64) :
    base64Digit n ≠ '=' ∧ base64Value (base64Digit n) = some n := by
  have key : ∀ n < 64, base64Digit n ≠ '=' ∧ base64Value (base64Digit n) = some n := by decide
  exact key n h

section

variable {left pads n : Nat} (rest : List Char) (h : n < 64)

include h

/-- The first digit of a group is kept. -/
theorem base64DecodeFrom_first :
    base64DecodeFrom 0 left pads (base64Digit n :: rest) = base64DecodeFrom 1 n 0 rest := by
  obtain ⟨hne, hvalue⟩ := base64Value_digit h
  rw [base64DecodeFrom, if_neg hne, hvalue]
  rfl

/-- The second digit completes the first byte. -/
theorem base64DecodeFrom_second :
    base64DecodeFrom 1 left pads (base64Digit n :: rest) =
      (base64DecodeFrom 2 (n % 16) 0 rest).map (UInt8.ofNat (left * 4 + n / 16) :: ·) := by
  obtain ⟨hne, hvalue⟩ := base64Value_digit h
  rw [base64DecodeFrom, if_neg hne, hvalue]
  rfl

/-- The third digit completes the second byte. -/
theorem base64DecodeFrom_third :
    base64DecodeFrom 2 left pads (base64Digit n :: rest) =
      (base64DecodeFrom 3 (n % 4) 0 rest).map (UInt8.ofNat (left * 16 + n / 4) :: ·) := by
  obtain ⟨hne, hvalue⟩ := base64Value_digit h
  rw [base64DecodeFrom, if_neg hne, hvalue]
  rfl

/-- The fourth digit completes the third byte and the group. -/
theorem base64DecodeFrom_fourth :
    base64DecodeFrom 3 left pads (base64Digit n :: rest) =
      (base64DecodeFrom 0 0 0 rest).map (UInt8.ofNat (left * 64 + n) :: ·) := by
  obtain ⟨hne, hvalue⟩ := base64Value_digit h
  rw [base64DecodeFrom, if_neg hne, hvalue]
  rfl

end

private theorem ofNat_eq {a : UInt8} {n : Nat} (h : n = a.toNat) : UInt8.ofNat n = a := by
  rw [h, UInt8.ofNat_toNat]

/-- Decoding gives back what was encoded. -/
theorem base64Decode_encode (bytes : List UInt8) :
    base64Decode (base64Encode bytes) = some bytes := by
  unfold base64Decode
  fun_induction base64Encode bytes with
  | case1 => rfl
  | case2 a =>
    have ha := a.toNat_lt
    rw [base64DecodeFrom_first _ (by omega), base64DecodeFrom_second _ (by omega),
      ofNat_eq (a := a) (by omega)]
    rfl
  | case3 a b =>
    have ha := a.toNat_lt
    have hb := b.toNat_lt
    rw [base64DecodeFrom_first _ (by omega), base64DecodeFrom_second _ (by omega),
      base64DecodeFrom_third _ (by omega), ofNat_eq (a := a) (by omega),
      ofNat_eq (a := b) (by omega)]
    rfl
  | case4 a b c rest ih =>
    have ha := a.toNat_lt
    have hb := b.toNat_lt
    have hc := c.toNat_lt
    rw [base64DecodeFrom_first _ (by omega), base64DecodeFrom_second _ (by omega),
      base64DecodeFrom_third _ (by omega), base64DecodeFrom_fourth _ (by omega), ih,
      ofNat_eq (a := a) (by omega), ofNat_eq (a := b) (by omega), ofNat_eq (a := c) (by omega)]
    rfl

/-- Digits and padding are ASCII. -/
theorem base64Encode_ascii (bytes : List UInt8) : ∀ c ∈ base64Encode bytes, c.toNat < 128 := by
  have hdigit (n : Nat) : (base64Digit n).toNat < 128 := by
    have key : ∀ c ∈ base64Alphabet, c.toNat < 128 :=
      List.forall_iff_forall_mem.mp (by decide)
    unfold base64Digit
    rw [List.getD_eq_getElem?_getD]
    cases h : base64Alphabet[n]? with
    | none => decide
    | some c => exact key c (List.mem_of_getElem? h)
  fun_induction base64Encode bytes with
  | case1 => simp
  | case2 a => simp [hdigit]
  | case3 a b => simp [hdigit]
  | case4 a b c rest ih => simpa [hdigit] using ih

example : base64Decode "aGk=".toList = some [104, 105] := by decide

end ScrapyCffi.Base
