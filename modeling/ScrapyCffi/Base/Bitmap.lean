import Mathlib.Data.List.Basic

/-!
# Bitmaps in byte arrays

Bit `index` of a byte array is bit `index % 8`, from the low end, of byte `index / 8`. Setting
bits only ever adds to the bits that are set.
-/

namespace ScrapyCffi.Base.Bitmap

/-- The byte array of the bitmap. -/
abbrev Bytes := List (BitVec 8)

/-- `(array[index // 8] >> (index % 8)) & 1`. -/
def getBit (bytes : Bytes) (index : Nat) : Bool :=
  (bytes.getD (index / 8) 0#8 >>> (index % 8)) &&& 1#8 != 0#8

/-- `array[index // 8] |= 1 << (index % 8)`. -/
def setBit (bytes : Bytes) (index : Nat) : Bytes :=
  bytes.modify (index / 8) (· ||| 1#8 <<< (index % 8))

/-- Set several bits. -/
def setBits (bytes : Bytes) (indices : List Nat) : Bytes := indices.foldl setBit bytes

variable {bytes : Bytes} {index other : Nat} {indices : List Nat}

/-- The lowest bit decides whether a masked byte is zero. -/
private theorem mask_ne_zero (byte : BitVec 8) : (byte &&& 1#8 != 0#8) = byte.getLsbD 0 := by
  have hmask : byte &&& 1#8 = if byte.getLsbD 0 then 1#8 else 0#8 := by
    apply BitVec.eq_of_getLsbD_eq
    intro i hi
    rcases Nat.eq_zero_or_pos i with rfl | hpos
    · cases h : byte.getLsbD 0 <;> simpa using h
    · have hne : ¬ i = 0 := by omega
      cases h : byte.getLsbD 0 <;> simp [BitVec.getLsbD_one, hne]
  rw [hmask]
  cases byte.getLsbD 0 <;> rfl

/-- A bit of the array is a bit of its byte. -/
theorem getBit_eq (bytes : Bytes) (index : Nat) :
    getBit bytes index = (bytes.getD (index / 8) 0#8).getLsbD (index % 8) := by
  rw [getBit, mask_ne_zero, BitVec.getLsbD_ushiftRight, Nat.add_zero]

@[simp] theorem length_setBit (bytes : Bytes) (index : Nat) :
    (setBit bytes index).length = bytes.length :=
  List.length_modify ..

@[simp] theorem length_setBits (bytes : Bytes) (indices : List Nat) :
    (setBits bytes indices).length = bytes.length := by
  induction indices generalizing bytes with
  | nil => rfl
  | cons index indices ih => exact (ih _).trans (length_setBit ..)

/-- The byte that holds another bit after setting one. -/
private theorem getD_setBit (bytes : Bytes) (index place : Nat) :
    (setBit bytes index).getD place 0#8 =
      if index / 8 = place ∧ place < bytes.length
      then bytes.getD place 0#8 ||| 1#8 <<< (index % 8) else bytes.getD place 0#8 := by
  rw [setBit, List.getD_eq_getElem?_getD, List.getD_eq_getElem?_getD, List.getElem?_modify]
  cases h : bytes[place]? with
  | none =>
    have hge : bytes.length ≤ place := List.getElem?_eq_none_iff.mp h
    simp [Nat.not_lt.mpr hge]
  | some byte =>
    have hlt : place < bytes.length := (List.getElem?_eq_some_iff.mp h).1
    by_cases he : index / 8 = place <;> simp [he, hlt]

/-- Setting a bit of the array sets that bit and no other one. -/
theorem getBit_setBit : getBit (setBit bytes index) other =
    (getBit bytes other || (decide (index = other) && decide (index < 8 * bytes.length))) := by
  rw [getBit_eq, getBit_eq, getD_setBit]
  split
  · next h =>
    have hin : index < 8 * bytes.length := by omega
    have hbit : other % 8 < 8 := Nat.mod_lt _ (by omega)
    rw [BitVec.getLsbD_or, BitVec.getLsbD_shiftLeft, BitVec.getLsbD_one]
    congr 1
    rw [Bool.eq_iff_iff]
    simp only [hbit, hin, decide_true, Bool.and_true, Bool.and_eq_true, decide_eq_true_eq,
      Bool.not_eq_true', decide_eq_false_iff_not]
    constructor
    · rintro ⟨⟨-, hle⟩, -, hzero⟩
      omega
    · rintro rfl
      exact ⟨⟨trivial, Nat.lt_irrefl _⟩, by omega, Nat.sub_self _⟩
  · next h =>
    have hne : ¬ (index = other ∧ index < 8 * bytes.length) := by
      rintro ⟨rfl, hlt⟩
      exact h ⟨rfl, by omega⟩
    rw [← Bool.decide_and, decide_eq_false hne, Bool.or_false]

/-- No bit is cleared. -/
theorem getBit_setBits_of_getBit (h : getBit bytes other = true) :
    getBit (setBits bytes indices) other = true := by
  induction indices generalizing bytes with
  | nil => exact h
  | cons index indices ih => exact ih (by rw [getBit_setBit, h, Bool.true_or])

/-- Every index of the array that is set reads as set. -/
theorem getBit_setBits_of_mem (hm : other ∈ indices) (hlt : other < 8 * bytes.length) :
    getBit (setBits bytes indices) other = true := by
  induction indices generalizing bytes with
  | nil => cases hm
  | cons index indices ih =>
    rcases List.mem_cons.mp hm with rfl | hm
    · have hset : getBit (setBit bytes other) other = true := by simp [getBit_setBit, hlt]
      show getBit (setBits (setBit bytes other) indices) other = true
      exact getBit_setBits_of_getBit hset
    · exact ih hm (by rwa [length_setBit])

/-- The bits that are set are those that were and the indices of the array. -/
theorem getBit_setBits : getBit (setBits bytes indices) other =
    (getBit bytes other || decide (other ∈ indices ∧ other < 8 * bytes.length)) := by
  induction indices generalizing bytes with
  | nil => simp [setBits]
  | cons index rest ih =>
    show getBit (setBits (setBit bytes index) rest) other = _
    rw [ih, getBit_setBit, length_setBit, Bool.or_assoc]
    congr 1
    rw [← Bool.decide_and, ← Bool.decide_or, decide_eq_decide, List.mem_cons]
    constructor
    · rintro (⟨rfl, hlt⟩ | ⟨hmem, hlt⟩)
      · exact ⟨.inl rfl, hlt⟩
      · exact ⟨.inr hmem, hlt⟩
    · rintro ⟨rfl | hmem, hlt⟩
      · exact .inl ⟨rfl, hlt⟩
      · exact .inr ⟨hmem, hlt⟩

end ScrapyCffi.Base.Bitmap
