import Mathlib.Algebra.Order.Ring.Nat

/-!
# Numbers in groups of seven bits

A number is written as its base-128 digits, the least significant first, each but the last with
the high bit of its byte set. The writing is shortest, and what stands behind it does not matter
to its reading.
-/

namespace ScrapyCffi.Base.Base128

/-- The bytes of a number. -/
def bytes (n : Nat) : List UInt8 :=
  if n < 128 then [UInt8.ofNat n] else UInt8.ofNat (n % 128 + 128) :: bytes (n / 128)
termination_by n
decreasing_by omega

/-- The number at the start of some bytes, and the bytes behind it. -/
def read : List UInt8 → Option (Nat × List UInt8)
  | [] => none
  | b :: rest =>
    if b.toNat < 128 then some (b.toNat, rest)
    else (read rest).map fun found ↦ (b.toNat - 128 + 128 * found.1, found.2)

theorem bytes_of_lt {n : Nat} (h : n < 128) : bytes n = [UInt8.ofNat n] := by
  rw [bytes, if_pos h]

theorem bytes_of_le {n : Nat} (h : 128 ≤ n) :
    bytes n = UInt8.ofNat (n % 128 + 128) :: bytes (n / 128) := by
  rw [bytes, if_neg (Nat.not_lt.mpr h)]

theorem bytes_ne_nil (n : Nat) : bytes n ≠ [] := by
  rw [bytes]
  split
  · exact List.cons_ne_nil _ _
  · exact List.cons_ne_nil _ _

theorem length_bytes_pos (n : Nat) : 0 < (bytes n).length :=
  List.length_pos_iff.mpr (bytes_ne_nil n)

/-- As many bytes as digits. -/
theorem length_bytes_le {k n : Nat} (h : n < 128 ^ (k + 1)) : (bytes n).length ≤ k + 1 := by
  induction k generalizing n with
  | zero =>
    rw [bytes_of_lt (by simpa using h)]
    exact Nat.le_refl 1
  | succ k ih =>
    by_cases hn : n < 128
    · rw [bytes_of_lt hn, List.length_singleton]
      omega
    · have hdiv : n / 128 < 128 ^ (k + 1) := by
        rw [Nat.div_lt_iff_lt_mul (by omega), ← Nat.pow_succ]
        exact h
      have hrec := ih hdiv
      rw [bytes_of_le (Nat.not_lt.mp hn), List.length_cons]
      omega

theorem lt_length_bytes {k n : Nat} (h : 128 ^ k ≤ n) : k < (bytes n).length := by
  induction k generalizing n with
  | zero => exact length_bytes_pos n
  | succ k ih =>
    rw [Nat.pow_succ] at h
    have hpos : 1 ≤ 128 ^ k := Nat.one_le_pow k 128 (by omega)
    have hn : 128 ≤ n := by omega
    have hrec := ih ((Nat.le_div_iff_mul_le (by omega)).mpr h)
    rw [bytes_of_le hn, List.length_cons]
    omega

/-- What was written is read, whatever follows. -/
theorem read_bytes_append (n : Nat) (rest : List UInt8) :
    read (bytes n ++ rest) = some (n, rest) := by
  induction n using Nat.strongRecOn with
  | ind n ih =>
    by_cases hn : n < 128
    · have hbyte : (UInt8.ofNat n).toNat = n := by
        rw [UInt8.toNat_ofNat']
        omega
      rw [bytes_of_lt hn, List.singleton_append, read, hbyte, if_pos hn]
    · have hbyte : (UInt8.ofNat (n % 128 + 128)).toNat = n % 128 + 128 := by
        rw [UInt8.toNat_ofNat']
        omega
      rw [bytes_of_le (Nat.not_lt.mp hn), List.cons_append, read, hbyte, if_neg (by omega),
        ih (n / 128) (by omega), Option.map_some]
      congr 2
      omega

/-- Two numbers with texts behind them are told apart. -/
theorem bytes_append_inj {m n : Nat} {x y : List UInt8} (h : bytes m ++ x = bytes n ++ y) :
    m = n ∧ x = y := by
  have hread : read (bytes m ++ x) = read (bytes n ++ y) := congrArg read h
  rw [read_bytes_append, read_bytes_append] at hread
  simpa using hread

theorem length_of_read {b rest : List UInt8} {n : Nat} (h : read b = some (n, rest)) :
    rest.length < b.length := by
  induction b generalizing n rest with
  | nil => cases h
  | cons byte tail ih =>
    rw [read] at h
    split at h
    · cases h
      exact Nat.lt_succ_self _
    · obtain ⟨found, hfound, heq⟩ := Option.map_eq_some_iff.mp h
      cases heq
      exact Nat.lt_succ_of_lt (ih hfound)

end ScrapyCffi.Base.Base128
