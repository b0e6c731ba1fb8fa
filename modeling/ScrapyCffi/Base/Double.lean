import Mathlib.Algebra.Order.Ring.Nat
import Mathlib.Algebra.Order.Ring.Int

/-!
# Integers as double-precision floats

The integer that an integer is rounded to when it is converted to a float and back: 53 significant
bits, ties to even.
-/

namespace ScrapyCffi.Base

/-- The nearest natural number with 53 significant bits, ties to even. -/
def roundToDouble (n : Nat) : Nat :=
  if n < 2 ^ 53 then n
  else
    let unit := 2 ^ (n.log2 - 52)
    let up := unit < 2 * (n % unit) ∨ unit = 2 * (n % unit) ∧ n / unit % 2 = 1
    (if up then n / unit + 1 else n / unit) * unit

/-- `int(float(n))`; `none` when the conversion overflows. -/
def intFloat (n : Int) : Option Int :=
  let magnitude := roundToDouble n.natAbs
  if magnitude < 2 ^ 1024 then some (if n < 0 then -magnitude else magnitude) else none

/-- A number of 53 significant bits stays as it is. -/
theorem roundToDouble_of_dvd {n : Nat} (h : 2 ^ (n.log2 - 52) ∣ n) : roundToDouble n = n := by
  rw [roundToDouble]
  split
  · rfl
  · have hmod : n % 2 ^ (n.log2 - 52) = 0 := Nat.mod_eq_zero_of_dvd h
    have hpos : 0 < 2 ^ (n.log2 - 52) := Nat.two_pow_pos _
    dsimp only
    rw [hmod, if_neg (by omega)]
    exact Nat.div_mul_cancel h

/-- Numbers of 53 significant bits are multiples of their unit. -/
theorem unit_dvd_mul_pow {m k : Nat} (hm : m ≤ 2 ^ 53) :
    2 ^ ((m * 2 ^ k).log2 - 52) ∣ m * 2 ^ k := by
  by_cases hzero : m = 0
  · rw [hzero, Nat.zero_mul]
    exact Nat.dvd_zero _
  have hne : m * 2 ^ k ≠ 0 := Nat.mul_ne_zero hzero (Nat.two_pow_pos k).ne'
  by_cases htop : m = 2 ^ 53
  · rw [htop, ← Nat.pow_add, Nat.log2_two_pow]
    exact Nat.pow_dvd_pow 2 (by omega)
  · have hlt : m * 2 ^ k < 2 ^ (53 + k) := by
      rw [Nat.pow_add]
      exact Nat.mul_lt_mul_of_pos_right (by omega) (Nat.two_pow_pos k)
    have hlog : (m * 2 ^ k).log2 < 53 + k := (Nat.log2_lt hne).mpr hlt
    exact Nat.dvd_mul_left_of_dvd (Nat.pow_dvd_pow 2 (by omega)) m

/-- What is rounded to has 53 significant bits. -/
theorem exists_roundToDouble (n : Nat) : ∃ m k, m ≤ 2 ^ 53 ∧ roundToDouble n = m * 2 ^ k := by
  rw [roundToDouble]
  split
  · next h => exact ⟨n, 0, by omega, by omega⟩
  · next h =>
    have hne : n ≠ 0 := by omega
    have hquotient : n / 2 ^ (n.log2 - 52) < 2 ^ 53 := by
      have hlog : 52 ≤ n.log2 := (Nat.le_log2 hne).mpr (by omega)
      rw [Nat.div_lt_iff_lt_mul (Nat.two_pow_pos _), ← Nat.pow_add]
      exact (Nat.log2_lt hne).mp (by omega)
    refine ⟨_, n.log2 - 52, ?_, rfl⟩
    split <;> omega

/-- What is rounded once stays as it is. -/
theorem roundToDouble_idem (n : Nat) : roundToDouble (roundToDouble n) = roundToDouble n := by
  obtain ⟨m, k, hm, h⟩ := exists_roundToDouble n
  rw [h]
  exact roundToDouble_of_dvd (unit_dvd_mul_pow hm)

/-- A number that went through a float goes through it unchanged. -/
theorem intFloat_idem {n m : Int} (h : intFloat n = some m) : intFloat m = some m := by
  have hround := roundToDouble_idem n.natAbs
  rw [intFloat] at h
  generalize roundToDouble n.natAbs = magnitude at h hround
  split at h
  · next hfits =>
    have habs : m.natAbs = magnitude := by
      split at h <;> cases h <;> omega
    rw [intFloat, habs, hround, if_pos hfits]
    split at h <;> cases h <;> split <;> congr 1 <;> omega
  · cases h

end ScrapyCffi.Base
