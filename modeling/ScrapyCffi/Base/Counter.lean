import Mathlib.Data.List.Basic
import Mathlib.Logic.Function.Basic

/-!
# Counters kept in a dictionary

A dictionary that counts keys has an entry for each key that occurs and none for the others.
`tally` is that dictionary for a list; adding and removing an occurrence keep it.
-/

namespace ScrapyCffi.Base

universe u

variable {κ : Type u} [DecidableEq κ] {table : κ → Option Int} {occurrences : List κ} {key : κ}

/-- One more occurrence of a key. -/
def increment (table : κ → Option Int) (key : κ) : κ → Option Int :=
  Function.update table key (some ((table key).getD 0 + 1))

/-- One occurrence less; an entry that falls to 0 is removed. -/
def decrement (table : κ → Option Int) (key : κ) : κ → Option Int :=
  Function.update table key
    (if (table key).getD 1 - 1 ≤ 0 then none else some ((table key).getD 1 - 1))

/-- What a counter reads after one more occurrence. -/
theorem getD_increment (table : κ → Option Int) (key other : κ) :
    (increment table key other).getD 0 =
      (table other).getD 0 + if other = key then 1 else 0 := by
  by_cases h : other = key
  · subst h
    rw [increment, Function.update_self, Option.getD_some, if_pos rfl]
  · rw [increment, Function.update_of_ne h, if_neg h]
    omega

/-- What a counter reads after one occurrence less, where there was one. -/
theorem getD_decrement (table : κ → Option Int) (key other : κ)
    (hpos : 0 < (table key).getD 0) :
    (decrement table key other).getD 0 =
      (table other).getD 0 - if other = key then 1 else 0 := by
  by_cases h : other = key
  · subst h
    obtain ⟨count, hcount⟩ : ∃ count, table other = some count := by
      cases htable : table other with
      | none =>
        rw [htable] at hpos
        exact absurd hpos (by decide)
      | some count => exact ⟨count, rfl⟩
    rw [hcount, Option.getD_some] at hpos
    rw [decrement, Function.update_self, hcount, Option.getD_some, Option.getD_some, if_pos rfl]
    split
    · next hle =>
      show (0 : Int) = count - 1
      omega
    · rfl
  · rw [decrement, Function.update_of_ne h, if_neg h]
    omega

/-- Only counted keys have an entry after one occurrence less. -/
theorem isSome_of_decrement {other : κ} (h : (decrement table key other).isSome = true) :
    (table other).isSome = true := by
  by_cases heq : other = key
  · subst heq
    rw [decrement, Function.update_self] at h
    split at h
    · cases h
    · next hlt =>
      cases htable : table other with
      | none =>
        rw [htable] at hlt
        exact absurd (by decide) hlt
      | some count => rfl
  · rwa [decrement, Function.update_of_ne heq] at h

/-- How often each key occurs. -/
def tally (occurrences : List κ) : κ → Option Int := fun key ↦
  if occurrences.count key = 0 then none else some (occurrences.count key)

/-- The count of a key that does not occur is 0. -/
@[simp] theorem getD_tally (occurrences : List κ) (key : κ) :
    (tally occurrences key).getD 0 = occurrences.count key := by
  unfold tally
  split
  · next h => simp [h]
  · rfl

/-- Counting one more. -/
theorem increment_tally (occurrences : List κ) (key : κ) :
    increment (tally occurrences) key = tally (key :: occurrences) := by
  ext1 other
  by_cases h : other = key
  · subst h
    rw [increment, Function.update_self, getD_tally]
    simp [tally]
  · rw [increment, Function.update_of_ne h]
    simp [tally, Ne.symm h]

/-- Counting one less. -/
theorem decrement_tally (h : key ∈ occurrences) :
    decrement (tally occurrences) key = tally (occurrences.erase key) := by
  have hpos := List.count_pos_iff.mpr h
  ext1 other
  by_cases he : other = key
  · subst he
    have hget : (tally occurrences other).getD 1 = (occurrences.count other : Int) := by
      rw [tally, if_neg (by omega), Option.getD_some]
    rw [decrement, Function.update_self, hget, tally, List.count_erase_self]
    split
    · next hle => rw [if_pos (by omega)]
    · next hgt =>
      rw [if_neg (by omega), Option.some.injEq]
      omega
  · rw [decrement, Function.update_of_ne he, tally, tally, List.count_erase_of_ne he]

/-- The order does not matter. -/
theorem tally_perm {others : List κ} (h : occurrences.Perm others) :
    tally occurrences = tally others := by
  ext1 key
  simp only [tally, h.count_eq]

end ScrapyCffi.Base
