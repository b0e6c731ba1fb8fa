import Mathlib.Logic.Function.Basic

/-!
# Tables as updated functions

A dictionary is a function to optional entries. The lemmas invert a lookup after an
update, an insertion or a removal into a lookup before it.
-/

namespace ScrapyCffi.Base

universe u v

variable {κ : Type u} {α : Type v} [DecidableEq κ] {table : κ → Option α} {key found : κ}
  {value entry : α}

/-- An entry found after an update is the new one or an older one elsewhere. -/
theorem entry_of_update {new : Option α} (h : Function.update table key new found = some entry) :
    (found = key ∧ new = some entry) ∨ (found ≠ key ∧ table found = some entry) := by
  by_cases hk : found = key
  · subst hk
    rw [Function.update_self] at h
    exact .inl ⟨rfl, h⟩
  · rw [Function.update_of_ne hk] at h
    exact .inr ⟨hk, h⟩

/-- An entry found after an insertion is the inserted one or an older one elsewhere. -/
theorem entry_of_insert (h : Function.update table key (some value) found = some entry) :
    (found = key ∧ entry = value) ∨ (found ≠ key ∧ table found = some entry) :=
  (entry_of_update h).imp_left (And.imp_right fun he ↦ (Option.some.inj he).symm)

/-- An entry found after a removal was there before, elsewhere. -/
theorem entry_of_remove (h : Function.update table key none found = some entry) :
    found ≠ key ∧ table found = some entry :=
  (entry_of_update h).resolve_left fun he ↦ by cases he.2

end ScrapyCffi.Base
