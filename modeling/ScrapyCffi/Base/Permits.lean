import Mathlib.Init

/-!
# The permits of a semaphore

A semaphore has free permits, and each task of a list may hold one. Where a task changes, takes a
permit or gives it back, the free permits and the holders stay as many as the limit.
-/

namespace ScrapyCffi.Base

universe u

variable {α : Type u} {holds : α → Bool} {limit free i : Nat} {tasks : List α} {old new : α}

/-- The free permits and those of the tasks are all there are. -/
def Conserved (holds : α → Bool) (limit free : Nat) (tasks : List α) : Prop :=
  free + tasks.countP holds = limit

namespace Conserved

/-- The holders after a task has changed. -/
theorem countP_set (holds : α → Bool) (new : α) (hi : tasks[i]? = some old) :
    (tasks.set i new).countP holds + (if holds old then 1 else 0) =
      tasks.countP holds + if holds new then 1 else 0 := by
  obtain ⟨hlt, rfl⟩ := List.getElem?_eq_some_iff.mp hi
  have hle : (if holds tasks[i] then 1 else 0) ≤ tasks.countP holds :=
    List.boole_getElem_le_countP hlt
  rw [List.countP_set hlt]
  omega

/-- A task goes on with its permit, or without one. -/
theorem moved (h : Conserved holds limit free tasks) (hi : tasks[i]? = some old)
    (hsame : holds new = holds old) : Conserved holds limit free (tasks.set i new) := by
  have hcount := countP_set holds new hi
  rw [hsame] at hcount
  unfold Conserved at h ⊢
  omega

/-- A task takes a free permit. -/
theorem acquire (h : Conserved holds limit free tasks) (hfree : free ≠ 0)
    (hi : tasks[i]? = some old) (hold : holds old = false) (hnew : holds new = true) :
    Conserved holds limit (free - 1) (tasks.set i new) := by
  have hcount := countP_set holds new hi
  rw [hold, hnew] at hcount
  unfold Conserved at h ⊢
  simp only [Bool.false_eq_true, if_false, if_true] at hcount
  omega

/-- A task gives its permit back. -/
theorem release (h : Conserved holds limit free tasks) (hi : tasks[i]? = some old)
    (hold : holds old = true) (hnew : holds new = false) :
    Conserved holds limit (free + 1) (tasks.set i new) := by
  have hcount := countP_set holds new hi
  rw [hold, hnew] at hcount
  unfold Conserved at h ⊢
  simp only [Bool.false_eq_true, if_false, if_true] at hcount
  omega

/-- A task comes without a permit. -/
theorem join (h : Conserved holds limit free tasks) (hnew : holds new = false) :
    Conserved holds limit free (tasks ++ [new]) := by
  unfold Conserved at h ⊢
  rw [List.countP_append, List.countP_singleton, hnew]
  exact h

/-- Tasks that hold a permit are within the limit. -/
theorem countP_le (h : Conserved holds limit free tasks) {p : α → Bool}
    (hp : ∀ task ∈ tasks, p task = true → holds task = true) : tasks.countP p ≤ limit := by
  have hle : tasks.countP p ≤ tasks.countP holds := List.countP_mono_left hp
  unfold Conserved at h
  omega

end Conserved
end ScrapyCffi.Base
