import Mathlib.Data.List.TakeWhile

/-!
# Cumulative acknowledgement windows

Items are issued in order and finished in any order, while only a whole finished prefix may
be reported. `settled done issued` is that prefix and `window done issued` what is kept of
the rest, each item with its mark. Issuing appends to the window, and finishing one more
item moves a further piece of it to the prefix.
-/

namespace ScrapyCffi.Base

universe u

variable {α : Type u} {done done' : α → Bool} {issued : List α}

/-- The longest finished prefix. -/
def settled (done : α → Bool) (issued : List α) : List α := issued.takeWhile done

/-- The items after the finished prefix, each with its mark. -/
def window (done : α → Bool) (issued : List α) : List (α × Bool) :=
  (issued.dropWhile done).map fun item ↦ (item, done item)

/-- Every settled item is finished. -/
theorem done_of_mem_settled {item : α} (h : item ∈ settled done issued) : done item = true :=
  List.mem_takeWhile_imp h

/-- Settled items were issued. -/
theorem settled_initial (done : α → Bool) (issued : List α) : settled done issued <+: issued :=
  List.takeWhile_prefix done

/-- Issuing an unfinished item settles nothing. -/
theorem settled_concat {item : α} (h : done item = false) :
    settled done (issued ++ [item]) = settled done issued := by
  induction issued with
  | nil => simp [settled, h]
  | cons first rest ih =>
    simp only [settled, List.cons_append, List.takeWhile_cons] at ih ⊢
    split
    · rw [ih]
    · rfl

/-- An issued, unfinished item enters the window at its end. -/
theorem window_concat {item : α} (h : done item = false) :
    window done (issued ++ [item]) = window done issued ++ [(item, false)] := by
  induction issued with
  | nil => simp [window, h]
  | cons first rest ih =>
    simp only [window, List.cons_append, List.dropWhile_cons] at ih ⊢
    split
    · exact ih
    · simp [h]

/-- Finishing more items extends the settled prefix by the finished front of the window. -/
theorem settled_of_le (hle : ∀ item, done item = true → done' item = true) (issued : List α) :
    settled done' issued =
      settled done issued ++ (issued.dropWhile done).takeWhile done' := by
  induction issued with
  | nil => rfl
  | cons first rest ih =>
    simp only [settled, List.takeWhile_cons, List.dropWhile_cons] at ih ⊢
    by_cases hd : done first = true
    · simp [hd, hle first hd, ih]
    · simp [hd, List.takeWhile_cons]

/-- Finishing more items drops the finished front of the window. -/
theorem dropWhile_of_le (hle : ∀ item, done item = true → done' item = true)
    (issued : List α) : (issued.dropWhile done).dropWhile done' = issued.dropWhile done' := by
  induction issued with
  | nil => rfl
  | cons first rest ih =>
    simp only [List.dropWhile_cons]
    by_cases hd : done first = true
    · simp [hd, hle first hd, ih]
    · simp [hd, List.dropWhile_cons]

/-- The window is empty exactly when everything issued is settled. -/
theorem window_eq_nil_iff : window done issued = [] ↔ settled done issued = issued := by
  simp [window, settled, List.dropWhile_eq_nil_iff, List.takeWhile_eq_self_iff]

/-- The window is empty exactly when everything issued is finished. -/
theorem window_eq_nil_iff_forall : window done issued = [] ↔ ∀ item ∈ issued, done item = true := by
  simp [window, List.dropWhile_eq_nil_iff]

/-- What is issued and not in the window is settled. -/
theorem mem_settled_or_window (done : α → Bool) {item : α} (h : item ∈ issued) :
    item ∈ settled done issued ∨ (item, done item) ∈ window done issued := by
  rw [← List.takeWhile_append_dropWhile (p := done) (l := issued), List.mem_append] at h
  exact h.imp id (List.mem_map_of_mem (f := fun item ↦ (item, done item)))

end ScrapyCffi.Base
