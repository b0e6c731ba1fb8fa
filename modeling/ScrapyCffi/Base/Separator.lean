import Mathlib.Data.List.Basic

/-!
# Texts joined by a separator

A text, a separator and what follows are read back from the whole unless one of the texts goes
on with the separator: then it may run into what follows the other.
-/

namespace ScrapyCffi.Base

universe u

variable {α : Type u} {c : α} {x y rest more : List α}

/-- The text `y` goes on where `x` is separated from its rest, and is separated later. -/
def RunsInto (c : α) (x rest y more : List α) : Prop :=
  ∃ w, y = x ++ c :: w ∧ rest = w ++ c :: more

/-- A text that runs into another one is not that text. -/
theorem RunsInto.ne (h : RunsInto c x rest y more) : x ≠ y := by
  obtain ⟨w, rfl, -⟩ := h
  intro heq
  have hlength := congrArg List.length heq
  simp at hlength

/-- A text runs into another one only where that has a separator. -/
theorem RunsInto.mem (h : RunsInto c x rest y more) : c ∈ y := by
  obtain ⟨w, rfl, -⟩ := h
  simp

/-- Texts with what follows them agree when both do, or when one runs into the other. -/
theorem separated_eq_iff :
    x ++ c :: rest = y ++ c :: more ↔
      x = y ∧ rest = more ∨ RunsInto c x rest y more ∨ RunsInto c y more x rest := by
  constructor
  · intro h
    rcases List.append_eq_append_iff.mp h with ⟨w, rfl, hw⟩ | ⟨w, rfl, hw⟩
    · cases w with
      | nil => exact .inl (by simpa using hw)
      | cons d w =>
        rw [List.cons_append, List.cons.injEq] at hw
        obtain ⟨rfl, rfl⟩ := hw
        exact .inr (.inl ⟨w, rfl, rfl⟩)
    · cases w with
      | nil => exact .inl (by simpa [eq_comm] using hw)
      | cons d w =>
        rw [List.cons_append, List.cons.injEq] at hw
        obtain ⟨rfl, rfl⟩ := hw
        exact .inr (.inr ⟨w, rfl, rfl⟩)
  · rintro (⟨rfl, rfl⟩ | ⟨w, rfl, rfl⟩ | ⟨w, rfl, rfl⟩)
    · rfl
    · simp
    · simp

/-- A text between brackets is found at the end of another one only when it is the text between
brackets there: the opening bracket occurs once. -/
theorem infix_enclosed {o c : α} {inner front content : List α} (hfront : o ∉ front)
    (hcontent : o ∉ content) (hne : o ≠ c) (hclose : c ∉ content) (hinner : c ∉ inner)
    (h : o :: (inner ++ [c]) <:+: front ++ o :: (content ++ [c])) : inner = content := by
  obtain ⟨before, after, heq⟩ := h
  have heq : before ++ o :: (inner ++ c :: after) = front ++ o :: (content ++ c :: []) := by
    simpa using heq
  rcases separated_eq_iff.mp heq with ⟨-, hrest⟩ | hruns | ⟨w, -, hw⟩
  · rcases separated_eq_iff.mp hrest with ⟨hsame, -⟩ | hruns | hruns
    · exact hsame
    · exact absurd hruns.mem hclose
    · exact absurd hruns.mem hinner
  · exact absurd hruns.mem hfront
  · have hmem : o ∈ content ++ [c] := by
      rw [hw]
      simp
    rcases List.mem_append.mp hmem with hm | hm
    · exact absurd hm hcontent
    · exact absurd (List.mem_singleton.mp hm) hne

end ScrapyCffi.Base
