import Mathlib.Data.List.Induction

/-!
# Gapless pieces of a sequence

A list of pieces, each with a declared start and a body, is gapless when every piece
starts exactly where the ones before it end. Such pieces concatenate without gap, overlap
or duplicate; when each of them is a window of one resource, they spell a prefix of it.
-/

namespace ScrapyCffi.Base

universe u v

variable {ι : Type u} {α : Type v} (start : ι → Nat) (body : ι → List α)

/-- Every piece starts at the number of elements assembled before it. -/
def Gapless (pieces : List ι) : Prop :=
  ∀ before piece after, pieces = before ++ piece :: after →
    start piece = (before.flatMap body).length

/-- No piece leaves no gap. -/
theorem gapless_nil : Gapless start body ([] : List ι) := by
  intro before piece after h
  simp at h

/-- Appending a piece keeps the list gapless exactly when it starts at the end. -/
theorem gapless_concat {pieces : List ι} {last : ι} :
    Gapless start body (pieces ++ [last]) ↔
      Gapless start body pieces ∧ start last = (pieces.flatMap body).length := by
  constructor
  · intro h
    refine ⟨?_, h pieces last [] rfl⟩
    intro before piece after he
    exact h before piece (after ++ [last]) (by simp [he])
  · rintro ⟨hp, hl⟩ before piece after he
    rcases List.eq_nil_or_concat after with rfl | ⟨rest, tail, rfl⟩
    · obtain ⟨rfl, rfl⟩ : pieces = before ∧ last = piece := by simpa using he
      exact hl
    · have he' : pieces ++ [last] = (before ++ piece :: rest) ++ [tail] := by simpa using he
      exact hp before piece rest (List.append_inj_left' he' rfl)

/-- Gapless windows of a resource assemble to its prefix. -/
theorem Gapless.eq_take {pieces : List ι} (h : Gapless start body pieces) (resource : List α)
    (hw : ∀ piece ∈ pieces,
      body piece = (resource.drop (start piece)).take (body piece).length) :
    pieces.flatMap body = resource.take (pieces.flatMap body).length := by
  induction pieces using List.reverseRecOn with
  | nil => simp
  | append_singleton pieces last ih =>
    obtain ⟨hp, hl⟩ := (gapless_concat start body).mp h
    have hprefix := ih hp fun piece hm ↦ hw piece (by simp [hm])
    have hlast := hw last (by simp)
    rw [hl] at hlast
    calc (pieces ++ [last]).flatMap body
        = pieces.flatMap body ++ body last := by simp
      _ = resource.take (pieces.flatMap body).length ++
            (resource.drop (pieces.flatMap body).length).take (body last).length := by
          rw [← hprefix, ← hlast]
      _ = resource.take ((pieces ++ [last]).flatMap body).length := by
          rw [← List.take_add]
          simp

end ScrapyCffi.Base
