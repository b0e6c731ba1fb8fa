import Mathlib.Logic.Relation

/-!
# Searches that visit one of several like nodes

A search over a relation marks what it has visited and skips a node that looks like a visited
one. Where likeness is respected by the relation, such a search misses nothing: each node that
can be reached is like a visited one.
-/

namespace ScrapyCffi.Base

open Relation

universe u

/-- The nodes of a finished search, up to likeness. -/
structure Cover {α : Type u} (next like : α → α → Prop) (visited : α → Prop) : Prop where
  trans : ∀ {a b c}, like a b → like b c → like a c
  simulates : ∀ {a b b'}, like a b → next b b' → ∃ a', next a a' ∧ like a' b'
  closed : ∀ {a a'}, visited a → next a a' → ∃ b, visited b ∧ like b a'

namespace Cover

variable {α : Type u} {next like : α → α → Prop} {visited : α → Prop}

/-- What a step reaches from a node that is like a visited one is like a visited one. -/
theorem step (h : Cover next like visited) {a b : α} (ha : ∃ c, visited c ∧ like c a)
    (hnext : next a b) : ∃ c, visited c ∧ like c b := by
  obtain ⟨c, hvisited, hlike⟩ := ha
  obtain ⟨c', hstep, hlike'⟩ := h.simulates hlike hnext
  obtain ⟨d, hd, hdc⟩ := h.closed hvisited hstep
  exact ⟨d, hd, h.trans hdc hlike'⟩

/-- All that is reached from a covered node is covered. -/
theorem reached (h : Cover next like visited) {a b : α} (ha : ∃ c, visited c ∧ like c a)
    (hreach : ReflTransGen next a b) : ∃ c, visited c ∧ like c b := by
  induction hreach with
  | refl => exact ha
  | tail _ hnext ih => exact h.step ih hnext

end Cover
end ScrapyCffi.Base
