import Mathlib.Data.List.Basic

/-!
# Pools of cooperative tasks

A pool lists the points at which its tasks stand. The task that runs moves to its next point
and may start others, which join at the end, so that a position names one task for good.
-/

namespace ScrapyCffi.Base

universe u v

variable {τ : Type u} {pool started : List τ} {i j : Nat} {next found : τ}

/-- The task at `i` moves to `next` and the tasks `started` join. -/
def advance (pool : List τ) (i : Nat) (next : τ) (started : List τ) : List τ :=
  pool.set i next ++ started

/-- The other tasks stand where they stood. -/
theorem advance_of_ne (hne : j ≠ i) (hj : pool[j]? = some found) :
    (advance pool i next started)[j]? = some found := by
  obtain ⟨hlt, -⟩ := List.getElem?_eq_some_iff.mp hj
  rw [advance, List.getElem?_append_left (by rwa [List.length_set]),
    List.getElem?_set_ne hne.symm, hj]

/-- The task that ran stands at its next point. -/
theorem advance_self (hlt : i < pool.length) :
    (advance pool i next started)[i]? = some next := by
  rw [advance, List.getElem?_append_left (by rwa [List.length_set]), List.getElem?_set_self hlt]

/-- A started task is in the pool. -/
theorem mem_advance (hs : found ∈ started) : found ∈ advance pool i next started :=
  List.mem_append_right _ hs

/-- A task found after at most one joined was there before or is the one that joined. -/
theorem of_join {start : Option τ} (hj : (pool ++ start.toList)[j]? = some found) :
    pool[j]? = some found ∨ (j = pool.length ∧ start = some found) := by
  rcases Nat.lt_or_ge j pool.length with hlt | hge
  · rw [List.getElem?_append_left hlt] at hj
    exact .inl hj
  · rw [List.getElem?_append_right hge] at hj
    obtain ⟨hlt, hget⟩ := List.getElem?_eq_some_iff.mp hj
    cases start with
    | none => cases hlt
    | some started =>
      have hlast : j = pool.length := by simp at hlt; omega
      refine .inr ⟨hlast, ?_⟩
      subst hlast
      simpa using hget

/-- A task found after a move is the one that moved, another one that stayed, or the one
that joined. -/
theorem of_advance {start : Option τ}
    (h : (advance pool i next start.toList)[j]? = some found) :
    (j = i ∧ found = next) ∨ (j ≠ i ∧ pool[j]? = some found) ∨
      (j = pool.length ∧ start = some found) := by
  rcases of_join h with hj | ⟨hlast, hs⟩
  · rw [List.getElem?_set] at hj
    split at hj
    · next h =>
      subst h
      split at hj
      · exact .inl ⟨rfl, (Option.some.inj hj).symm⟩
      · cases hj
    · next h => exact .inr (.inl ⟨Ne.symm h, hj⟩)
  · exact .inr (.inr ⟨by simpa using hlast, hs⟩)

/-- No two tasks of the pool work on the same key. -/
def Alone {κ : Type v} (works : τ → Option κ) (pool : List τ) : Prop :=
  ∀ (i j : Nat) p q key, pool[i]? = some p → pool[j]? = some q → works p = some key →
    works q = some key → i = j

namespace Alone

variable {κ : Type v} {works : τ → Option κ} {pool' : List τ} {point : τ} {start : Option τ}

/-- A move that passes the key of its task to at most one task keeps every key with one
task. -/
theorem moved (h : Alone works pool) (hpoint : pool[i]? = some point)
    (htasks : ∀ (k : Nat) q, pool'[k]? = some q → works q = none ∨ (k = i ∧ q = next) ∨
      (k ≠ i ∧ pool[k]? = some q) ∨ (k = pool.length ∧ start = some q))
    (hnext : ∀ key, works next = some key → works point = some key)
    (hstart : ∀ task key, start = some task → works task = some key →
      works point = some key ∧ works next = none) : Alone works pool' := by
  intro a b p q key ha hb hp hq
  rcases htasks a p ha with hn | ⟨rfl, rfl⟩ | ⟨hne, ha⟩ | ⟨rfl, hs⟩
  · cases hn.symm.trans hp
  · rcases htasks b q hb with hn | ⟨rfl, rfl⟩ | ⟨hne, hb⟩ | ⟨rfl, ht⟩
    · cases hn.symm.trans hq
    · rfl
    · exact h _ _ _ _ key hpoint hb (hnext key hp) hq
    · cases (hstart q key ht hq).2.symm.trans hp
  · rcases htasks b q hb with hn | ⟨rfl, rfl⟩ | ⟨-, hb⟩ | ⟨rfl, ht⟩
    · cases hn.symm.trans hq
    · exact h _ _ _ _ key ha hpoint hp (hnext key hq)
    · exact h _ _ _ _ key ha hb hp hq
    · exact absurd (h _ _ _ _ key ha hpoint hp (hstart q key ht hq).1) hne
  · rcases htasks b q hb with hn | ⟨rfl, rfl⟩ | ⟨hne, hb⟩ | ⟨rfl, -⟩
    · cases hn.symm.trans hq
    · cases (hstart p key hs hp).2.symm.trans hq
    · exact absurd (h _ _ _ _ key hb hpoint hq (hstart p key hs hp).1) hne
    · rfl

/-- A task with a new key may join. -/
theorem join (h : Alone works pool)
    (hstart : ∀ task key, start = some task → works task = some key →
      ∀ p ∈ pool, works p ≠ some key) : Alone works (pool ++ start.toList) := by
  intro a b p q key ha hb hp hq
  rcases of_join ha with ha | ⟨rfl, hs⟩
  · rcases of_join hb with hb | ⟨-, ht⟩
    · exact h _ _ _ _ key ha hb hp hq
    · exact absurd hp (hstart q key ht hq p (List.mem_of_getElem? ha))
  · rcases of_join hb with hb | ⟨rfl, -⟩
    · exact absurd hq (hstart p key hs hp q (List.mem_of_getElem? hb))
    · rfl

/-- Tasks that end leave the keys of the others. -/
theorem ended (h : Alone works pool)
    (htasks : ∀ (k : Nat) q, pool'[k]? = some q → works q = none ∨ pool[k]? = some q) :
    Alone works pool' := by
  intro a b p q key ha hb hp hq
  rcases htasks a p ha with hn | ha
  · cases hn.symm.trans hp
  · rcases htasks b q hb with hn | hb
    · cases hn.symm.trans hq
    · exact h _ _ _ _ key ha hb hp hq

end Alone
end ScrapyCffi.Base
