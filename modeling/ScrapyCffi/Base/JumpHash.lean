import Mathlib.Order.Basic

/-!
# Jumping to a bucket

A key walks through ever larger bucket numbers and stays in the last one that exists. The walk
itself does not know how many buckets there are, so one bucket more moves a key only there.
-/

namespace ScrapyCffi.Base

universe u

/-- A walk: from a bucket and its state to a larger candidate and the next state. -/
structure Jumps (κ : Type u) where
  next : Nat → κ → Nat × κ
  increasing : ∀ bucket key, bucket < (next bucket key).1

namespace Jumps

variable {κ : Type u}

/-- The loop: walk while the candidate is one of `n` buckets, and stay in the last that was. -/
def loop (j : Jumps κ) (n : Nat) (bucket : Int) (candidate : Nat) (key : κ) : Int :=
  if candidate < n then
    j.loop n candidate (j.next candidate key).1 (j.next candidate key).2
  else bucket
termination_by n - candidate
decreasing_by
  have := j.increasing candidate key
  omega

variable (j : Jumps κ)

/-- The loop ends in a bucket, if it starts with one or enters one. -/
theorem loop_bounds {n : Nat} (bucket : Int) {candidate : Nat} (key : κ)
    (h : candidate < n ∨ 0 ≤ bucket ∧ bucket < n) :
    0 ≤ j.loop n bucket candidate key ∧ j.loop n bucket candidate key < n := by
  fun_induction j.loop n bucket candidate key with
  | case1 bucket candidate key hlt ih =>
    apply ih
    right
    omega
  | case2 bucket candidate key hge =>
    rcases h with h | h
    · exact absurd h hge
    · exact h

/-- With one bucket more the loop ends where it did or in the new bucket. -/
theorem loop_succ (n : Nat) (bucket : Int) (candidate : Nat) (key : κ) :
    j.loop (n + 1) bucket candidate key = j.loop n bucket candidate key ∨
      j.loop (n + 1) bucket candidate key = n := by
  fun_induction j.loop n bucket candidate key with
  | case1 bucket candidate key hlt ih =>
    rw [loop, if_pos (Nat.lt_succ_of_lt hlt)]
    exact ih
  | case2 bucket candidate key hge =>
    by_cases hcandidate : candidate = n
    · -- the walk enters the new bucket, and only larger candidates follow
      right
      have hnext := j.increasing candidate key
      rw [loop, if_pos (by omega), loop, if_neg (by omega), hcandidate]
    · left
      rw [loop, if_neg (by omega)]

end Jumps
end ScrapyCffi.Base
