import Mathlib.Init

/-!
# Event machines, guarded reachability and invariants

A machine has initial states and a partial step for every event. Cooperative tasks are
modelled this way: an event names the task that runs and what its environment answers.
`Reach guard` collects the states of the runs whose steps all meet `guard`, so that
"every run" is `Reach fun _ _ ↦ True` and a conditional result names its condition.
-/

namespace ScrapyCffi.Base

universe u v

/-- Initial states and one partial deterministic step for each event. -/
structure Machine (σ : Type u) (ε : Type v) where
  init : σ → Prop
  step : σ → ε → Option σ

namespace Machine

variable {σ : Type u} {ε : Type v} {m : Machine σ ε} {guard : σ → ε → Prop}

/-- Execute the events in order; `none` as soon as one of them is not enabled. -/
def run (m : Machine σ ε) (s : σ) : List ε → Option σ
  | [] => some s
  | e :: es => (m.step s e).bind fun t ↦ m.run t es

/-- States of the runs from an initial state whose steps all meet `guard`. -/
inductive Reach (m : Machine σ ε) (guard : σ → ε → Prop) : σ → Prop
  | init {s : σ} : m.init s → Reach m guard s
  | step {s t : σ} {e : ε} : Reach m guard s → guard s e → m.step s e = some t → Reach m guard t

/-- States of all runs. -/
abbrev Reachable (m : Machine σ ε) : σ → Prop := m.Reach fun _ _ ↦ True

/-- The empty run stays in its state. -/
@[simp] theorem run_nil (s : σ) : m.run s [] = some s := rfl

/-- A nonempty run takes its first step and runs the rest. -/
theorem run_cons (s : σ) (e : ε) (es : List ε) :
    m.run s (e :: es) = (m.step s e).bind fun t ↦ m.run t es := rfl

/-- A run from a reachable state ends in a reachable state. -/
theorem Reachable.run {s t : σ} (es : List ε) (h : m.Reachable s)
    (hr : m.run s es = some t) : m.Reachable t := by
  induction es generalizing s with
  | nil =>
    cases hr
    exact h
  | cons e es ih =>
    rw [run_cons, Option.bind_eq_some_iff] at hr
    obtain ⟨next, hstep, hrest⟩ := hr
    exact ih (.step h True.intro hstep) hrest

/-- Execute the events in order as long as each of them meets the guard. -/
def runIf (m : Machine σ ε) (guard : σ → ε → Prop) [∀ s e, Decidable (guard s e)] (s : σ) :
    List ε → Option σ
  | [] => some s
  | e :: es => if guard s e then (m.step s e).bind fun t ↦ m.runIf guard t es else none

/-- A guarded execution ends in a state of a guarded run. -/
theorem Reach.runIf [∀ s e, Decidable (guard s e)] {s t : σ} (es : List ε)
    (h : m.Reach guard s) (hr : m.runIf guard s es = some t) : m.Reach guard t := by
  induction es generalizing s with
  | nil =>
    cases hr
    exact h
  | cons e es ih =>
    rw [Machine.runIf] at hr
    split at hr
    · next hg =>
      obtain ⟨next, hstep, hrest⟩ := Option.bind_eq_some_iff.mp hr
      exact ih (.step h hg hstep) hrest
    · cases hr

/-- The invariant rule: a property of the initial states that every guarded step from a
reached state preserves holds in every reached state. -/
theorem Reach.invariant {I : σ → Prop} (h0 : ∀ s, m.init s → I s)
    (hs : ∀ s e t, m.Reach guard s → I s → guard s e → m.step s e = some t → I t)
    {s : σ} (h : m.Reach guard s) : I s := by
  induction h with
  | init hi => exact h0 _ hi
  | step hr hg ht ih => exact hs _ _ _ hr ih hg ht

end Machine
end ScrapyCffi.Base
