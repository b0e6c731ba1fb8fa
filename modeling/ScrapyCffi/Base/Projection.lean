import Mathlib.Init

/-!
# Projected runs

A view of a machine's state that each event either leaves alone or moves by what is observed of
it. After a run the view is a function of the observations, so runs with the same observations end
with the same view.
-/

namespace ScrapyCffi.Base

universe u v w x

/-- A machine and a view of it that moves with the observed part of the events that meet `guard`. -/
structure Projection (σ : Type u) (ε : Type v) (ν : Type w) (ω : Type x) where
  step : σ → ε → σ
  view : σ → ν
  observe : ε → Option ω
  move : ν → ω → ν
  guard : ε → Prop
  view_step : ∀ s e, guard e → view (step s e) = (observe e).elim (view s) (move (view s))

namespace Projection

variable {σ : Type u} {ε : Type v} {ν : Type w} {ω : Type x} (p : Projection σ ε ν ω)

/-- The state after some events. -/
def run (s : σ) (events : List ε) : σ := events.foldl p.step s

/-- What is observed of some events. -/
def observed (events : List ε) : List ω := events.filterMap p.observe

variable {p}

/-- The view after a run is that of its observations. -/
theorem view_run {events : List ε} (h : ∀ e ∈ events, p.guard e) (s : σ) :
    p.view (p.run s events) = (p.observed events).foldl p.move (p.view s) := by
  induction events generalizing s with
  | nil => rfl
  | cons e rest ih =>
    have hstep := p.view_step s e (h e List.mem_cons_self)
    have hrest := ih (fun e he ↦ h e (List.mem_cons_of_mem _ he)) (p.step s e)
    rw [hstep] at hrest
    rw [run, List.foldl_cons]
    refine hrest.trans ?_
    rw [observed, observed]
    cases hobserve : p.observe e with
    | none => rw [List.filterMap_cons_none hobserve]; rfl
    | some o => rw [List.filterMap_cons_some hobserve]; rfl

/-- Runs with the same observations end with the same view. -/
theorem view_eq_of_observed_eq {events others : List ε} (h : ∀ e ∈ events, p.guard e)
    (hothers : ∀ e ∈ others, p.guard e) (hobserved : p.observed events = p.observed others)
    (s : σ) : p.view (p.run s events) = p.view (p.run s others) := by
  rw [view_run h, view_run hothers, hobserved]

end Projection
end ScrapyCffi.Base
