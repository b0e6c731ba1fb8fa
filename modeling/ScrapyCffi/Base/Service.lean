import Mathlib.Data.List.Forall2

/-!
# Services that answer operations

A service answers each operation and moves to its next state. Two services whose states stay
related answer a whole sequence of operations alike.
-/

namespace ScrapyCffi.Base

universe u v w x

/-- The answer to an operation and the next state. -/
abbrev Service (σ : Type u) (ι : Type v) (α : Type w) := σ → ι → α × σ

namespace Service

variable {σ : Type u} {τ : Type x} {ι : Type v} {α β : Type w}

/-- The answers to a sequence of operations. -/
def answers (service : Service σ ι α) (s : σ) : List ι → List α
  | [] => []
  | op :: ops => (service s op).1 :: service.answers (service s op).2 ops

/-- The state after a sequence of operations. -/
def final (service : Service σ ι α) (s : σ) : List ι → σ
  | [] => s
  | op :: ops => service.final (service s op).2 ops

@[simp] theorem answers_nil (service : Service σ ι α) (s : σ) : service.answers s [] = [] := rfl

@[simp] theorem answers_cons (service : Service σ ι α) (s : σ) (op : ι) (ops : List ι) :
    service.answers s (op :: ops) = (service s op).1 :: service.answers (service s op).2 ops := rfl

@[simp] theorem final_nil (service : Service σ ι α) (s : σ) : service.final s [] = s := rfl

@[simp] theorem final_cons (service : Service σ ι α) (s : σ) (op : ι) (ops : List ι) :
    service.final s (op :: ops) = service.final (service s op).2 ops := rfl

/-- One more operation at the end. -/
theorem final_concat (service : Service σ ι α) (s : σ) (ops : List ι) (op : ι) :
    service.final s (ops ++ [op]) = (service (service.final s ops) op).2 := by
  induction ops generalizing s with
  | nil => rfl
  | cons first ops ih => exact ih _

/-- Services whose states stay related give related answers. -/
theorem answers_forall₂ {f : Service σ ι α} {g : Service τ ι β} {R : σ → τ → Prop}
    {Q : α → β → Prop} {ops : List ι}
    (hop : ∀ s t, ∀ op ∈ ops, R s t → Q (f s op).1 (g t op).1 ∧ R (f s op).2 (g t op).2)
    {s : σ} {t : τ} (h : R s t) : List.Forall₂ Q (f.answers s ops) (g.answers t ops) := by
  induction ops generalizing s t with
  | nil => exact .nil
  | cons op ops ih =>
    obtain ⟨hanswer, hnext⟩ := hop s t op List.mem_cons_self h
    exact .cons hanswer (ih (fun s t op ho ↦ hop s t op (List.mem_cons_of_mem _ ho)) hnext)

/-- Services whose states stay related and that answer alike give the same answers. -/
theorem answers_eq {f : Service σ ι α} {g : Service τ ι α} {R : σ → τ → Prop} {ops : List ι}
    (hop : ∀ s t, ∀ op ∈ ops, R s t → (f s op).1 = (g t op).1 ∧ R (f s op).2 (g t op).2)
    {s : σ} {t : τ} (h : R s t) : f.answers s ops = g.answers t ops := by
  rw [← List.forall₂_eq_eq_eq]
  exact answers_forall₂ hop h

end Service
end ScrapyCffi.Base
