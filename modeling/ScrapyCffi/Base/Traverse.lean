import Mathlib.Data.List.Forall2
import ScrapyCffi.Base.Except

/-!
# Fallible steps over a list

When a step that can fail is taken for every element of a list.
-/

namespace ScrapyCffi.Base

universe u v w

variable {ε : Type u} {α β : Type v}

/-- Every element has its result. -/
theorem mapM_eq_ok_iff {f : α → Except ε β} {xs : List α} {ys : List β} :
    xs.mapM f = .ok ys ↔ List.Forall₂ (fun x y ↦ f x = .ok y) xs ys := by
  induction xs generalizing ys with
  | nil =>
    rw [List.mapM_nil, List.forall₂_nil_left_iff]
    constructor
    · intro h
      cases h
      rfl
    · rintro rfl
      rfl
  | cons x rest ih =>
    rw [List.mapM_cons, bind_eq_ok, List.forall₂_cons_left_iff]
    constructor
    · rintro ⟨y, hy, hmore⟩
      obtain ⟨more, hrest, heq⟩ := bind_eq_ok.mp hmore
      cases heq
      exact ⟨y, more, hy, ih.mp hrest, rfl⟩
    · rintro ⟨y, more, hy, hrest, rfl⟩
      exact ⟨y, hy, bind_eq_ok.mpr ⟨more, ih.mpr hrest, rfl⟩⟩

/-- A failure is that of an element. -/
theorem exists_error_of_mapM {f : α → Except ε β} {xs : List α} {e : ε}
    (h : xs.mapM f = .error e) : ∃ x ∈ xs, f x = .error e := by
  induction xs with
  | nil =>
    rw [List.mapM_nil] at h
    cases h
  | cons x rest ih =>
    rw [List.mapM_cons] at h
    rcases bind_eq_error.mp h with hx | ⟨y, -, hmore⟩
    · exact ⟨x, List.mem_cons_self, hx⟩
    · rcases bind_eq_error.mp hmore with hrest | ⟨more, -, heq⟩
      · obtain ⟨x', hx', he⟩ := ih hrest
        exact ⟨x', List.mem_cons_of_mem _ hx', he⟩
      · cases heq

/-- Every element has its value. -/
theorem map_eq_of_mapM_eq_some {f : α → Option β} {xs : List α} {ys : List β}
    (h : xs.mapM f = some ys) : xs.map f = ys.map some := by
  induction xs generalizing ys with
  | nil =>
    rw [List.mapM_nil] at h
    cases h
    rfl
  | cons x rest ih =>
    rw [List.mapM_cons] at h
    obtain ⟨y, hy, hmore⟩ := Option.bind_eq_some_iff.mp h
    obtain ⟨more, hrest, heq⟩ := Option.bind_eq_some_iff.mp hmore
    cases heq
    rw [List.map_cons, List.map_cons, hy, ih hrest]

/-- A value for every element. -/
theorem exists_mapM_eq_some {f : α → Option β} {xs : List α} (h : ∀ x ∈ xs, ∃ y, f x = some y) :
    ∃ ys, xs.mapM f = some ys := by
  induction xs with
  | nil => exact ⟨[], rfl⟩
  | cons x rest ih =>
    obtain ⟨y, hy⟩ := h x List.mem_cons_self
    obtain ⟨ys, hys⟩ := ih fun x' hx' ↦ h x' (List.mem_cons_of_mem _ hx')
    refine ⟨y :: ys, ?_⟩
    rw [List.mapM_cons, hy, hys]
    rfl

/-- The elements of two lists that match, in pairs. -/
theorem exists_pairs {R : α → β → Prop} {xs : List α} {ys : List β} (h : List.Forall₂ R xs ys) :
    ∃ pairs : List (β × α), pairs.map Prod.fst = ys ∧ pairs.map Prod.snd = xs ∧
      ∀ q ∈ pairs, R q.2 q.1 := by
  induction h with
  | nil => exact ⟨[], rfl, rfl, fun q hq ↦ absurd hq List.not_mem_nil⟩
  | @cons x y xs ys hxy _ ih =>
    obtain ⟨pairs, hfst, hsnd, hall⟩ := ih
    refine ⟨(y, x) :: pairs, ?_, ?_, ?_⟩
    · rw [List.map_cons, hfst]
    · rw [List.map_cons, hsnd]
    · intro q hq
      rcases List.mem_cons.mp hq with rfl | hq
      · exact hxy
      · exact hall q hq

section Loops

variable {σ : Type w} {xs : List α} {s : σ}

/-- A loop that returns keeps what each of its rounds keeps. -/
theorem foldlM_invariant {f : σ → α → Except ε σ} (P : List α → σ → Prop) {s' : σ}
    (h : xs.foldlM f s = .ok s') (start : P [] s)
    (step : ∀ done x s s', done ++ [x] <+: xs → P done s → f s x = .ok s' → P (done ++ [x]) s') :
    P xs s' := by
  have hrun : ∀ rest done s, done ++ rest = xs → P done s → rest.foldlM f s = .ok s' → P xs s' := by
    intro rest
    induction rest with
    | nil =>
      intro done s hall hdone hloop
      rw [List.append_nil] at hall
      cases hloop
      rwa [← hall]
    | cons x rest ih =>
      intro done s hall hdone hloop
      rw [List.foldlM_cons, bind_eq_ok] at hloop
      obtain ⟨next, hnext, hrest⟩ := hloop
      have hsplit : done ++ [x] ++ rest = xs := by
        rw [← hall, List.append_assoc, List.singleton_append]
      exact ih (done ++ [x]) next hsplit (step done x s next ⟨rest, hsplit⟩ hdone hnext) hrest
  exact hrun xs [] s rfl start h

/-- A loop over optional steps, each of which gives a value. -/
theorem foldlM_eq_some {f : σ → α → Option σ} (P : σ → Prop) (g : σ → α → σ) (start : P s)
    (step : ∀ s, P s → ∀ x ∈ xs, f s x = some (g s x) ∧ P (g s x)) :
    xs.foldlM f s = some (xs.foldl g s) := by
  induction xs generalizing s with
  | nil => rfl
  | cons x rest ih =>
    obtain ⟨hx, hnext⟩ := step s start x List.mem_cons_self
    rw [List.foldlM_cons, hx, List.foldl_cons, Option.bind_eq_bind, Option.bind_some]
    exact ih hnext fun s hs x' hx' ↦ step s hs x' (List.mem_cons_of_mem _ hx')

/-- A loop that fails fails in one of its rounds. -/
theorem exists_error_of_foldlM {f : σ → α → Except ε σ} (P : List α → σ → Prop) {e : ε}
    (h : xs.foldlM f s = .error e) (start : P [] s)
    (step : ∀ done x s s', done ++ [x] <+: xs → P done s → f s x = .ok s' → P (done ++ [x]) s') :
    ∃ done x s, done ++ [x] <+: xs ∧ P done s ∧ f s x = .error e := by
  have hrun : ∀ rest done s, done ++ rest = xs → P done s → rest.foldlM f s = .error e →
      ∃ done x s, done ++ [x] <+: xs ∧ P done s ∧ f s x = .error e := by
    intro rest
    induction rest with
    | nil =>
      intro done s hall hdone hloop
      cases hloop
    | cons x rest ih =>
      intro done s hall hdone hloop
      have hsplit : done ++ [x] ++ rest = xs := by
        rw [← hall, List.append_assoc, List.singleton_append]
      rw [List.foldlM_cons] at hloop
      rcases bind_eq_error.mp hloop with hx | ⟨next, hnext, hrest⟩
      · exact ⟨done, x, s, ⟨rest, hsplit⟩, hdone, hx⟩
      · exact ih (done ++ [x]) next hsplit (step done x s next ⟨rest, hsplit⟩ hdone hnext) hrest
  exact hrun xs [] s rfl start h

end Loops

end ScrapyCffi.Base
