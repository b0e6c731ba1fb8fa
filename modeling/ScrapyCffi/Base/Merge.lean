import ScrapyCffi.Base.NestedMap

/-!
# Merging nested maps

A tree is merged into another one: maps are merged key by key, and everything else takes the place
of what is there. What an overlay says stands in the result, and what it says nothing about is kept.
-/

namespace ScrapyCffi.Base

universe u v

namespace Tree

variable {κ : Type u} {α : Type v} {t : Tree κ α} {m : κ → Option (Tree κ α)} {path : List κ}

/-! ### Merging -/

mutual

/-- A tree after another one was merged into it. -/
def merge (base : Tree κ α) : Tree κ α → Tree κ α
  | .leaf a => .leaf a
  | .list items => .list items
  | .node overlay =>
    match base with
    | .node entries => .node fun key ↦ mergeAt (entries key) (overlay key)
    | .leaf _ | .list _ => .node overlay
  termination_by structural t => t

/-- A place of a map after a tree, if there is one, was merged into it. -/
def mergeAt (base : Option (Tree κ α)) : Option (Tree κ α) → Option (Tree κ α)
  | none => base
  | some t =>
    match base with
    | some found => some (merge found t)
    | none => some t
  termination_by structural t => t

end

/-- A map after another one was merged into it. -/
def mergeMaps (base overlay : κ → Option (Tree κ α)) : κ → Option (Tree κ α) :=
  fun key ↦ mergeAt (base key) (overlay key)

theorem merge_node (base overlay : κ → Option (Tree κ α)) :
    merge (.node base) (.node overlay) = .node (mergeMaps base overlay) := rfl

theorem mergeAt_some (base : Option (Tree κ α)) (t : Tree κ α) :
    mergeAt base (some t) = some ((base.map fun found ↦ merge found t).getD t) := by
  cases base <;> rfl

mutual

/-- Nothing of what is merged is missing. -/
theorem keeps_merge (base : Tree κ α) : ∀ t : Tree κ α, (merge base t).Keeps t
  | .leaf _ => .refl _
  | .list _ => .refl _
  | .node overlay => by
    cases base with
    | leaf | list => exact .refl _
    | node entries =>
      apply Keeps.node
      · intro key hkey
        obtain ⟨t, ht⟩ := Option.isSome_iff_exists.mp hkey
        rw [ht, mergeAt_some]
        rfl
      · exact fun key ↦ keeps_mergeAt (entries key) (overlay key)
  termination_by structural t => t

/-- Nothing is missing at a place. -/
theorem keeps_mergeAt (base : Option (Tree κ α)) :
    ∀ (overlay : Option (Tree κ α)) (t w : Tree κ α), overlay = some t →
      mergeAt base overlay = some w → w.Keeps t
  | none => fun _ _ h ↦ by cases h
  | some t => fun t' w ht hw ↦ by
    cases ht
    cases base with
    | none =>
      cases hw
      exact .refl _
    | some found =>
      cases hw
      exact keeps_merge found t
  termination_by structural overlay => overlay

end

/-- What is found in the tree that is merged is found in the result, with nothing missing. -/
theorem find_merge {found : Tree κ α} (h : find path t = some found) (base : Tree κ α) :
    ∃ result, find path (merge base t) = some result ∧ result.Keeps found := by
  induction path generalizing t base with
  | nil =>
    cases h
    exact ⟨_, rfl, keeps_merge base _⟩
  | cons key rest ih =>
    cases t with
    | leaf | list => cases h
    | node overlay =>
      obtain ⟨child, hchild, hfound⟩ := Option.bind_eq_some_iff.mp h
      cases base with
      | leaf | list => exact ⟨found, h, .refl _⟩
      | node entries =>
        show ∃ result, (mergeAt (entries key) (overlay key)).bind (find rest) = some result ∧ _
        rw [hchild]
        cases entries key with
        | none => exact ⟨found, hfound, .refl _⟩
        | some old => exact ih hfound old

/-! ### What is not touched -/

/-- A tree says nothing about a path: along the path it ends at a missing key. -/
def Free : List κ → Tree κ α → Prop
  | key :: rest, .node children => ∀ child, children key = some child → Free rest child
  | _, _ => False

theorem find_of_free (h : Free path t) : find path t = none := by
  induction path generalizing t with
  | nil => cases h
  | cons key rest ih =>
    cases t with
    | leaf | list => cases h
    | node children =>
      show (children key).bind (find rest) = none
      cases hchild : children key with
      | none => rfl
      | some child => exact ih (h child hchild)

/-- What is merged changes nothing at the paths that it says nothing about. -/
theorem find_merge_of_free (h : Free path t) (base : Tree κ α) :
    find path (merge base t) = find path base := by
  induction path generalizing t base with
  | nil => cases h
  | cons key rest ih =>
    cases t with
    | leaf | list => cases h
    | node overlay =>
      cases base with
      | leaf | list => exact find_of_free h
      | node entries =>
        show (mergeAt (entries key) (overlay key)).bind (find rest) = (entries key).bind (find rest)
        cases hchild : overlay key with
        | none => rfl
        | some child =>
          cases entries key with
          | none => exact find_of_free (h child hchild)
          | some old => exact ih (h child hchild) old

theorem free_empty (h : path ≠ []) : Free path (.node fun _ ↦ none : Tree κ α) := by
  cases path with
  | nil => exact absurd rfl h
  | cons key rest => exact fun child hchild ↦ by cases hchild

/-- Of two paths none goes on from the other. -/
def Apart (path other : List κ) : Prop := ¬path <+: other ∧ ¬other <+: path

theorem Apart.of_cons {key : κ} {rest others : List κ} (h : Apart (key :: rest) (key :: others)) :
    Apart rest others :=
  ⟨fun hle ↦ h.1 (List.cons_prefix_cons.mpr ⟨rfl, hle⟩),
    fun hle ↦ h.2 (List.cons_prefix_cons.mpr ⟨rfl, hle⟩)⟩

theorem Apart.ne_nil {other : List κ} (h : Apart path other) : path ≠ [] := by
  rintro rfl
  exact h.1 List.nil_prefix

theorem Apart.other_ne_nil {other : List κ} (h : Apart path other) : other ≠ [] := by
  rintro rfl
  exact h.2 List.nil_prefix

variable [DecidableEq κ]

/-- A tree that is put at a path changes nothing at the paths apart from it. -/
theorem find_put_of_apart {other : List κ} (h : Apart path other) :
    find path (.node (t.put other m)) = find path (.node m) := by
  induction path generalizing other m with
  | nil => exact absurd rfl h.ne_nil
  | cons key rest ih =>
    cases other with
    | nil => exact absurd rfl h.other_ne_nil
    | cons key' others =>
      show (t.put (key' :: others) m key).bind (find rest) = (m key).bind (find rest)
      by_cases hkey : key = key'
      · subst hkey
        have hrest := h.of_cons
        cases others with
        | nil => exact absurd rfl hrest.other_ne_nil
        | cons next others =>
          show (Function.update m key _ key).bind (find rest) = _
          rw [Function.update_self, Option.bind_some, ih hrest]
          cases hold : m key with
          | none => exact find_of_free (free_empty hrest.ne_nil)
          | some old =>
            cases old with
            | node entries => rfl
            | leaf | list =>
              show find rest (.node fun _ ↦ none) = _
              rw [find_of_free (free_empty hrest.ne_nil)]
              cases rest with
              | nil => exact absurd rfl hrest.ne_nil
              | cons => rfl
      · obtain ⟨f, hf⟩ := put_cons t key' others
        rw [hf, Function.update_of_ne hkey]

theorem Free.put {other : List κ} (hfree : Free path (.node m)) (h : Apart path other) :
    Free path (.node (t.put other m)) := by
  induction path generalizing other m with
  | nil => cases hfree
  | cons key rest ih =>
    cases other with
    | nil => exact absurd rfl h.other_ne_nil
    | cons key' others =>
      intro child hchild
      by_cases hkey : key = key'
      · subst hkey
        have hrest := h.of_cons
        cases others with
        | nil => exact absurd rfl hrest.other_ne_nil
        | cons next others =>
          rw [Tree.put, Function.update_self] at hchild
          cases hchild
          apply ih _ hrest
          cases hold : m key with
          | none => exact free_empty hrest.ne_nil
          | some old =>
            have hbelow := hfree old hold
            cases old with
            | node entries => exact hbelow
            | leaf | list => exact free_empty hrest.ne_nil
      · obtain ⟨f, hf⟩ := put_cons t key' others
        rw [hf, Function.update_of_ne hkey] at hchild
        exact hfree child hchild

variable {trees : List (List κ × Tree κ α)}

theorem find_putAll_of_apart (h : ∀ q ∈ trees, Apart path q.1) :
    find path (.node (putAll m trees)) = find path (.node m) := by
  induction trees generalizing m with
  | nil => rfl
  | cons q rest ih =>
    obtain ⟨hq, hrest⟩ := List.forall_mem_cons.mp h
    show find path (.node (putAll (q.2.put q.1 m) rest)) = _
    rw [ih hrest, find_put_of_apart hq]

/-- The last of the trees along a path stands there. -/
theorem find_putAll_of_last {p : List κ × Tree κ α} {before after : List (List κ × Tree κ α)}
    (hne : p.1 ≠ []) (h : ∀ q ∈ after, Apart p.1 q.1) :
    find p.1 (.node (putAll m (before ++ p :: after))) = some p.2 := by
  rw [putAll, List.foldl_append]
  show find p.1 (.node (putAll (p.2.put p.1 (putAll m before)) after)) = _
  rw [find_putAll_of_apart h, find_put hne]

theorem free_putAll (hne : path ≠ []) (h : ∀ q ∈ trees, Apart path q.1) :
    Free path (.node (putAll (fun _ ↦ none) trees)) := by
  have hall : ∀ (m : κ → Option (Tree κ α)), Free path (.node m) →
      Free path (.node (putAll m trees)) := by
    induction trees with
    | nil => exact fun m hm ↦ hm
    | cons q rest ih =>
      obtain ⟨hq, hrest⟩ := List.forall_mem_cons.mp h
      exact fun m hm ↦ ih hrest _ (hm.put hq)
  exact hall _ (free_empty hne)

end Tree

end ScrapyCffi.Base
