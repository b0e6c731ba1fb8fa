import Mathlib.Data.List.Nodup
import Mathlib.Data.List.Perm.Basic
import Mathlib.Logic.Function.Basic

/-!
# Nested maps

Trees of lists and maps without order, and what becomes of a map when trees are put at paths in
it one after the other. Two trees can be put in either order unless one path goes on from the
other; then they can if the tree at the shorter path already has the other one at its place.
-/

namespace ScrapyCffi.Base

universe u v

/-- A tree of lists and maps. -/
inductive Tree (κ : Type u) (α : Type v)
  | leaf (a : α)
  | list (items : List (Tree κ α))
  | node (children : κ → Option (Tree κ α))

namespace Tree

variable {κ : Type u} {α : Type v} {t : Tree κ α} {m : κ → Option (Tree κ α)}

/-- The map at a place; what is no map counts as an empty one. -/
def children : Option (Tree κ α) → κ → Option (Tree κ α)
  | some (.node children) => children
  | _ => fun _ ↦ none

/-- What stands at a path. -/
def find : List κ → Tree κ α → Option (Tree κ α)
  | [], t => some t
  | key :: rest, .node children => (children key).bind (find rest)
  | _ :: _, _ => none

/-- Nothing of a tree is missing in another one: maps may have more keys. -/
inductive Keeps : Tree κ α → Tree κ α → Prop
  | refl (t : Tree κ α) : Keeps t t
  | node {children others : κ → Option (Tree κ α)}
    (hkeys : ∀ key, (children key).isSome → (others key).isSome)
    (h : ∀ key v w, children key = some v → others key = some w → Keeps w v) :
    Keeps (.node others) (.node children)

/-- What stands at a path that goes on. -/
theorem find_append (path rest : List κ) (t : Tree κ α) :
    find (path ++ rest) t = (find path t).bind (find rest) := by
  induction path generalizing t with
  | nil => rfl
  | cons key path ih =>
    cases t with
    | node children =>
      show (children key).bind (find (path ++ rest)) = ((children key).bind (find path)).bind _
      cases children key with
      | none => rfl
      | some child => exact ih child
    | leaf | list => rfl

variable [DecidableEq κ]

/-- Put a tree at a path of a map, in maps made for it where there are none. -/
def put (t : Tree κ α) : List κ → (κ → Option (Tree κ α)) → κ → Option (Tree κ α)
  | [], m => m
  | [key], m => Function.update m key (some t)
  | key :: next :: rest, m =>
    Function.update m key (some (.node (put t (next :: rest) (children (m key)))))

/-- Only the place of the first key changes, by what stood there. -/
theorem put_cons (t : Tree κ α) (key : κ) (rest : List κ) :
    ∃ f : Option (Tree κ α) → Option (Tree κ α), ∀ m : κ → Option (Tree κ α),
      t.put (key :: rest) m = Function.update m key (f (m key)) := by
  cases rest with
  | nil => exact ⟨fun _ ↦ some t, fun _ ↦ rfl⟩
  | cons next rest =>
    exact ⟨fun found ↦ some (.node (t.put (next :: rest) (children found))), fun _ ↦ rfl⟩

/-- The tree stands where it was put. -/
theorem find_put {path : List κ} (h : path ≠ []) : find path (.node (t.put path m)) = some t := by
  induction path generalizing m with
  | nil => exact absurd rfl h
  | cons key rest ih =>
    cases rest with
    | nil =>
      show (Function.update m key (some t) key).bind some = some t
      rw [Function.update_self]
      rfl
    | cons next rest =>
      show (Function.update m key _ key).bind (find (next :: rest)) = some t
      rw [Function.update_self]
      exact ih (List.cons_ne_nil _ _)

/-- Putting what is there changes nothing. -/
theorem put_of_find {path : List κ} (h : path ≠ []) (hfind : find path (.node m) = some t) :
    t.put path m = m := by
  induction path generalizing m with
  | nil => exact absurd rfl h
  | cons key rest ih =>
    obtain ⟨child, hchild, hfind⟩ := Option.bind_eq_some_iff.mp hfind
    cases rest with
    | nil =>
      cases hfind
      show Function.update m key (some t) = m
      rw [← hchild, Function.update_eq_self]
    | cons next rest =>
      show Function.update m key (some (.node (t.put (next :: rest) (children (m key))))) = m
      cases child with
      | node found =>
        rw [hchild, children, ih (List.cons_ne_nil _ _) hfind, ← hchild, Function.update_eq_self]
      | leaf | list => cases hfind

/-- A tree takes the place of what was put below it. -/
theorem put_put_append {path rest : List κ} (h : path ≠ []) (other : Tree κ α) :
    t.put path (other.put (path ++ rest) m) = t.put path m := by
  induction path generalizing m with
  | nil => exact absurd rfl h
  | cons key path ih =>
    cases path with
    | nil =>
      obtain ⟨f, hf⟩ := put_cons other key rest
      show Function.update (other.put (key :: rest) m) key _ = _
      rw [hf, Function.update_idem]
      rfl
    | cons next path =>
      show Function.update (Function.update m key _) key (some (.node (t.put (next :: path)
        (children (Function.update m key _ key))))) = _
      rw [Function.update_idem, Function.update_self]
      show Function.update m key (some (.node (t.put (next :: path)
        (other.put (next :: path ++ rest) (children (m key)))))) = _
      rw [ih (List.cons_ne_nil _ _)]
      rfl

/-- Paths of which none goes on from the other are independent. -/
theorem put_comm {path others : List κ} {other : Tree κ α} (h : ¬ path <+: others)
    (h' : ¬ others <+: path) :
    t.put path (other.put others m) = other.put others (t.put path m) := by
  induction path generalizing others m with
  | nil => exact absurd List.nil_prefix h
  | cons key rest ih =>
    cases others with
    | nil => exact absurd List.nil_prefix h'
    | cons key' rest' =>
      by_cases hkey : key = key'
      · subst hkey
        have hrest : ¬ rest <+: rest' := fun hp ↦ h (List.cons_prefix_cons.mpr ⟨rfl, hp⟩)
        have hrest' : ¬ rest' <+: rest := fun hp ↦ h' (List.cons_prefix_cons.mpr ⟨rfl, hp⟩)
        cases rest with
        | nil => exact absurd List.nil_prefix hrest
        | cons next rest =>
          cases rest' with
          | nil => exact absurd List.nil_prefix hrest'
          | cons next' rest' =>
            simp only [put, Function.update_self, Function.update_idem, children]
            rw [ih hrest hrest']
      · obtain ⟨f, hf⟩ := put_cons t key rest
        obtain ⟨g, hg⟩ := put_cons other key' rest'
        rw [hf, hg, hg, hf, Function.update_of_ne hkey, Function.update_of_ne (Ne.symm hkey)]
        exact Function.update_comm (Ne.symm hkey) _ _ _

/-! ### Trees put one after the other -/

/-- A map with trees put at their paths, in the order of a list. -/
def putAll (m : κ → Option (Tree κ α)) (trees : List (List κ × Tree κ α)) :
    κ → Option (Tree κ α) :=
  trees.foldl (fun m p ↦ p.2.put p.1 m) m

/-- Where one path goes on from another, the tree at the shorter one has the other tree at its
place. -/
def Compatible (trees : List (List κ × Tree κ α)) : Prop :=
  ∀ p ∈ trees, ∀ q ∈ trees, ∀ rest ≠ [], q.1 = p.1 ++ rest → find rest p.2 = some q.2

variable {trees others : List (List κ × Tree κ α)}

/-- The last tree stands at its path. -/
theorem find_putAll_append (path : List κ) (h : path ≠ []) :
    find path (.node (putAll m (trees ++ [(path, t)]))) = some t := by
  rw [putAll, List.foldl_append]
  exact find_put h

omit [DecidableEq κ] in
/-- Trees that all stand at their paths are compatible. -/
theorem compatible_of_find (h : ∀ p ∈ trees, find p.1 (.node m) = some p.2) :
    Compatible trees := by
  intro p hp q hq rest _ hpath
  have hfound := h q hq
  rw [hpath, find_append, h p hp] at hfound
  exact hfound

/-- Two compatible trees can be put in either order. -/
theorem Compatible.put_comm (h : Compatible trees) (hne : ∀ p ∈ trees, p.1 ≠ [])
    (hnodup : (trees.map Prod.fst).Nodup) {p q : List κ × Tree κ α} (hp : p ∈ trees)
    (hq : q ∈ trees) (m : κ → Option (Tree κ α)) :
    q.2.put q.1 (p.2.put p.1 m) = p.2.put p.1 (q.2.put q.1 m) := by
  -- a path that goes on: the tree below it is there already
  have hbelow : ∀ p ∈ trees, ∀ q ∈ trees, ∀ rest ≠ [], q.1 = p.1 ++ rest →
      q.2.put q.1 (p.2.put p.1 m) = p.2.put p.1 (q.2.put q.1 m) := by
    intro p hp q hq rest hrest hpath
    have hfind : find q.1 (.node (p.2.put p.1 m)) = some q.2 := by
      rw [hpath, find_append, find_put (hne p hp)]
      exact h p hp q hq rest hrest hpath
    rw [put_of_find (hne q hq) hfind, hpath, put_put_append (hne p hp)]
  have heq : p.1 = q.1 → p = q := fun he ↦ List.inj_on_of_nodup_map hnodup hp hq he
  by_cases hpq : p.1 <+: q.1
  · obtain ⟨rest, hrest⟩ := hpq
    by_cases hnil : rest = []
    · rw [heq (by rw [← hrest, hnil, List.append_nil])]
    · exact hbelow p hp q hq rest hnil hrest.symm
  · by_cases hqp : q.1 <+: p.1
    · obtain ⟨rest, hrest⟩ := hqp
      by_cases hnil : rest = []
      · rw [heq (by rw [← hrest, hnil, List.append_nil])]
      · exact (hbelow q hq p hp rest hnil hrest.symm).symm
    · exact Tree.put_comm hqp hpq

/-- Compatible trees can be put in any order. -/
theorem Compatible.putAll_perm (h : Compatible trees) (hne : ∀ p ∈ trees, p.1 ≠ [])
    (hnodup : (trees.map Prod.fst).Nodup) (hperm : others.Perm trees) :
    putAll m others = putAll m trees :=
  hperm.symm.foldl_eq' (fun _ hp _ hq m ↦ h.put_comm hne hnodup hp hq m) m |>.symm

end Tree

end ScrapyCffi.Base
