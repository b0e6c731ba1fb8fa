import Mathlib.Algebra.Order.Ring.Nat
import Mathlib.Data.List.Nodup

/-!
# Dictionaries in insertion order

A dictionary keeps its keys in the order of their first assignment; a later assignment replaces
the value in place.
-/

namespace ScrapyCffi.Base

universe u v w

/-- Entries with distinct keys, in insertion order. -/
@[ext]
structure Dict (κ : Type u) (α : Type v) where
  entries : List (κ × α)
  nodup : (entries.map Prod.fst).Nodup

namespace Dict

variable {κ : Type u} {α : Type v} {β : Type w} [DecidableEq κ]

instance [DecidableEq α] : DecidableEq (Dict κ α) := fun d e ↦
  decidable_of_iff (d.entries = e.entries) Dict.ext_iff.symm

/-- The dictionary without entries. -/
def empty : Dict κ α := ⟨[], List.nodup_nil⟩

/-- The keys in their order. -/
def keys (d : Dict κ α) : List κ := d.entries.map Prod.fst

/-- The value of a key in a list of entries. -/
def lookup (key : κ) : List (κ × α) → Option α
  | [] => none
  | entry :: rest => if entry.1 = key then some entry.2 else lookup key rest

/-- `d.get(key)`. -/
def get (d : Dict κ α) (key : κ) : Option α := lookup key d.entries

/-- The entries after an assignment. -/
def assign (key : κ) (value : α) : List (κ × α) → List (κ × α)
  | [] => [(key, value)]
  | entry :: rest =>
    if entry.1 = key then (entry.1, value) :: rest else entry :: assign key value rest

/-- An assigned key stays where it is, or is the last one. -/
theorem map_fst_assign (key : κ) (value : α) (entries : List (κ × α)) :
    (assign key value entries).map Prod.fst =
      if key ∈ entries.map Prod.fst then entries.map Prod.fst
      else entries.map Prod.fst ++ [key] := by
  induction entries with
  | nil => rfl
  | cons entry rest ih =>
    rw [assign]
    by_cases hkey : entry.1 = key
    · rw [if_pos hkey, if_pos (by simp [hkey])]
      rfl
    · rw [if_neg hkey, List.map_cons, ih, List.map_cons]
      by_cases hmem : key ∈ rest.map Prod.fst
      · rw [if_pos hmem, if_pos (List.mem_cons_of_mem _ hmem)]
      · rw [if_neg hmem, if_neg (by simpa [Ne.symm hkey] using hmem), List.cons_append]

/-- `d[key] = value`. -/
def set (d : Dict κ α) (key : κ) (value : α) : Dict κ α where
  entries := assign key value d.entries
  nodup := by
    rw [map_fst_assign]
    split
    · exact d.nodup
    · next h =>
      refine List.nodup_append.mpr ⟨d.nodup, List.nodup_singleton _, fun a ha b hb hab ↦ ?_⟩
      rw [hab, List.mem_singleton.mp hb] at ha
      exact h ha

/-- `d.pop(key, None)`. -/
def erase (d : Dict κ α) (key : κ) : Dict κ α where
  entries := d.entries.filter fun entry ↦ entry.1 ≠ key
  nodup := d.nodup.sublist (List.filter_sublist.map _)

/-- The dictionary of assignments in their order. -/
def ofList (entries : List (κ × α)) : Dict κ α :=
  entries.foldl (fun d entry ↦ d.set entry.1 entry.2) empty

/-- The dictionary with its values changed. -/
def mapValues (d : Dict κ α) (f : α → β) : Dict κ β where
  entries := d.entries.map fun entry ↦ (entry.1, f entry.2)
  nodup := by
    rw [List.map_map]
    exact d.nodup

variable {d : Dict κ α} {key other : κ} {value : α}

@[simp] theorem get_empty : (empty : Dict κ α).get key = none := rfl

theorem lookup_assign (entries : List (κ × α)) :
    lookup other (assign key value entries) =
      if other = key then some value else lookup other entries := by
  induction entries with
  | nil =>
    rw [assign, lookup, lookup]
    by_cases h : key = other
    · rw [if_pos h, if_pos h.symm]
    · rw [if_neg h, if_neg (Ne.symm h)]
      rfl
  | cons entry rest ih =>
    rw [assign]
    by_cases hkey : entry.1 = key
    · rw [if_pos hkey, lookup, lookup, hkey]
      by_cases h : key = other
      · rw [if_pos h, if_pos h.symm]
      · rw [if_neg h, if_neg (Ne.symm h), if_neg h]
    · rw [if_neg hkey, lookup, ih, lookup]
      by_cases h : entry.1 = other
      · rw [if_pos h, if_neg (by rw [← h]; exact hkey), if_pos h]
      · rw [if_neg h, if_neg h]

theorem get_set : (d.set key value).get other = if other = key then some value else d.get other :=
  lookup_assign d.entries

@[simp] theorem get_set_self : (d.set key value).get key = some value := by
  rw [get_set, if_pos rfl]

theorem lookup_filter (entries : List (κ × α)) :
    lookup other (entries.filter fun entry ↦ entry.1 ≠ key) =
      if other = key then none else lookup other entries := by
  induction entries with
  | nil => exact (ite_self _).symm
  | cons entry rest ih =>
    by_cases hkey : entry.1 = key
    · rw [List.filter_cons_of_neg (by simpa using hkey), ih, lookup, hkey]
      by_cases h : other = key
      · rw [if_pos h, if_pos h]
      · rw [if_neg h, if_neg h, if_neg (Ne.symm h)]
    · rw [List.filter_cons_of_pos (by simpa using hkey), lookup, ih, lookup]
      by_cases h : entry.1 = other
      · rw [if_pos h, if_neg (by rw [← h]; exact hkey), if_pos h]
      · rw [if_neg h, if_neg h]

theorem get_erase : (d.erase key).get other = if other = key then none else d.get other :=
  lookup_filter d.entries

@[simp] theorem get_erase_self : (d.erase key).get key = none := by
  rw [get_erase, if_pos rfl]

/-- An entry after an assignment is the assigned one, or an earlier one. -/
theorem mem_assign {entry : κ × α} {entries : List (κ × α)} (h : entry ∈ assign key value entries) :
    entry = (key, value) ∨ entry ∈ entries := by
  induction entries with
  | nil => exact .inl (List.mem_singleton.mp h)
  | cons first rest ih =>
    rw [assign] at h
    split at h
    · next hkey =>
      rcases List.mem_cons.mp h with rfl | hrest
      · rw [hkey]
        exact .inl rfl
      · exact .inr (List.mem_cons_of_mem _ hrest)
    · rcases List.mem_cons.mp h with rfl | hrest
      · exact .inr List.mem_cons_self
      · exact (ih hrest).imp_right (List.mem_cons_of_mem _)

theorem mem_set {entry : κ × α} (h : entry ∈ (d.set key value).entries) :
    entry = (key, value) ∨ entry ∈ d.entries :=
  mem_assign h

theorem mem_assign_self (entries : List (κ × α)) : (key, value) ∈ assign key value entries := by
  induction entries with
  | nil => exact List.mem_cons_self
  | cons first rest ih =>
    rw [assign]
    split
    · next hkey =>
      rw [hkey]
      exact List.mem_cons_self
    · exact List.mem_cons_of_mem _ ih

theorem mem_assign_of_ne {entry : κ × α} {entries : List (κ × α)} (hne : entry.1 ≠ key)
    (h : entry ∈ entries) : entry ∈ assign key value entries := by
  induction entries with
  | nil => cases h
  | cons first rest ih =>
    rw [assign]
    rcases List.mem_cons.mp h with rfl | hrest
    · rw [if_neg hne]
      exact List.mem_cons_self
    · split
      · exact List.mem_cons_of_mem _ hrest
      · exact List.mem_cons_of_mem _ (ih hrest)

/-- Assignments whose values depend on their keys are all kept. -/
theorem mem_foldl_set {f : κ → α} {entry : κ × α} (new : List (κ × α)) (d : Dict κ α)
    (hd : ∀ e ∈ d.entries, e.2 = f e.1) (hnew : ∀ e ∈ new, e.2 = f e.1) :
    entry ∈ (new.foldl (fun d e ↦ d.set e.1 e.2) d).entries ↔ entry ∈ d.entries ∨ entry ∈ new := by
  induction new generalizing d with
  | nil => simp
  | cons first rest ih =>
    have hset : ∀ e : κ × α, e ∈ (d.set first.1 first.2).entries ↔ e = first ∨ e ∈ d.entries := by
      intro e
      constructor
      · exact mem_set
      · rintro (rfl | he)
        · exact mem_assign_self d.entries
        · by_cases hkey : e.1 = first.1
          · have hfirst : e = first := by
              apply Prod.ext hkey
              rw [hd e he, hnew first List.mem_cons_self, hkey]
            rw [hfirst]
            exact mem_assign_self d.entries
          · exact mem_assign_of_ne hkey he
    rw [List.foldl_cons, ih (d.set first.1 first.2), hset, List.mem_cons, or_assoc, or_left_comm]
    · intro e he
      rcases (hset e).mp he with rfl | he
      · exact hnew e List.mem_cons_self
      · exact hd e he
    · exact fun e he ↦ hnew e (List.mem_cons_of_mem _ he)

/-- A dictionary of assignments whose values depend on their keys. -/
theorem mem_ofList (f : κ → α) {entries : List (κ × α)} (h : ∀ e ∈ entries, e.2 = f e.1)
    {entry : κ × α} : entry ∈ (ofList entries).entries ↔ entry ∈ entries := by
  rw [ofList, mem_foldl_set entries empty (fun e he ↦ by cases he) h]
  exact ⟨fun ho ↦ ho.resolve_left fun hm ↦ (by cases hm), .inr⟩

/-- The entries of a dictionary are among its assignments. -/
theorem mem_of_mem_ofList {entries : List (κ × α)} {entry : κ × α}
    (h : entry ∈ (ofList entries).entries) : entry ∈ entries := by
  have hfold : ∀ (new : List (κ × α)) (d : Dict κ α),
      entry ∈ (new.foldl (fun d e ↦ d.set e.1 e.2) d).entries → entry ∈ d.entries ∨ entry ∈ new := by
    intro new
    induction new with
    | nil => exact fun d hmem ↦ .inl hmem
    | cons first rest ih =>
      intro d hmem
      rcases ih (d.set first.1 first.2) hmem with hset | hrest
      · rcases mem_set hset with rfl | hd
        · exact .inr List.mem_cons_self
        · exact .inl hd
      · exact .inr (List.mem_cons_of_mem _ hrest)
  exact (hfold entries empty h).resolve_left fun hmem ↦ by cases hmem

theorem mem_of_lookup {entries : List (κ × α)} (h : lookup key entries = some value) :
    (key, value) ∈ entries := by
  induction entries with
  | nil => cases h
  | cons entry rest ih =>
    rw [lookup] at h
    split at h
    · next hkey =>
      cases h
      rw [← hkey]
      exact List.mem_cons_self
    · exact List.mem_cons_of_mem _ (ih h)

/-- A value is one of the entries. -/
theorem mem_of_get (h : d.get key = some value) : (key, value) ∈ d.entries := mem_of_lookup h

theorem lookup_of_mem {entries : List (κ × α)} (hnodup : (entries.map Prod.fst).Nodup)
    (h : (key, value) ∈ entries) : lookup key entries = some value := by
  induction entries with
  | nil => cases h
  | cons entry rest ih =>
    rw [List.map_cons, List.nodup_cons] at hnodup
    rw [lookup]
    rcases List.mem_cons.mp h with rfl | hrest
    · rw [if_pos rfl]
    · have hne : entry.1 ≠ key := by
        intro heq
        apply hnodup.1
        rw [heq]
        exact List.mem_map_of_mem hrest
      rw [if_neg hne]
      exact ih hnodup.2 hrest

/-- An entry is the value of its key. -/
theorem get_of_mem (h : (key, value) ∈ d.entries) : d.get key = some value :=
  lookup_of_mem d.nodup h

/-- A new key is assigned behind the others. -/
theorem assign_of_not_mem {entries : List (κ × α)} (h : key ∉ entries.map Prod.fst) :
    assign key value entries = entries ++ [(key, value)] := by
  induction entries with
  | nil => rfl
  | cons entry rest ih =>
    rw [List.map_cons, List.mem_cons, not_or] at h
    rw [assign, if_neg (Ne.symm h.1), ih h.2, List.cons_append]

/-- Assignments of distinct new keys are appended. -/
theorem entries_foldl_set (new : List (κ × α)) (d : Dict κ α)
    (h : ((d.entries ++ new).map Prod.fst).Nodup) :
    (new.foldl (fun d entry ↦ d.set entry.1 entry.2) d).entries = d.entries ++ new := by
  induction new generalizing d with
  | nil => exact (List.append_nil _).symm
  | cons entry rest ih =>
    have hfresh : entry.1 ∉ d.entries.map Prod.fst := by
      rw [List.map_append, List.map_cons, List.nodup_append] at h
      exact fun hmem ↦ h.2.2 _ hmem _ List.mem_cons_self rfl
    have hset : (d.set entry.1 entry.2).entries = d.entries ++ [entry] := assign_of_not_mem hfresh
    rw [List.foldl_cons, ih, hset, List.append_assoc, List.singleton_append]
    rw [hset, List.append_assoc, List.singleton_append]
    exact h

/-- A dictionary is that of its entries. -/
theorem ofList_entries (d : Dict κ α) : ofList d.entries = d :=
  Dict.ext (entries_foldl_set d.entries empty d.nodup)

/-- Entries with distinct keys are kept as they are. -/
theorem entries_ofList {entries : List (κ × α)} (h : (entries.map Prod.fst).Nodup) :
    (ofList entries).entries = entries :=
  entries_foldl_set entries empty h

theorem filter_assign (entries : List (κ × α)) :
    (assign key value entries).filter (fun entry ↦ entry.1 ≠ key) =
      entries.filter fun entry ↦ entry.1 ≠ key := by
  induction entries with
  | nil => rw [assign, List.filter_cons_of_neg (by simp)]
  | cons entry rest ih =>
    rw [assign]
    by_cases hkey : entry.1 = key
    · rw [if_pos hkey, List.filter_cons_of_neg (by simpa using hkey),
        List.filter_cons_of_neg (by simpa using hkey)]
    · rw [if_neg hkey, List.filter_cons_of_pos (by simpa using hkey),
        List.filter_cons_of_pos (by simpa using hkey), ih]

/-- An assignment that is taken back. -/
theorem erase_set : (d.set key value).erase key = d.erase key :=
  Dict.ext (filter_assign d.entries)

theorem length_assign (entries : List (κ × α)) :
    (assign key value entries).length =
      if key ∈ entries.map Prod.fst then entries.length else entries.length + 1 := by
  have h := congrArg List.length (map_fst_assign key value entries)
  rw [List.length_map] at h
  rw [h]
  split
  · exact List.length_map _
  · rw [List.length_append, List.length_map, List.length_singleton]

theorem lookup_eq_none {entries : List (κ × α)} :
    lookup key entries = none ↔ key ∉ entries.map Prod.fst := by
  induction entries with
  | nil => simp [lookup]
  | cons entry rest ih =>
    rw [lookup, List.map_cons, List.mem_cons, not_or]
    by_cases hkey : entry.1 = key
    · simp [hkey]
    · rw [if_neg hkey, ih]
      exact ⟨fun h ↦ ⟨Ne.symm hkey, h⟩, And.right⟩

theorem lookup_append (entries others : List (κ × α)) :
    lookup key (entries ++ others) = (lookup key entries).or (lookup key others) := by
  induction entries with
  | nil => rfl
  | cons entry rest ih =>
    rw [List.cons_append, lookup, lookup, ih]
    split
    · rfl
    · rfl

theorem lookup_map_snd (f : α → β) (entries : List (κ × α)) :
    lookup key (entries.map fun entry ↦ (entry.1, f entry.2)) = (lookup key entries).map f := by
  induction entries with
  | nil => rfl
  | cons entry rest ih =>
    rw [List.map_cons, lookup, lookup, ih]
    split
    · rfl
    · rfl

/-- An assignment to a present key, or below a bound, keeps to the bound. -/
theorem length_set_le {bound : Nat} (h : d.get key ≠ none ∨ d.entries.length < bound)
    (hbound : d.entries.length ≤ bound) : (d.set key value).entries.length ≤ bound := by
  show (assign key value d.entries).length ≤ bound
  rw [length_assign]
  split
  · exact hbound
  · next hmem => exact h.resolve_left fun hget ↦ hget (lookup_eq_none.mpr hmem)

theorem sum_lookup (f : κ × α → Nat) {entries : List (κ × α)}
    (h : (entries.map Prod.fst).Nodup) : (entries.map f).sum =
      ((lookup key entries).elim 0 fun a ↦ f (key, a)) +
        ((entries.filter fun entry ↦ entry.1 ≠ key).map f).sum := by
  induction entries with
  | nil => rfl
  | cons entry rest ih =>
    rw [List.map_cons, List.nodup_cons] at h
    rw [lookup, List.map_cons, List.sum_cons]
    by_cases hkey : entry.1 = key
    · subst hkey
      have hrest : rest.filter (fun other ↦ other.1 ≠ entry.1) = rest := by
        rw [List.filter_eq_self]
        intro other hother
        have hne : other.1 ≠ entry.1 := fun heq ↦ h.1 (heq ▸ List.mem_map_of_mem hother)
        simpa using hne
      rw [if_pos rfl, List.filter_cons_of_neg (by simp), hrest]
      rfl
    · rw [if_neg hkey, List.filter_cons_of_pos (by simpa using hkey), List.map_cons, List.sum_cons,
        ih h.2]
      omega

/-- A sum over a dictionary is that of one key and that of the others. -/
theorem sum_erase (d : Dict κ α) (key : κ) (f : κ × α → Nat) : (d.entries.map f).sum =
    ((d.get key).elim 0 fun a ↦ f (key, a)) + ((d.erase key).entries.map f).sum :=
  sum_lookup f d.nodup

/-- The entries of the other keys. -/
theorem ne_of_mem_erase {entry : κ × α} (h : entry ∈ (d.erase key).entries) : entry.1 ≠ key := by
  simpa using (List.mem_filter.mp h).2

end Dict
end ScrapyCffi.Base
