import ScrapyCffi.Base.Dict

/-!
# Lists under keys

Elements collected under their keys, a key standing where it was first met. Two lists with the same
elements under every key, each in its order, differ by exchanges of neighbours with different keys.
-/

namespace ScrapyCffi.Base

universe u v w x

variable {κ : Type u} {α : Type v} [DecidableEq κ]

namespace Dict

/-- The later of two assignments to a key. -/
theorem assign_assign (key : κ) (a b : α) (entries : List (κ × α)) :
    assign key b (assign key a entries) = assign key b entries := by
  induction entries with
  | nil => simp only [assign, if_true]
  | cons entry rest ih =>
    rw [assign]
    by_cases hkey : entry.1 = key
    · rw [if_pos hkey, assign, if_pos hkey, assign, if_pos hkey]
    · rw [if_neg hkey, assign, if_neg hkey, ih, assign, if_neg hkey]

theorem nodup_assign {key : κ} {a : α} {entries : List (κ × α)}
    (h : (entries.map Prod.fst).Nodup) : ((assign key a entries).map Prod.fst).Nodup :=
  ((⟨entries, h⟩ : Dict κ α).set key a).nodup

/-- Keys and values changed alike. -/
theorem assign_map {β : Type w} {ι : Type x} [DecidableEq ι] {f : κ → ι} (hf : f.Injective)
    (g : α → β) (key : κ) (a : α) (entries : List (κ × α)) :
    assign (f key) (g a) (entries.map fun entry ↦ (f entry.1, g entry.2)) =
      (assign key a entries).map fun entry ↦ (f entry.1, g entry.2) := by
  induction entries with
  | nil => rfl
  | cons entry rest ih =>
    rw [List.map_cons, assign, assign]
    by_cases hkey : entry.1 = key
    · rw [if_pos (congrArg f hkey), if_pos hkey, List.map_cons]
    · rw [if_neg (fun heq ↦ hkey (hf heq)), if_neg hkey, List.map_cons, ih]

theorem lookup_map {β : Type w} {ι : Type x} [DecidableEq ι] {f : κ → ι} (hf : f.Injective)
    (g : α → β) (key : κ) (entries : List (κ × α)) :
    lookup (f key) (entries.map fun entry ↦ (f entry.1, g entry.2)) =
      (lookup key entries).map g := by
  induction entries with
  | nil => rfl
  | cons entry rest ih =>
    rw [List.map_cons, lookup, lookup]
    by_cases hkey : entry.1 = key
    · rw [if_pos (congrArg f hkey), if_pos hkey, Option.map_some]
    · rw [if_neg (fun heq ↦ hkey (hf heq)), if_neg hkey, ih]

end Dict

namespace Multimap

open Dict

/-- The elements under a key. -/
def under (m : List (κ × List α)) (k : κ) : List α := (lookup k m).getD []

/-- Elements are added under a key. -/
def extend (k : κ) (added : List α) (m : List (κ × List α)) : List (κ × List α) :=
  assign k (under m k ++ added) m

/-- All elements, key by key. -/
def values (m : List (κ × List α)) : List α := m.flatMap Prod.snd

/-- The elements of a list under their keys. -/
def collect (key : α → κ) (xs : List α) : List (κ × List α) :=
  xs.foldl (fun m x ↦ extend (key x) [x] m) []

theorem under_assign (m : List (κ × List α)) (k j : κ) (xs : List α) :
    under (assign k xs m) j = if j = k then xs else under m j := by
  rw [under, lookup_assign]
  by_cases hj : j = k
  · rw [if_pos hj, if_pos hj, Option.getD_some]
  · rw [if_neg hj, if_neg hj, under]

theorem under_extend (m : List (κ × List α)) (k j : κ) (added : List α) :
    under (extend k added m) j = if j = k then under m k ++ added else under m j :=
  under_assign m k j _

theorem extend_extend (m : List (κ × List α)) (k : κ) (a b : List α) :
    extend k b (extend k a m) = extend k (a ++ b) m := by
  rw [extend, under_extend, if_pos rfl, extend, assign_assign, extend, List.append_assoc]

/-- A new key stands last. -/
theorem extend_of_not_mem {m : List (κ × List α)} {k : κ} (h : k ∉ m.map Prod.fst)
    (added : List α) : extend k added m = m ++ [(k, added)] := by
  rw [extend, under, lookup_eq_none.mpr h, Option.getD_none, List.nil_append]
  induction m with
  | nil => rfl
  | cons entry rest ih =>
    rw [List.map_cons, List.mem_cons, not_or] at h
    rw [assign, if_neg (Ne.symm h.1), ih h.2, List.cons_append]

/-- New keys stand behind the others. -/
theorem foldl_extend_eq_append {m added : List (κ × List α)}
    (h : ((m ++ added).map Prod.fst).Nodup) :
    added.foldl (fun m entry ↦ extend entry.1 entry.2 m) m = m ++ added := by
  induction added generalizing m with
  | nil => rw [List.foldl_nil, List.append_nil]
  | cons entry rest ih =>
    have hnew : entry.1 ∉ m.map Prod.fst := by
      rw [List.map_append, List.map_cons] at h
      exact fun hmem ↦ (List.nodup_append.mp h).2.2 _ hmem _ List.mem_cons_self rfl
    rw [List.foldl_cons, extend_of_not_mem hnew, ih, List.append_assoc, List.singleton_append]
    rwa [List.append_assoc, List.singleton_append]

/-- What is added comes to the elements that there were. -/
theorem values_extend_perm (m : List (κ × List α)) (k : κ) (added : List α) :
    (values (extend k added m)).Perm (values m ++ added) := by
  induction m with
  | nil => simp [extend, under, lookup, assign, values]
  | cons entry rest ih =>
    rw [extend, under, lookup, assign]
    by_cases hk : entry.1 = k
    · rw [if_pos hk, if_pos hk, Option.getD_some]
      simp only [values, List.flatMap_cons, List.append_assoc]
      exact List.Perm.append_left _ List.perm_append_comm
    · rw [if_neg hk, if_neg hk]
      rw [extend, under] at ih
      simp only [values, List.flatMap_cons, List.append_assoc] at ih ⊢
      exact List.Perm.append_left _ ih

/-- What is under each key has it, and no key stands twice. -/
structure Keyed (key : α → κ) (m : List (κ × List α)) : Prop where
  nodup : (m.map Prod.fst).Nodup
  mem : ∀ entry ∈ m, ∀ x ∈ entry.2, key x = entry.1

variable {key : α → κ} {m : List (κ × List α)}

omit [DecidableEq κ] in
theorem Keyed.nil : Keyed key ([] : List (κ × List α)) where
  nodup := List.nodup_nil
  mem := fun _ h ↦ absurd h List.not_mem_nil

theorem Keyed.key_of_under (h : Keyed key m) {k : κ} {y : α} (hy : y ∈ under m k) : key y = k := by
  rw [under] at hy
  cases hlookup : lookup k m with
  | none =>
    rw [hlookup] at hy
    exact absurd hy List.not_mem_nil
  | some xs =>
    rw [hlookup] at hy
    exact h.mem (k, xs) (mem_of_lookup hlookup) y hy

/-- An assignment of elements of the key. -/
theorem Keyed.assign (h : Keyed key m) {k : κ} {xs : List α} (hxs : ∀ y ∈ xs, key y = k) :
    Keyed key (Dict.assign k xs m) where
  nodup := nodup_assign h.nodup
  mem := by
    intro entry hentry y hy
    rcases mem_assign hentry with rfl | hold
    · exact hxs y hy
    · exact h.mem entry hold y hy

theorem Keyed.extend (h : Keyed key m) {k : κ} {added : List α} (hadded : ∀ y ∈ added, key y = k) :
    Keyed key (extend k added m) := by
  apply h.assign
  intro y hy
  rcases List.mem_append.mp hy with hold | hnew
  · exact h.key_of_under hold
  · exact hadded y hnew

/-- The elements with a key are those under it. -/
theorem Keyed.filter_values (h : Keyed key m) (k : κ) :
    (values m).filter (fun y ↦ key y = k) = under m k := by
  induction m with
  | nil => rfl
  | cons entry rest ih =>
    have hrest : Keyed key rest :=
      ⟨(List.nodup_cons.mp h.nodup).2, fun e he ↦ h.mem e (List.mem_cons_of_mem _ he)⟩
    have htail := ih hrest
    rw [values, List.flatMap_cons, List.filter_append, under, lookup]
    rw [values] at htail
    rw [htail]
    by_cases hk : entry.1 = k
    · have hall : entry.2.filter (fun y ↦ key y = k) = entry.2 := by
        apply List.filter_eq_self.mpr
        intro y hy
        rw [decide_eq_true_iff, h.mem entry List.mem_cons_self y hy, hk]
      have hnone : lookup k rest = none := by
        rw [lookup_eq_none, ← hk]
        exact (List.nodup_cons.mp h.nodup).1
      rw [if_pos hk, hall, under, hnone, Option.getD_none, List.append_nil, Option.getD_some]
    · have hnil : entry.2.filter (fun y ↦ key y = k) = [] := by
        apply List.filter_eq_nil_iff.mpr
        intro y hy
        rw [decide_eq_true_iff, h.mem entry List.mem_cons_self y hy]
        exact hk
      rw [if_neg hk, hnil, List.nil_append, under]

theorem keyed_foldl_extend (xs : List α) (h : Keyed key m) :
    Keyed key (xs.foldl (fun m y ↦ Multimap.extend (key y) [y] m) m) := by
  induction xs generalizing m with
  | nil => exact h
  | cons first rest ih =>
    apply ih
    apply h.extend
    intro y hy
    rw [List.mem_singleton.mp hy]

theorem under_foldl_extend (xs : List α) (k : κ) :
    under (xs.foldl (fun m y ↦ extend (key y) [y] m) m) k =
      under m k ++ xs.filter fun y ↦ key y = k := by
  induction xs generalizing m with
  | nil => rw [List.foldl_nil, List.filter_nil, List.append_nil]
  | cons first rest ih =>
    rw [List.foldl_cons, ih, under_extend]
    by_cases hk : key first = k
    · rw [if_pos hk.symm, List.filter_cons_of_pos (by simpa using hk), hk, List.append_assoc,
        List.singleton_append]
    · rw [if_neg (Ne.symm hk), List.filter_cons_of_neg (by simpa using hk)]

theorem keyed_collect (xs : List α) : Keyed key (collect key xs) := keyed_foldl_extend xs .nil

theorem under_collect (xs : List α) (k : κ) :
    under (collect key xs) k = xs.filter fun y ↦ key y = k := by
  rw [collect, under_foldl_extend]
  rfl

/-! ### Keys and elements changed alike -/

section
variable {β : Type w} {ι : Type x} [DecidableEq ι] {f : κ → ι} (hf : f.Injective) (g : α → β)

/-- The keys and the elements changed. -/
def image (f : κ → ι) (g : α → β) (m : List (κ × List α)) : List (ι × List β) :=
  m.map fun entry ↦ (f entry.1, entry.2.map g)

include hf

theorem under_image (m : List (κ × List α)) (k : κ) :
    under (image f g m) (f k) = (under m k).map g := by
  rw [under, image, lookup_map hf (List.map g), under]
  cases lookup k m with
  | none => rfl
  | some xs => rfl

theorem extend_image (m : List (κ × List α)) (k : κ) (added : List α) :
    extend (f k) (added.map g) (image f g m) = image f g (extend k added m) := by
  rw [extend, under_image hf, ← List.map_append, image, assign_map hf (List.map g)]
  rfl

end

/-! ### Order within keys -/

/-- Every key has the same elements in the same order. -/
def SameByKey (key : α → κ) (xs ys : List α) : Prop :=
  ∀ k, xs.filter (fun y ↦ key y = k) = ys.filter fun y ↦ key y = k

theorem SameByKey.symm {xs ys : List α} (h : SameByKey key xs ys) : SameByKey key ys xs :=
  fun k ↦ (h k).symm

theorem sameByKey_collect (xs : List α) : SameByKey key xs (values (collect key xs)) := by
  intro k
  rw [(keyed_collect xs).filter_values, under_collect]

/-- An element before which its key does not stand is brought to the front. -/
theorem exists_front {k : κ} {y : α} {ys rest : List α}
    (h : ys.filter (fun z ↦ key z = k) = y :: rest) :
    ∃ before behind, ys = before ++ y :: behind ∧ (∀ z ∈ before, key z ≠ k) ∧ key y = k := by
  induction ys with
  | nil => cases h
  | cons first tail ih =>
    by_cases hk : key first = k
    · rw [List.filter_cons_of_pos (by simpa using hk)] at h
      cases h
      exact ⟨[], tail, rfl, fun z hz ↦ absurd hz List.not_mem_nil, hk⟩
    · rw [List.filter_cons_of_neg (by simpa using hk)] at h
      obtain ⟨before, behind, rfl, hbefore, hy⟩ := ih h
      refine ⟨first :: before, behind, rfl, ?_, hy⟩
      intro z hz
      rcases List.mem_cons.mp hz with rfl | hz
      · exact hk
      · exact hbefore z hz

/-- What exchanges of neighbours with different keys cannot break holds between two lists with the
same elements under every key. -/
theorem SameByKey.of_swaps {R : List α → List α → Prop} (nil : R [] [])
    (cons : ∀ y xs ys, R xs ys → R (y :: xs) (y :: ys))
    (swap : ∀ y z xs, key y ≠ key z → R (y :: z :: xs) (z :: y :: xs))
    (trans : ∀ xs ys zs, R xs ys → R ys zs → R xs zs) {xs ys : List α}
    (h : SameByKey key xs ys) : R xs ys := by
  have hrefl : ∀ xs, R xs xs := by
    intro xs
    induction xs with
    | nil => exact nil
    | cons y rest ih => exact cons y rest rest ih
  have hfront : ∀ (before : List α) (y : α) (behind : List α), (∀ z ∈ before, key z ≠ key y) →
      R (y :: (before ++ behind)) (before ++ y :: behind) := by
    intro before y behind hbefore
    induction before with
    | nil => exact hrefl _
    | cons z before ih =>
      apply trans _ (z :: y :: (before ++ behind))
      · exact swap y z _ (Ne.symm (hbefore z List.mem_cons_self))
      · exact cons z _ _ (ih fun z' hz' ↦ hbefore z' (List.mem_cons_of_mem _ hz'))
  induction xs generalizing ys with
  | nil =>
    cases ys with
    | nil => exact nil
    | cons z zs =>
      have hnil := h (key z)
      rw [List.filter_nil, List.filter_cons_of_pos (by simp)] at hnil
      cases hnil
  | cons y rest ih =>
    have hy := h (key y)
    rw [List.filter_cons_of_pos (by simp)] at hy
    obtain ⟨before, behind, rfl, hbefore, -⟩ := exists_front hy.symm
    apply trans _ (y :: (before ++ behind))
    · apply cons
      apply ih
      intro k
      have hk := h k
      rw [List.filter_append] at hk ⊢
      by_cases hyk : key y = k
      · have hnil : before.filter (fun z ↦ key z = k) = [] := by
          apply List.filter_eq_nil_iff.mpr
          intro z hz
          rw [decide_eq_true_iff, ← hyk]
          exact hbefore z hz
        rw [List.filter_cons_of_pos (by simpa using hyk), hnil,
          List.filter_cons_of_pos (by simpa using hyk), List.nil_append] at hk
        rw [hnil, List.nil_append]
        exact (List.cons.inj hk).2
      · rw [List.filter_cons_of_neg (by simpa using hyk),
          List.filter_cons_of_neg (by simpa using hyk)] at hk
        exact hk
    · exact hfront before y behind hbefore

end Multimap
end ScrapyCffi.Base
