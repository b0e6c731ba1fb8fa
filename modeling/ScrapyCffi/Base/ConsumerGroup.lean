import Mathlib.Data.List.Range

/-!
# Consumer groups of an append-only log

An entry is known by its place in the log. A group delivers each entry to one of its consumers, and
keeps it pending until it is acknowledged.
-/

namespace ScrapyCffi.Base

universe u v

/-- A group that began before the entry `first`, has delivered the entries before `last`, and waits
for the acknowledgement of those that are pending, each with its consumer. -/
structure ConsumerGroup (κ : Type u) where
  first : Nat
  last : Nat
  pending : List (Nat × κ)
  first_le : first ≤ last

namespace ConsumerGroup

variable {κ : Type u} {α : Type v}

/-- A group that begins before some entry. -/
def create (start : Nat) : ConsumerGroup κ := ⟨start, start, [], Nat.le_refl start⟩

variable (g : ConsumerGroup κ)

/-- The entries that a read of some count delivers, with their places. -/
def fresh (log : List α) (count : Nat) : List (α × Nat) :=
  ((log.drop g.last).take count).zipIdx g.last

/-- The group after it delivered some entries. -/
def deliver (consumer : κ) (count : Nat) : ConsumerGroup κ where
  first := g.first
  last := g.last + count
  pending := g.pending ++ (List.range' g.last count).map fun place ↦ (place, consumer)
  first_le := Nat.le_add_right_of_le g.first_le

/-- The entries from some place on that are pending for a consumer, with their places. -/
def history [DecidableEq κ] (log : List α) (consumer : κ) (start count : Nat) : List (α × Nat) :=
  ((g.pending.filter fun entry ↦ entry.2 = consumer ∧ start ≤ entry.1).take count).filterMap
    fun entry ↦ log[entry.1]?.map fun a ↦ (a, entry.1)

/-- The group after an entry was acknowledged. -/
def acknowledge (place : Nat) : ConsumerGroup κ :=
  { g with pending := g.pending.filter fun entry ↦ entry.1 ≠ place }

/-- Some entry is pending. -/
def IsPending (place : Nat) : Prop := place ∈ g.pending.map Prod.fst

variable {g}

/-- What is pending was delivered. -/
def Sound (g : ConsumerGroup κ) (log : List α) : Prop :=
  g.last ≤ log.length ∧ ∀ place, g.IsPending place → place < g.last

theorem not_isPending_create (start place : Nat) : ¬(create start : ConsumerGroup κ).IsPending place :=
  List.not_mem_nil

theorem sound_create {log : List α} {start : Nat} (h : start ≤ log.length) :
    (create start : ConsumerGroup κ).Sound log :=
  ⟨h, fun place hplace ↦ absurd hplace (not_isPending_create start place)⟩

theorem Sound.append {log : List α} (h : g.Sound log) (more : List α) : g.Sound (log ++ more) := by
  constructor
  · rw [List.length_append]
    exact Nat.le_add_right_of_le h.1
  · exact h.2

theorem isPending_deliver {consumer : κ} {count place : Nat} :
    (g.deliver consumer count).IsPending place ↔
      g.IsPending place ∨ g.last ≤ place ∧ place < g.last + count := by
  rw [IsPending, deliver, List.map_append, List.mem_append, List.map_map]
  apply or_congr Iff.rfl
  have hplaces : (List.range' g.last count).map (Prod.fst ∘ fun place ↦ (place, consumer)) =
      List.range' g.last count := List.map_id _
  rw [hplaces, List.mem_range'_1]

theorem Sound.deliver {log : List α} (h : g.Sound log) (consumer : κ) {count : Nat}
    (hcount : g.last + count ≤ log.length) : (g.deliver consumer count).Sound log := by
  refine ⟨hcount, fun place hplace ↦ ?_⟩
  rcases isPending_deliver.mp hplace with hold | hnew
  · exact Nat.lt_add_right count (h.2 place hold)
  · exact hnew.2

theorem isPending_acknowledge {place other : Nat} :
    (g.acknowledge place).IsPending other ↔ g.IsPending other ∧ other ≠ place := by
  rw [IsPending, IsPending, acknowledge, List.mem_map, List.mem_map]
  constructor
  · rintro ⟨entry, hentry, rfl⟩
    obtain ⟨hmem, hne⟩ := List.mem_filter.mp hentry
    exact ⟨⟨entry, hmem, rfl⟩, of_decide_eq_true hne⟩
  · rintro ⟨⟨entry, hmem, rfl⟩, hne⟩
    exact ⟨entry, List.mem_filter.mpr ⟨hmem, decide_eq_true hne⟩, rfl⟩

theorem Sound.acknowledge {log : List α} (h : g.Sound log) (place : Nat) :
    (g.acknowledge place).Sound log :=
  ⟨h.1, fun other hother ↦ h.2 other (isPending_acknowledge.mp hother).1⟩

/-- A read delivers what is left of the log, up to its count. -/
theorem length_fresh (log : List α) (count : Nat) :
    (g.fresh log count).length = min count (log.length - g.last) := by
  rw [fresh, List.length_zipIdx, List.length_take, List.length_drop]

/-- The first entry of a read is the next of the log. -/
theorem fresh_eq_cons {log : List α} {count place : Nat} {a : α} {rest : List (α × Nat)}
    (h : g.fresh log count = (a, place) :: rest) : place = g.last ∧ log[g.last]? = some a := by
  rw [fresh] at h
  cases hentries : (log.drop g.last).take count with
  | nil =>
    rw [hentries] at h
    cases h
  | cons next others =>
    rw [hentries, List.zipIdx_cons] at h
    cases h
    have hfirst : ((log.drop g.last).take count)[0]? = some a := by
      rw [hentries]
      rfl
    rw [List.getElem?_take, List.getElem?_drop, Nat.add_zero] at hfirst
    split at hfirst
    · exact ⟨rfl, hfirst⟩
    · cases hfirst

end ConsumerGroup
end ScrapyCffi.Base
