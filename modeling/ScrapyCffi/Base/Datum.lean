import ScrapyCffi.Base.Dict
import ScrapyCffi.Base.Except

/-!
# Values and their dumps

The values of a dynamic language, and the plain data that a dump makes of them.
-/

namespace ScrapyCffi.Base.Typed

/-- A value without parts; an object of any other class is known by its identity. -/
inductive Atom (φ : Type)
  | none
  | bool (b : Bool)
  | int (n : Int)
  | float (x : φ)
  | str (s : String)
  | path (s : String)
  | cls (name : String)
  | member (enum value : String)
  | secret (s : String)
  | object (identity : Nat)
  deriving DecidableEq

/-- A value; a record is an instance of a model or of a data class. -/
inductive Datum (φ : Type)
  | atom (a : Atom φ)
  | list (items : List (Datum φ))
  | tuple (items : List (Datum φ))
  | dict (entries : List (Atom φ × Datum φ))
  | record (title : String) (fields : List (String × Datum φ))

variable {φ : Type}

/-- `None`. -/
@[match_pattern] def Datum.none : Datum φ := .atom .none

/-- A string. -/
@[match_pattern] def Datum.str (s : String) : Datum φ := .atom (.str s)

/-- The value is `None`. -/
def Datum.isNone : Datum φ → Bool
  | .atom .none => true
  | _ => false

theorem Datum.isNone_iff {v : Datum φ} : v.isNone = true ↔ v = .none := by
  constructor
  · intro h
    unfold Datum.isNone at h
    split at h
    · rfl
    · cases h
  · rintro rfl
    rfl

mutual

/-- Two values have the same parts. -/
def Datum.same [DecidableEq φ] : Datum φ → Datum φ → Bool
  | .atom a, .atom b => decide (a = b)
  | .list items, .list others => sameItems items others
  | .tuple items, .tuple others => sameItems items others
  | .dict entries, .dict others => sameEntries entries others
  | .record title fields, .record other others => title == other && sameFields fields others
  | _, _ => false
  termination_by structural v => v

/-- The same items. -/
def sameItems [DecidableEq φ] : List (Datum φ) → List (Datum φ) → Bool
  | [], [] => true
  | item :: rest, other :: others => item.same other && sameItems rest others
  | _, _ => false
  termination_by structural l => l

/-- The same entries in the same order. -/
def sameEntries [DecidableEq φ] : List (Atom φ × Datum φ) → List (Atom φ × Datum φ) → Bool
  | [], [] => true
  | (key, value) :: rest, (other, datum) :: others =>
    decide (key = other) && value.same datum && sameEntries rest others
  | _, _ => false
  termination_by structural l => l

/-- The same fields in the same order. -/
def sameFields [DecidableEq φ] : List (String × Datum φ) → List (String × Datum φ) → Bool
  | [], [] => true
  | (name, value) :: rest, (other, datum) :: others =>
    name == other && value.same datum && sameFields rest others
  | _, _ => false
  termination_by structural l => l

end

/-! ## Dumps -/

mutual

/-- The data of a value: records become dictionaries, everything else stays. -/
def Datum.dump : Datum φ → Datum φ
  | .atom a => .atom a
  | .list items => .list (dumpItems items)
  | .tuple items => .tuple (dumpItems items)
  | .dict entries => .dict (dumpEntries entries)
  | .record _ fields => .dict (dumpFields fields)
  termination_by structural v => v

/-- The data of each item. -/
def dumpItems : List (Datum φ) → List (Datum φ)
  | [] => []
  | item :: rest => item.dump :: dumpItems rest
  termination_by structural l => l

/-- The data of each entry. -/
def dumpEntries : List (Atom φ × Datum φ) → List (Atom φ × Datum φ)
  | [] => []
  | (key, value) :: rest => (key, value.dump) :: dumpEntries rest
  termination_by structural l => l

/-- The data of each field, under its name. -/
def dumpFields : List (String × Datum φ) → List (Atom φ × Datum φ)
  | [] => []
  | (name, value) :: rest => (.str name, value.dump) :: dumpFields rest
  termination_by structural l => l

end

mutual

/-- No part of the value is a record. -/
def Datum.plain : Datum φ → Bool
  | .atom _ => true
  | .list items => plainItems items
  | .tuple items => plainItems items
  | .dict entries => plainEntries entries
  | .record _ _ => false
  termination_by structural v => v

/-- All items are plain. -/
def plainItems : List (Datum φ) → Bool
  | [] => true
  | item :: rest => item.plain && plainItems rest
  termination_by structural l => l

/-- All values of a dictionary are plain. -/
def plainEntries : List (Atom φ × Datum φ) → Bool
  | [] => true
  | (_, value) :: rest => value.plain && plainEntries rest
  termination_by structural l => l

end

mutual

/-- Plain data are their own dump. -/
theorem Datum.dump_eq_self (v : Datum φ) (h : v.plain = true) : v.dump = v := by
  match v with
  | .atom a => rfl
  | .list items => rw [Datum.dump, dumpItems_eq_self items h]
  | .tuple items => rw [Datum.dump, dumpItems_eq_self items h]
  | .dict entries => rw [Datum.dump, dumpEntries_eq_self entries h]
  | .record _ _ => cases h

theorem dumpItems_eq_self (items : List (Datum φ)) (h : plainItems items = true) :
    dumpItems items = items := by
  match items with
  | [] => rfl
  | item :: rest =>
    rw [plainItems, Bool.and_eq_true] at h
    rw [dumpItems, item.dump_eq_self h.1, dumpItems_eq_self rest h.2]

theorem dumpEntries_eq_self (entries : List (Atom φ × Datum φ))
    (h : plainEntries entries = true) : dumpEntries entries = entries := by
  match entries with
  | [] => rfl
  | (key, value) :: rest =>
    rw [plainEntries, Bool.and_eq_true] at h
    rw [dumpEntries, value.dump_eq_self h.1, dumpEntries_eq_self rest h.2]

end

mutual

/-- A dump is plain. -/
theorem Datum.plain_dump (v : Datum φ) : v.dump.plain = true := by
  match v with
  | .atom a => rfl
  | .list items => exact plainItems_dumpItems items
  | .tuple items => exact plainItems_dumpItems items
  | .dict entries => exact plainEntries_dumpEntries entries
  | .record _ fields => exact plainEntries_dumpFields fields

theorem plainItems_dumpItems (items : List (Datum φ)) : plainItems (dumpItems items) = true := by
  match items with
  | [] => rfl
  | item :: rest =>
    rw [dumpItems, plainItems, item.plain_dump, plainItems_dumpItems rest, Bool.and_true]

theorem plainEntries_dumpEntries (entries : List (Atom φ × Datum φ)) :
    plainEntries (dumpEntries entries) = true := by
  match entries with
  | [] => rfl
  | (key, value) :: rest =>
    rw [dumpEntries, plainEntries, value.plain_dump, plainEntries_dumpEntries rest, Bool.and_true]

theorem plainEntries_dumpFields (fields : List (String × Datum φ)) :
    plainEntries (dumpFields fields) = true := by
  match fields with
  | [] => rfl
  | (name, value) :: rest =>
    rw [dumpFields, plainEntries, value.plain_dump, plainEntries_dumpFields rest, Bool.and_true]

end

theorem plainItems_iff {items : List (Datum φ)} :
    plainItems items = true ↔ ∀ item ∈ items, item.plain = true := by
  induction items with
  | nil => simp [plainItems]
  | cons item rest ih => rw [plainItems, Bool.and_eq_true, ih, List.forall_mem_cons]

theorem plainEntries_iff {entries : List (Atom φ × Datum φ)} :
    plainEntries entries = true ↔ ∀ entry ∈ entries, entry.2.plain = true := by
  induction entries with
  | nil => simp [plainEntries]
  | cons entry rest ih => rw [plainEntries, Bool.and_eq_true, ih, List.forall_mem_cons]

/-- The dumped value under a name. -/
theorem lookup_dumpFields (name : String) (fields : List (String × Datum φ)) [DecidableEq φ] :
    Dict.lookup (.str name) (dumpFields fields) = (Dict.lookup name fields).map Datum.dump := by
  induction fields with
  | nil => rfl
  | cons field rest ih =>
    obtain ⟨key, value⟩ := field
    rw [dumpFields, Dict.lookup, Dict.lookup, ih]
    by_cases h : key = name
    · rw [if_pos (congrArg Atom.str h), if_pos h, Option.map_some]
    · rw [if_neg (fun heq ↦ h (Atom.str.inj heq)), if_neg h]

end ScrapyCffi.Base.Typed
