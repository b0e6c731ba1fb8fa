import Mathlib.Data.List.Basic
import Mathlib.Logic.Relation
import ScrapyCffi.Robots.Rules

/-!
# Documents

The values that JSON parsers return, their parts, and when two of them are equal. The type of
numbers is left open; a text is the list of its characters.
-/

namespace ScrapyCffi.JsonScan

open Relation
open ScrapyCffi.Robots (Text)

variable {ν : Type}

/-- A value of a document; the members of an object stand in their order. -/
inductive Value (ν : Type)
  | null
  | bool (b : Bool)
  | number (n : ν)
  | string (text : Text)
  | array (items : List (Value ν))
  | object (members : List (Text × Value ν))

namespace Value

/-- `isinstance(value, (dict, list))`. -/
def isContainer : Value ν → Bool
  | array _ => true
  | object _ => true
  | _ => false

/-- `bool(value)`. -/
def truthy (isZero : ν → Bool) : Value ν → Bool
  | null => false
  | bool b => b
  | number n => !isZero n
  | string text => !text.isEmpty
  | array items => !items.isEmpty
  | object members => !members.isEmpty

/-- The values directly in a container. -/
def children : Value ν → List (Value ν)
  | array items => items
  | object members => members.map Prod.snd
  | _ => []

/-- A container without values in it is falsy. -/
theorem children_of_not_truthy {isZero : ν → Bool} {value : Value ν}
    (hcontainer : value.isContainer = true) (h : value.truthy isZero = false) :
    value.children = [] := by
  cases value with
  | array items => simpa [truthy, children] using h
  | object members =>
    rw [truthy, Bool.not_eq_false', List.isEmpty_iff] at h
    rw [children, h, List.map_nil]
  | _ => cases hcontainer

/-- The second value is the first one or in it, at any depth. -/
abbrev Part : Value ν → Value ν → Prop := ReflTransGen fun value inner ↦ inner ∈ value.children

/-- The values that an object's members bind to a key. -/
def valuesOf (key : Text) (members : List (Text × Value ν)) : List (Value ν) :=
  members.filterMap fun m ↦ if m.1 = key then some m.2 else none

/-- The first member, if it is one of the key, and the rest. -/
theorem valuesOf_cons (key : Text) (m : Text × Value ν) (rest : List (Text × Value ν)) :
    valuesOf key (m :: rest) = (if m.1 = key then [m.2] else []) ++ valuesOf key rest := by
  rw [valuesOf, List.filterMap_cons]
  by_cases hkey : m.1 = key
  · rw [if_pos hkey, if_pos hkey]; rfl
  · rw [if_neg hkey, if_neg hkey]; rfl

theorem mem_valuesOf {key : Text} {members : List (Text × Value ν)} {value : Value ν} :
    value ∈ valuesOf key members ↔ (key, value) ∈ members := by
  rw [valuesOf, List.mem_filterMap]
  constructor
  · rintro ⟨⟨k, v⟩, hmem, h⟩
    rw [Option.ite_none_right_eq_some] at h
    obtain ⟨rfl, hv⟩ := h
    rwa [← Option.some.inj hv]
  · intro hmem
    exact ⟨_, hmem, if_pos rfl⟩

/-- `value` is bound to `key` at some depth of the document. -/
def Bound (key : Text) (doc value : Value ν) : Prop :=
  ∃ members, Part doc (.object members) ∧ (key, value) ∈ members

end Value

/-! ## Equality of values -/

/-- A value without the order of the members of its objects. -/
inductive View (ν : Type)
  | null
  | bool (b : Bool)
  | number (n : ν)
  | string (text : Text)
  | array (items : List (View ν))
  | object (valuesOf : Text → List (View ν))

mutual

/-- What `==` sees of a value. -/
def Value.view : Value ν → View ν
  | .null => .null
  | .bool b => .bool b
  | .number n => .number n
  | .string text => .string text
  | .array items => .array (viewItems items)
  | .object members => .object (viewMembers members)

/-- The items of an array as `==` sees them. -/
def viewItems : List (Value ν) → List (View ν)
  | [] => []
  | item :: rest => item.view :: viewItems rest

/-- The members of an object as `==` sees them. -/
def viewMembers : List (Text × Value ν) → Text → List (View ν)
  | [], _ => []
  | (k, value) :: rest, key =>
    if k = key then value.view :: viewMembers rest key else viewMembers rest key

end

@[simp] theorem viewItems_eq_map (items : List (Value ν)) :
    viewItems items = items.map Value.view := by
  induction items with
  | nil => rfl
  | cons item rest ih => rw [viewItems, ih, List.map_cons]

@[simp] theorem viewMembers_apply (members : List (Text × Value ν)) (key : Text) :
    viewMembers members key = (Value.valuesOf key members).map Value.view := by
  induction members with
  | nil => rfl
  | cons m rest ih =>
    rw [viewMembers, ih, Value.valuesOf_cons]
    by_cases hkey : m.1 = key
    · rw [if_pos hkey, if_pos hkey]; rfl
    · rw [if_neg hkey, if_neg hkey]; rfl

namespace Value

/-- `a == b`, the order of members aside. -/
def Same (a b : Value ν) : Prop := a.view = b.view

theorem Same.symm {a b : Value ν} (h : Same a b) : Same b a := Eq.symm h

/-- Only a string is the same as a string. -/
theorem Same.string_eq {a : Value ν} {text : Text} (h : Same a (.string text)) :
    a = .string text := by
  cases a with
  | string other => exact congrArg _ (View.string.inj h)
  | _ => cases h

/-- Only an array is the same as an array, item by item. -/
theorem Same.array_eq {a : Value ν} {items : List (Value ν)} (h : Same a (.array items)) :
    ∃ others, a = .array others ∧ others.map view = items.map view := by
  cases a with
  | array others =>
    have hitems := View.array.inj h
    rw [viewItems_eq_map, viewItems_eq_map] at hitems
    exact ⟨others, rfl, hitems⟩
  | _ => cases h

theorem Same.array_nil {a : Value ν} (h : Same a (.array [])) : a = .array [] := by
  obtain ⟨others, rfl, hviews⟩ := h.array_eq
  rw [List.map_eq_nil_iff.mp hviews]

/-- Only an object is the same as an object, key by key. -/
theorem Same.object_eq {a : Value ν} {members : List (Text × Value ν)}
    (h : Same a (.object members)) :
    ∃ others, a = .object others ∧
      ∀ key, (valuesOf key others).map view = (valuesOf key members).map view := by
  cases a with
  | object others =>
    refine ⟨others, rfl, fun key ↦ ?_⟩
    rw [← viewMembers_apply, ← viewMembers_apply]
    exact congrFun (View.object.inj h) key
  | _ => cases h

/-- Of two lists with the same views, each value of one has its like in the other. -/
theorem exists_same_of_map_view {values others : List (Value ν)} {value : Value ν}
    (h : others.map view = values.map view) (hmem : value ∈ values) :
    ∃ other ∈ others, Same other value := by
  have hview : value.view ∈ others.map view := h ▸ List.mem_map_of_mem hmem
  exact List.mem_map.mp hview

/-- The same objects bind the same values. -/
theorem Same.exists_bound {members others : List (Text × Value ν)} {key : Text} {value : Value ν}
    (h : Same (.object others) (.object members)) (hmem : value ∈ valuesOf key members) :
    ∃ other ∈ valuesOf key others, Same other value := by
  obtain ⟨_, heq, hviews⟩ := h.object_eq
  cases heq
  exact exists_same_of_map_view (hviews key) hmem

/-- The same values have the same children. -/
theorem Same.exists_child {a b inner : Value ν} (h : Same a b) (hmem : inner ∈ b.children) :
    ∃ other ∈ a.children, Same other inner := by
  cases b with
  | array items =>
    obtain ⟨others, rfl, hviews⟩ := h.array_eq
    exact exists_same_of_map_view hviews hmem
  | object members =>
    obtain ⟨⟨key, value⟩, hmember, rfl⟩ := List.mem_map.mp hmem
    obtain ⟨others, rfl, -⟩ := h.object_eq
    obtain ⟨other, hother, hsame⟩ := h.exists_bound (mem_valuesOf.mpr hmember)
    exact ⟨other, List.mem_map_of_mem (mem_valuesOf.mp hother), hsame⟩
  | _ => cases hmem

theorem Same.children_eq_nil {a b : Value ν} (h : Same a b) (ha : a.children = []) :
    b.children = [] := by
  refine List.eq_nil_iff_forall_not_mem.mpr fun inner hinner ↦ ?_
  obtain ⟨other, hother, -⟩ := h.exists_child hinner
  rw [ha] at hother
  cases hother

/-- What is the same as a falsy value is falsy. -/
theorem Same.falsy {isZero : ν → Bool} {a b : Value ν} (h : Same a b)
    (ha : a.truthy isZero = false) : b.truthy isZero = false := by
  cases b with
  | array items =>
    obtain ⟨others, rfl, -⟩ := h.array_eq
    have hitems : items = [] := h.children_eq_nil (children_of_not_truthy rfl ha)
    rw [hitems]
    rfl
  | object members =>
    obtain ⟨others, rfl, -⟩ := h.object_eq
    have hmembers : members.map Prod.snd = [] := h.children_eq_nil (children_of_not_truthy rfl ha)
    rw [List.map_eq_nil_iff.mp hmembers]
    rfl
  | _ =>
    cases a <;> cases h
    exact ha

end Value
end ScrapyCffi.JsonScan
