import ScrapyCffi.Base.Datum

/-!
# Types of fields

Annotations and the values that have them, types built from annotations and from schemas, and the
two laws of a type under a dump: a value that the type keeps is read back from its dump, and a
value that is read from the dump of one is kept.
-/

namespace ScrapyCffi.Base.Typed

/-- What a number is compared with. -/
inductive Bound
  | gt (n : Int)
  | ge (n : Int)
  | le (n : Int)
  deriving DecidableEq

/-- An integer is within a bound. -/
def Bound.holds (m : Int) : Bound → Bool
  | .gt n => n < m
  | .ge n => n ≤ m
  | .le n => m ≤ n

/-- A type annotation without models. -/
inductive Annotation
  | any
  | bool
  | int (bounds : List Bound)
  | float (bounds : List Bound)
  | str
  | path
  | cls
  | subclass (base : String)
  | member (enum : String)
  | secret
  | callable
  | optional (t : Annotation)
  | union (s t : Annotation)
  | list (t : Annotation)
  | pair (s t : Annotation)
  | dict
  | mapping (t : Annotation)

/-- Where a field is and what is wrong with it. -/
abbrev Errors := List (List String × String)

/-- What is known of floats, classes and objects. -/
structure Instances (φ : Type) where
  within : φ → Bound → Bool
  subclass : String → String → Bool
  callable : Datum φ → Bool

/-- What reads values for annotations. -/
structure Checker (φ : Type) extends Instances φ where
  conform : Annotation → Datum φ → Except String (Datum φ)

variable {φ : Type}

/-- The values of an annotation; a mapping has strings as keys. -/
def Annotation.holds (c : Instances φ) : Annotation → Datum φ → Bool
  | .any, _ => true
  | .bool, .atom (.bool _) => true
  | .int bounds, .atom (.int n) => bounds.all (Bound.holds n)
  | .float bounds, .atom (.float x) => bounds.all (c.within x)
  | .str, .atom (.str _) => true
  | .path, .atom (.path _) => true
  | .cls, .atom (.cls _) => true
  | .subclass base, .atom (.cls name) => c.subclass name base
  | .member enum, .atom (.member name _) => name == enum
  | .secret, .atom (.secret _) => true
  | .callable, v => c.callable v
  | .optional t, v => v.isNone || t.holds c v
  | .union s t, v => s.holds c v || t.holds c v
  | .list t, .list items => items.all (t.holds c)
  | .pair s t, .tuple [x, y] => s.holds c x && t.holds c y
  | .dict, .dict _ => true
  | .mapping t, .dict entries => entries.all fun entry ↦
    (match entry.1 with
      | .str _ => true
      | _ => false) && t.holds c entry.2
  | _, _ => false

/-- The annotation leaves no part of a value free. -/
def Annotation.typed : Annotation → Bool
  | .any | .callable | .dict => false
  | .optional t | .list t | .mapping t => t.typed
  | .union s t | .pair s t => s.typed && t.typed
  | _ => true

/-- The laws of a checker: values that have a type stay as they are, what is read has the type, and
plain data are read as plain data. -/
structure Checker.Lawful (c : Checker φ) : Prop where
  conform_of_holds : ∀ t v, t.holds c.toInstances v = true → c.conform t v = .ok v
  holds_of_conform : ∀ t v w, c.conform t v = .ok w → t.holds c.toInstances w = true
  plain_of_conform : ∀ t v w, v.plain = true → c.conform t v = .ok w → w.plain = true

variable {c : Checker φ}

/-- Values of an annotation without free parts are plain. -/
theorem Annotation.plain_of_holds {t : Annotation} {v : Datum φ} (htyped : t.typed = true)
    (h : t.holds c.toInstances v = true) : v.plain = true := by
  induction t generalizing v with
  | any | callable | dict => cases htyped
  | bool | int | float | str | path | cls | subclass | member | secret =>
    cases v <;> first | rfl | cases h
  | optional t ih =>
    rw [ Annotation.holds, Bool.or_eq_true] at h
    rcases h with hnone | h
    · rw [Datum.isNone_iff.mp hnone]
      rfl
    · exact ih htyped h
  | union s t ihs iht =>
    rw [ Annotation.typed, Bool.and_eq_true] at htyped
    rw [ Annotation.holds, Bool.or_eq_true] at h
    rcases h with h | h
    · exact ihs htyped.1 h
    · exact iht htyped.2 h
  | list t ih =>
    cases v <;> try cases h
    next items =>
      apply plainItems_iff.mpr
      intro item hitem
      exact ih htyped (List.all_eq_true.mp h item hitem)
  | pair s t ihs iht =>
    rw [ Annotation.typed, Bool.and_eq_true] at htyped
    cases v <;> try cases h
    next items =>
      rcases items with _ | ⟨x, _ | ⟨y, _ | _⟩⟩ <;> try cases h
      rw [ Annotation.holds, Bool.and_eq_true] at h
      show (x.plain && (y.plain && true)) = true
      rw [ihs htyped.1 h.1, iht htyped.2 h.2]
      rfl
  | mapping t ih =>
    cases v <;> try cases h
    next entries =>
      apply plainEntries_iff.mpr
      intro entry hentry
      have hall := List.all_eq_true.mp h entry hentry
      rw [Bool.and_eq_true] at hall
      exact ih htyped hall.2

/-! ## Types -/

/-- A type: how a value is read, which values there are, and which of them a dump keeps. -/
structure FieldType (φ : Type) where
  check : Datum φ → Except Errors (Datum φ)
  Valid : Datum φ → Prop
  Kept : Datum φ → Prop

/-- The laws of a type under a dump. -/
structure FieldType.Lawful (t : FieldType φ) : Prop where
  check_dump : ∀ v, t.Valid v → t.Kept v → t.check v.dump = .ok v
  kept_of_check : ∀ v w, t.Valid v → t.check v.dump = .ok w → t.Kept w

/-- A step whose error is about the value itself. -/
def here {α : Type} : Except String α → Except Errors α
  | .ok a => .ok a
  | .error message => .error [([], message)]

/-- The errors below a name. -/
def below {α : Type} (name : String) : Except Errors α → Except Errors α
  | .ok a => .ok a
  | .error errors => .error (errors.map fun e ↦ (name :: e.1, e.2))

@[simp] theorem here_eq_ok {α : Type} {x : Except String α} {a : α} :
    here x = .ok a ↔ x = .ok a := by
  cases x <;> simp [here]

@[simp] theorem below_eq_ok {α : Type} {name : String} {x : Except Errors α} {a : α} :
    below name x = .ok a ↔ x = .ok a := by
  cases x <;> simp [below]

/-- A value of an annotation, with a check before and a step after it is read. -/
def FieldType.checked (c : Checker φ) (t : Annotation) (before : Datum φ → Except String Unit)
    (after : Datum φ → Except String (Datum φ)) : FieldType φ where
  check v := here (do
    before v
    after (← c.conform t v))
  Valid v := before v = .ok () ∧ t.holds c.toInstances v = true ∧ after v = .ok v
  Kept v := v.plain = true

/-- A value of an annotation. -/
def FieldType.plain (c : Checker φ) (t : Annotation) : FieldType φ :=
  .checked c t (fun _ ↦ .ok ()) .ok

/-- `None`, or a value of a type. -/
def FieldType.optional (t : FieldType φ) : FieldType φ where
  check v := if v.isNone then .ok v else t.check v
  Valid v := v = .none ∨ t.Valid v
  Kept v := v = .none ∨ t.Kept v

/-- The items that are read, each under its index. -/
def checkItems (t : FieldType φ) (index : Nat) : List (Datum φ) → Except Errors (List (Datum φ))
  | [] => .ok []
  | item :: rest =>
    match below (toString index) (t.check item), checkItems t (index + 1) rest with
    | .ok v, .ok vs => .ok (v :: vs)
    | .ok _, .error es => .error es
    | .error es, .ok _ => .error es
    | .error es, .error more => .error (es ++ more)

/-- A list of values of a type. -/
def FieldType.list (t : FieldType φ) : FieldType φ where
  check
    | .list items => (checkItems t 0 items).map .list
    | .tuple items => (checkItems t 0 items).map .list
    | _ => .error [([], "Input should be a valid list")]
  Valid v := ∃ items, v = .list items ∧ ∀ item ∈ items, t.Valid item
  Kept v := ∃ items, v = .list items ∧ ∀ item ∈ items, t.Kept item

section

variable {t : FieldType φ} {a : Annotation} {before : Datum φ → Except String Unit}
  {after : Datum φ → Except String (Datum φ)}

/-- A checked value is read back when it is plain. -/
theorem FieldType.checked_lawful (hc : c.Lawful)
    (hafter : ∀ v w, v.plain = true → after v = .ok w → w.plain = true) :
    (FieldType.checked c a before after).Lawful where
  check_dump v hv hkept := by
    obtain ⟨hbefore, hholds, hstep⟩ := hv
    have hconform := hc.conform_of_holds a v hholds
    show here _ = _
    rw [here_eq_ok, v.dump_eq_self hkept, hbefore, hconform]
    exact hstep
  kept_of_check v w hv h := by
    change here _ = _ at h
    rw [here_eq_ok, bind_eq_ok] at h
    obtain ⟨-, -, h⟩ := h
    obtain ⟨x, hconform, hstep⟩ := bind_eq_ok.mp h
    exact hafter x w (hc.plain_of_conform a v.dump x v.plain_dump hconform) hstep

theorem FieldType.plain_lawful (hc : c.Lawful) : (FieldType.plain c a).Lawful := by
  apply FieldType.checked_lawful hc
  intro v w hplain h
  cases h
  exact hplain

/-- A value of an annotation without free parts is kept. -/
theorem FieldType.kept_of_typed {v : Datum φ} (htyped : a.typed = true)
    (h : (FieldType.checked c a before after).Valid v) :
    (FieldType.checked c a before after).Kept v :=
  Annotation.plain_of_holds htyped h.2.1

theorem Datum.isNone_dump (v : Datum φ) : v.dump.isNone = v.isNone := by
  cases v <;> rfl

theorem FieldType.optional_lawful (ht : t.Lawful) : t.optional.Lawful where
  check_dump v hv hkept := by
    show (if v.dump.isNone = true then _ else _) = _
    by_cases hnone : v.isNone = true
    · rw [Datum.isNone_dump, if_pos hnone, Datum.isNone_iff.mp hnone]
      rfl
    · have hne : v ≠ .none := fun heq ↦ hnone (Datum.isNone_iff.mpr heq)
      rw [Datum.isNone_dump, if_neg hnone]
      exact ht.check_dump v (hv.resolve_left hne) (hkept.resolve_left hne)
  kept_of_check v w hv h := by
    change (if v.dump.isNone = true then _ else _) = _ at h
    by_cases hnone : v.isNone = true
    · rw [Datum.isNone_dump, if_pos hnone, Datum.isNone_iff.mp hnone] at h
      cases h
      exact .inl rfl
    · have hne : v ≠ .none := fun heq ↦ hnone (Datum.isNone_iff.mpr heq)
      rw [Datum.isNone_dump, if_neg hnone] at h
      exact .inr (ht.kept_of_check v w (hv.resolve_left hne) h)

/-- What a list of items is read as. -/
theorem checkItems_eq_ok {index : Nat} {items values : List (Datum φ)} :
    checkItems t index items = .ok values ↔
      List.Forall₂ (fun item value ↦ t.check item = .ok value) items values := by
  induction items generalizing index values with
  | nil =>
    rw [checkItems, List.forall₂_nil_left_iff]
    exact ⟨fun h ↦ by cases h; rfl, fun h ↦ by rw [h]⟩
  | cons item rest ih =>
    rw [checkItems]
    constructor
    · intro h
      split at h <;> try cases h
      next v vs hv hvs => exact .cons (below_eq_ok.mp hv) (ih.mp hvs)
    · intro h
      cases h with
      | cons hv hvs =>
        rw [below_eq_ok.mpr hv, ih.mpr hvs]

theorem dumpItems_eq_map (items : List (Datum φ)) : dumpItems items = items.map Datum.dump := by
  induction items with
  | nil => rfl
  | cons item rest ih => rw [dumpItems, ih, List.map_cons]

theorem FieldType.list_lawful (ht : t.Lawful) : t.list.Lawful where
  check_dump v hv hkept := by
    obtain ⟨items, rfl, hvalid⟩ := hv
    obtain ⟨others, heq, hkept⟩ := hkept
    cases heq
    have hitems : checkItems t 0 (dumpItems items) = .ok items := by
      rw [checkItems_eq_ok, dumpItems_eq_map, List.forall₂_map_left_iff, List.forall₂_same]
      exact fun item hitem ↦ ht.check_dump item (hvalid item hitem) (hkept item hitem)
    show (checkItems t 0 (dumpItems items)).map _ = _
    rw [hitems]
    rfl
  kept_of_check v w hv h := by
    obtain ⟨items, rfl, hvalid⟩ := hv
    change (checkItems t 0 (dumpItems items)).map _ = _ at h
    cases hitems : checkItems t 0 (dumpItems items) with
    | error es =>
      rw [hitems] at h
      cases h
    | ok values =>
      rw [hitems] at h
      cases h
      rw [checkItems_eq_ok, dumpItems_eq_map, List.forall₂_map_left_iff] at hitems
      refine ⟨values, rfl, ?_⟩
      induction hitems with
      | nil => exact fun value hvalue ↦ by cases hvalue
      | cons hvalue _ ih =>
        rw [List.forall_mem_cons] at hvalid ⊢
        exact ⟨ht.kept_of_check _ _ hvalid.1 hvalue, ih hvalid.2⟩

end

end ScrapyCffi.Base.Typed
