import ScrapyCffi.Settings.ModelLaws

/-!
# Component fields

`ComponentInfo` (`models/component.py:6–46`), `load_object` (`utils/common.py:110–133`) and the
validator of the four component fields (`settings.py:171–183`). A dump of a `ComponentInfo` is a
dictionary with the key `value`, which the validator takes for the path of a class.
-/

namespace ScrapyCffi.Settings

open ScrapyCffi.Base ScrapyCffi.Base.Typed

variable {φ : Type} (py : Python φ)

/-! ## Sorting -/

/-- A number without fractions. -/
def integral : Atom φ → Option Int
  | .bool b => some b.toNat
  | .int n => some n
  | _ => none

/-- A number. -/
def isNumber : Atom φ → Bool
  | .bool _ | .int _ | .float _ => true
  | _ => false

mutual

/-- `a < b`, or none where it raises `TypeError`. -/
def less [DecidableEq φ] : Datum φ → Datum φ → Option Bool
  | .atom a, .atom b =>
    match a, b, integral a, integral b with
    | .str s, .str t, _, _ => some (s < t)
    | _, _, some m, some n => some (m < n)
    | _, _, _, _ =>
      if isNumber a && isNumber b then some (py.lessFloat (.atom a) (.atom b)) else none
  | .list items, .list others => lessItems items others
  | .tuple items, .tuple others => lessItems items others
  | _, _ => none
  termination_by structural v => v

/-- The first items that differ decide. -/
def lessItems [DecidableEq φ] : List (Datum φ) → List (Datum φ) → Option Bool
  | [], [] => some false
  | [], _ :: _ => some true
  | _ :: _, [] => some false
  | item :: rest, other :: others =>
    if item.same other then lessItems rest others else less item other
  termination_by structural l => l

end

/-- An item in front of those that are not less. -/
def insertItem [DecidableEq φ] (item : Atom φ × Datum φ) :
    List (Atom φ × Datum φ) → Option (List (Atom φ × Datum φ))
  | [] => some [item]
  | first :: rest =>
    match less py first.2 item.2 with
    | none => none
    | some true => (insertItem item rest).map (first :: ·)
    | some false => some (item :: first :: rest)

/-- `sorted(raw.items(), key=lambda item: item[1])`, or none where a comparison raises. -/
def sortedItems [DecidableEq φ] :
    List (Atom φ × Datum φ) → Option (List (Atom φ × Datum φ))
  | [] => some []
  | item :: rest => (sortedItems rest).bind (insertItem py item)

/-! ## Loading -/

/-- The names that `models/component.py` binds. -/
def componentNames : List String :=
  ["StrictValidatedModel", "load_object", "List", "Type", "Union", "Dict", "Any", "Field",
    "ComponentInfo"]

/-- `getattr(module, name)` for that module; names with underscores in front are the
interpreter's. -/
def componentAttribute (name : String) : Option (Datum φ) :=
  if componentNames.contains name || "__".toList.isPrefixOf name.toList then
    py.componentAttribute name
  else none

/-- `path.rsplit(".", 1)`. -/
def rsplitDot (path : String) : String × String :=
  let reversed := path.toList.reverse
  let last := reversed.takeWhile (· != '.')
  (String.ofList (reversed.drop (last.length + 1)).reverse, String.ofList last.reverse)

/-- `load_object`, `common.py:110–133`, as `ComponentInfo` calls it. -/
def loadObject (path : String) : Except String (Datum φ) :=
  if path == "" then .error "Empty path is not allowed"
  else if path.toList.contains '.' then
    match py.importObject (rsplitDot path).1 (rsplitDot path).2 with
    | .ok object => .ok object
    | .error message => .error ("Cannot load '" ++ path ++ "': " ++ message)
  else
    match componentAttribute py path with
    | some object => .ok object
    | none =>
      .error ("Class '" ++ path ++ "' not found in module 'scrapy_cffi.models.component'")

/-- `ComponentInfo._load`, `component.py:39–46`. -/
def loadComponent (fieldName : String) (obj : Atom φ) : Except String (Datum φ) :=
  let failure (text message : String) : String :=
    fieldName ++ ": failed to load class from path '" ++ text ++ "': " ++ message
  match obj with
  | .cls name => .ok (.atom (.cls name))
  | .str path =>
    match loadObject py path with
    | .ok object => .ok object
    | .error message => .error (failure path message)
  | other => .error (failure (py.format (.atom other)) "not a path")

/-- All of them are loaded, or the first error. -/
def loadComponents (fieldName : String) : List (Atom φ) → Except String (List (Datum φ))
  | [] => .ok []
  | obj :: rest => do
    let item ← loadComponent py fieldName obj
    return item :: (← loadComponents fieldName rest)

/-! ## `ComponentInfo` -/

/-- The field of `ComponentInfo`, `component.py:7`. -/
def componentRows : List Row := [⟨"value", .list .cls, some .emptyList⟩]

/-- `ComponentInfo`, `component.py:6–7`. -/
def componentInfo : Schema φ := rowSchema py "ComponentInfo" componentRows

/-- `cls(value=items)`. -/
def ofItems [DecidableEq φ] (items : List (Datum φ)) : Except String (Datum φ) :=
  match (componentInfo py).check (.dict [(.str "value", .list items)]) with
  | .ok info => .ok info
  | .error errors => .error (String.intercalate "; " (errors.map Prod.snd))

/-- A path or a class. -/
def target : Datum φ → Option (Atom φ)
  | .atom (.str s) => some (.str s)
  | .atom (.cls name) => some (.cls name)
  | _ => none

/-- `ComponentInfo.from_raw`, `component.py:9–37`. -/
def fromRaw [DecidableEq φ] (fieldName : String) (raw : Datum φ) : Except String (Datum φ) :=
  match raw with
  | .dict entries =>
    match sortedItems py entries with
    | none => .error (fieldName ++ ": dict values must be sortable")
    | some items => do ofItems py (← loadComponents py fieldName (items.map Prod.fst))
  | .list items =>
    match items.mapM target with
    | some targets => do ofItems py (← loadComponents py fieldName targets)
    | none => .error (fieldName ++ ": list elements must be str or class")
  | other =>
    match target other with
    | some obj => do ofItems py (← loadComponents py fieldName [obj])
    | none =>
      if other.isNone then ofItems py []
      else .error (fieldName ++ ": must be dict, list of import paths/classes, " ++
        "an import path, or a class")

/-- The value is a `ComponentInfo`. -/
def isComponentInfo : Datum φ → Bool
  | .record title _ => title == "ComponentInfo"
  | _ => false

/-- The type of a component field with `validate_component`, `settings.py:171–183`. -/
def componentType [DecidableEq φ] (fieldName : String) : FieldType φ where
  check v := if v.isNone || isComponentInfo v then .ok v else here (fromRaw py fieldName v)
  Valid v := v = .none ∨ (componentInfo py).type.Valid v
  Kept v := v = .none

variable {py}

/-- The module of `ComponentInfo` has no class `value`. -/
theorem loadObject_value : loadObject py "value" =
    .error "Class 'value' not found in module 'scrapy_cffi.models.component'" := by
  have hnames : (componentNames.contains "value" || "__".toList.isPrefixOf "value".toList) =
      false := by decide
  have hdot : "value".toList.contains '.' = false := by decide
  have hempty : ("value" == "") = false := by decide
  have hmessage : "Class '" ++ "value" ++ "' not found in module 'scrapy_cffi.models.component'" =
      "Class 'value' not found in module 'scrapy_cffi.models.component'" := by decide
  simp only [loadObject, componentAttribute, hnames, hdot, hempty, hmessage, Bool.false_eq_true,
    if_false]

/-- The dump of a `ComponentInfo` is not read back. -/
theorem fromRaw_dump [DecidableEq φ] (fieldName : String) (v : Datum φ) :
    fromRaw py fieldName (.dict [(.str "value", v)]) =
      .error (fieldName ++ ": failed to load class from path '" ++ "value" ++ "': " ++
        "Class 'value' not found in module 'scrapy_cffi.models.component'") := by
  show (do ofItems py (← loadComponents py fieldName [.str "value"])) = _
  simp only [loadComponents, loadComponent, loadObject_value]
  rfl

/-- A dump keeps a component field that is `None`, and no other. -/
theorem componentType_lawful [DecidableEq φ] (fieldName : String) :
    (componentType py fieldName).Lawful where
  check_dump v hv hkept := by
    cases hkept
    rfl
  kept_of_check v w hv h := by
    rcases hv with rfl | ⟨values, rfl, haligned, -⟩
    · cases h
      rfl
    · cases haligned with
      | cons hfirst hrest =>
        next p ps =>
        cases hrest
        obtain ⟨name, value⟩ := p
        obtain ⟨rfl, -⟩ := hfirst
        have hcheck : (componentType py fieldName).check (.dict [(.str "value", value.dump)]) =
            here (fromRaw py fieldName (.dict [(.str "value", value.dump)])) := by
          simp only [componentType, Datum.isNone, isComponentInfo, Bool.or_self,
            Bool.false_eq_true, if_false]
        rw [fromRaw_dump] at hcheck
        cases hcheck.symm.trans h

end ScrapyCffi.Settings
