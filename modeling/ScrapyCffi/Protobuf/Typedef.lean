import ScrapyCffi.Base.Dict
import ScrapyCffi.Protobuf.Kinds

/-!
# Type definitions

`schema/typedef.py` and `config.py` of `utils/blackboxprotobuf`. A definition gives each field a
type, or several under the ids "0", "1" and so on of its alternatives. A dictionary is the list of
its entries, in the order of their insertion.
-/

namespace ScrapyCffi.Protobuf

open ScrapyCffi.Base

/-- The name of a type: a key of `ENCODERS`, or any other text. -/
inductive TypeName
  | kind (k : Kind)
  | other (name : String)
  deriving DecidableEq

/-- The text of a type's name. -/
def TypeName.text : TypeName → String
  | .kind k => k.name
  | .other name => name

/-- `BaseWireTypes[name]`; `KeyError` is `none`. -/
def TypeName.baseWireType : TypeName → Option Nat
  | .kind _ => none
  | .other name =>
    if name = "VARINT" then some varintType
    else if name = "FIXED64" then some fixed64Type
    else if name = "LENGTH_DELIMITED" then some lengthDelimitedType
    else if name = "START_GROUP" then some startGroupType
    else if name = "END_GROUP" then some endGroupType
    else if name = "FIXED32" then some fixed32Type
    else none

mutual
/-- `TypeDef`, `typedef.py:9–55`. -/
structure TypeDef where
  fields : List (Text × FieldDef)
  fieldNames : List (Text × Text)

/-- `FieldDef`, `typedef.py:57–232`. -/
structure FieldDef where
  name : Option Text
  fieldId : Text
  messageTypeName : Option String
  types : List (Text × FieldType)
  seenRepeated : Bool
  fieldOrder : Option (List Text)

/-- `Union[str, TypeDef]`. -/
inductive FieldType
  | named (type : TypeName)
  | message (typedef : TypeDef)
end

mutual
/-- `TypeDefDict`, `pytypes.py`. -/
structure TypeDefDict where
  entries : List (Text × FieldDefDict)

/-- `FieldDefDict`, `pytypes.py`. A key that is absent is `none`. -/
structure FieldDefDict where
  name : Option Text
  type : Option TypeName
  messageTypeName : Option String
  messageTypedef : Option TypeDefDict
  altTypedefs : List (Text × AltTypedef)
  seenRepeated : Option Bool
  fieldOrder : Option (List Text)

/-- `Union[str, TypeDefDict]`. -/
inductive AltTypedef
  | named (type : TypeName)
  | message (typedef : TypeDefDict)
end

/-- `Config`, `config.py:8–27`. -/
structure Config where
  knownTypes : List (String × TypeDefDict)
  defaultBinaryType : TypeName
  defaultTypes : List (Nat × TypeName)
  preserveFieldOrder : Bool

/-- `default`, `config.py:41`. -/
def Config.default : Config := ⟨[], .kind .bytes, [], true⟩

/-- `WIRE_TYPE_DEFAULTS`, `models.py:43–50`. -/
def wireTypeDefault (wireType : Nat) : Option TypeName :=
  if wireType = varintType then some (.kind (.scalar .int))
  else if wireType = fixed32Type then some (.kind (.scalar .fixed32))
  else if wireType = fixed64Type then some (.kind (.scalar .fixed64))
  else none

/-- `Config.get_default_type`, `config.py:29–38`. -/
def Config.getDefaultType (config : Config) (wireType : Nat) : Except Exc TypeName :=
  match (Dict.lookup wireType config.defaultTypes).or (wireTypeDefault wireType) with
  | some type => .ok type
  | none => .error (.decoder (.noDefault wireType) none)

/-! ### Keys of messages -/

/-- `key.split("-", 1)[0]`. -/
def beforeDash (key : Text) : Text := key.takeWhile (· ≠ '-')

/-- `key.split("-", 1)[1]`, if there is one. -/
def afterDash (key : Text) : Option Text :=
  match key.dropWhile (· ≠ '-') with
  | [] => none
  | _ :: rest => some rest

/-- `str(n)`. -/
def str (n : Nat) : Text := Nat.toDigits 10 n

/-- `str(n)` of an integer. -/
def strInt (n : Int) : Text := if n < 0 then '-' :: str n.natAbs else str n.natAbs

/-- The number that ASCII digits make up. -/
def natOfDigits (digits : Text) : Option Nat :=
  if digits ≠ [] ∧ digits.all Char.isDigit then some (Nat.ofDigitChars 10 digits 0) else none

/-- `int(text)` of an optional sign and ASCII digits; `ValueError` is `none`. -/
def intOfText : Text → Option Int
  | '-' :: rest => (natOfDigits rest).map fun n : Nat ↦ -(n : Int)
  | '+' :: rest => (natOfDigits rest).map fun n : Nat ↦ (n : Int)
  | text => (natOfDigits text).map fun n : Nat ↦ (n : Int)

/-! ### Definitions of fields -/

mutual
/-- `TypeDef.from_dict`, `typedef.py:14–22`. -/
def TypeDef.fromDict : TypeDefDict → TypeDef
  | ⟨entries⟩ =>
    { fields := fieldsFromDict entries
      fieldNames := entries.foldl (fun names entry ↦
        match entry.2.name with
        | some name => if name = [] then names else Dict.assign name entry.1 names
        | none => names) [] }

/-- The fields of a definition. -/
def fieldsFromDict : List (Text × FieldDefDict) → List (Text × FieldDef)
  | [] => []
  | (fieldId, d) :: rest => (fieldId, FieldDef.fromDict d fieldId) :: fieldsFromDict rest

/-- `FieldDef.from_dict`, `typedef.py:70–107`. -/
def FieldDef.fromDict : FieldDefDict → Text → FieldDef
  | ⟨name, type, messageTypeName, messageTypedef, altTypedefs, seenRepeated, fieldOrder⟩, fieldId =>
    { name := name
      fieldId := fieldId
      messageTypeName := messageTypeName
      types := altsFromDict altTypedefs (typeFromDict type messageTypedef)
      seenRepeated := seenRepeated.getD false
      fieldOrder := fieldOrder }

/-- The type under the id "0". -/
def typeFromDict (type : Option TypeName) : Option TypeDefDict → List (Text × FieldType)
  | none =>
    match type with
    | none => []
    | some type => [("0".toList, .named type)]
  | some typedef =>
    match type with
    | none => []
    | some type =>
      if type = .other "message" then [("0".toList, .message (TypeDef.fromDict typedef))]
      else [("0".toList, .named type)]

/-- The alternatives are added to the types. -/
def altsFromDict : List (Text × AltTypedef) → List (Text × FieldType) → List (Text × FieldType)
  | [], types => types
  | (altNumber, alt) :: rest, types =>
    altsFromDict rest (Dict.assign altNumber (FieldType.fromDict alt) types)

def FieldType.fromDict : AltTypedef → FieldType
  | .named type => .named type
  | .message typedef => .message (TypeDef.fromDict typedef)
end

mutual
/-- `TypeDef.to_dict`, `typedef.py:24–25`. -/
def TypeDef.toDict : TypeDef → TypeDefDict
  | ⟨fields, _⟩ => ⟨fieldsToDict fields⟩

def fieldsToDict : List (Text × FieldDef) → List (Text × FieldDefDict)
  | [] => []
  | (fieldId, fielddef) :: rest => (fieldId, fielddef.toDict) :: fieldsToDict rest

/-- `FieldDef.to_dict`, `typedef.py:109–140`. Names and orders that are empty are left out, and so
is a type whose name is. -/
def FieldDef.toDict : FieldDef → FieldDefDict
  | ⟨name, _, messageTypeName, types, seenRepeated, fieldOrder⟩ =>
    let alternatives := altsToDict types
    let fieldType := Dict.lookup "0".toList alternatives
    let type : Option TypeName :=
      match fieldType with
      | some (.message _) => some (.other "message")
      | some (.named type) => if type = .other "" then none else some type
      | none => none
    { name := name.filter (· ≠ [])
      type := type
      messageTypeName := messageTypeName.filter (· ≠ "")
      messageTypedef :=
        match fieldType with
        | some (.message typedef) => some typedef
        | _ => none
      altTypedefs :=
        if type.isSome ∧ types.length > 1 then alternatives.filter (·.1 ≠ "0".toList) else []
      seenRepeated := if seenRepeated then some true else none
      fieldOrder := fieldOrder.filter (· ≠ []) }

def altsToDict : List (Text × FieldType) → List (Text × AltTypedef)
  | [] => []
  | (altNumber, type) :: rest => (altNumber, type.toDict) :: altsToDict rest

def FieldType.toDict : FieldType → AltTypedef
  | .named type => .named type
  | .message typedef => .message typedef.toDict
end

namespace FieldDef

/-- `FieldDef(field_id)`, `typedef.py:58–68`. -/
def fresh (fieldId : Text) : FieldDef := ⟨none, fieldId, none, [], false, none⟩

variable (f : FieldDef)

/-- `FieldDef.name`, `typedef.py:173–177`. -/
def label : Text :=
  match f.name with
  | some name => if name = [] then f.fieldId else name
  | none => f.fieldId

/-- `FieldDef.field_key`, `typedef.py:179–183`. -/
def fieldKey (altFieldId : Text) : Text :=
  if altFieldId = "0".toList then f.label else f.label ++ "-".toList ++ altFieldId

/-- `FieldDef.next_alt_type_id`, `typedef.py:185–190`, as an integer. -/
def nextAltTypeId : Except Exc Int :=
  match f.types.mapM fun entry ↦ intOfText entry.1 with
  | none => .error .valueError
  | some [] => .ok 0
  | some (first :: rest) => .ok (rest.foldl max first + 1)

/-- `FieldDef.resolve_message_type_name`, `typedef.py:202–209`. -/
def resolveMessageTypeName (config : Config) (path : List Text) : Except Exc TypeDef :=
  match f.messageTypeName.bind fun name ↦ Dict.lookup name config.knownTypes with
  | some d => .ok (.fromDict d)
  | none => .error (.typedef (.unknownMessage f.messageTypeName) (some path))

/-- `FieldDef.lookup_field_type_number`, `typedef.py:161–171`. -/
def lookupFieldTypeNumber (altTypeId : Text) (config : Config) (path : List Text) :
    Except Exc (Option FieldType) :=
  match Dict.lookup altTypeId f.types with
  | none => .ok none
  | some (.named (.other "message")) =>
    (f.resolveMessageTypeName config path).map fun t ↦ some (.message t)
  | some type => .ok (some type)

/-- `FieldDef.lookup_field_type`, `typedef.py:152–158`. -/
def lookupFieldType (key : Text) (config : Config) (path : List Text) :
    Except Exc (Option FieldType) :=
  f.lookupFieldTypeNumber ((afterDash key).getD "0".toList) config path

/-- `FieldDef.resolve_types`, `typedef.py:211–215`. -/
def resolveTypes (config : Config) (path : List Text) : Except Exc (List (Text × FieldType)) :=
  match Dict.lookup "0".toList f.types with
  | some (.named (.other "message")) =>
    (f.resolveMessageTypeName config path).map fun t ↦ Dict.assign "0".toList (.message t) f.types
  | _ => .ok f.types

/-- `set_type`, `typedef.py:225–226`. -/
def setType (altTypeId : Text) (type : FieldType) : FieldDef :=
  { f with types := Dict.assign altTypeId type f.types }

/-- `mark_repeated`, `typedef.py:222–223`. -/
def markRepeated : FieldDef := { f with seenRepeated := true }

/-- `add_type`, `typedef.py:231–234`. -/
def addType (type : FieldType) : Except Exc (Text × FieldDef) := do
  let altTypeId ← f.nextAltTypeId
  return (strInt altTypeId, f.setType (strInt altTypeId) type)

end FieldDef

namespace TypeDef

/-- `TypeDef()`, `typedef.py:10–12`. -/
def empty : TypeDef := ⟨[], []⟩

variable (t : TypeDef)

/-- `make_mutable`, `typedef.py:27–32`: the names are not copied. -/
def makeMutable : TypeDef := ⟨t.fields, []⟩

/-- `lookup_fielddef`, `typedef.py:34–44`. -/
def lookupFielddef (key : Text) : Option (Text × FieldDef) :=
  let fieldName := beforeDash key
  let fieldId := (Dict.lookup fieldName t.fieldNames).getD fieldName
  (Dict.lookup fieldId t.fields).map fun f ↦ (fieldId, f)

/-- `lookup_fielddef_number`, `typedef.py:46–49`. -/
def lookupFielddefNumber (fieldId : Text) : Option FieldDef := Dict.lookup fieldId t.fields

/-- `set_fielddef`, `typedef.py:52–55`. -/
def setFielddef (fieldNumber : Text) (f : FieldDef) : TypeDef :=
  { fields := Dict.assign fieldNumber f t.fields
    fieldNames :=
      match f.name with
      | some name => if name = [] then t.fieldNames else Dict.assign name fieldNumber t.fieldNames
      | none => t.fieldNames }

end TypeDef
end ScrapyCffi.Protobuf
