import ScrapyCffi.Base.Multimap
import ScrapyCffi.Protobuf.Typedef

/-!
# Encoding a message

`length_delim.py:19–146` and `511–523` of `utils/blackboxprotobuf`. Each entry of a message is
encoded by the definition of its key, and the fields are put together in a given order or, without
one that fits, field by field.
-/

namespace ScrapyCffi.Protobuf

open ScrapyCffi.Base

/-- `field_outputs` of `encode_message`: the encoded fields under their numbers. -/
abbrev Outputs := List (Text × List Bytes)

/-- The loop over a given order, `length_delim.py:52–67`: what it puts out, and what is left. -/
def takeInOrder : List Text → Outputs → Bytes × Outputs
  | [], outputs => ([], outputs)
  | fieldNumber :: rest, outputs =>
    match Dict.lookup fieldNumber outputs with
    | some (first :: more) =>
      let (taken, left) := takeInOrder rest (Dict.assign fieldNumber more outputs)
      (first ++ taken, left)
    | _ => ([], outputs)

/-- The fields are put together, `length_delim.py:43–74`. -/
def assemble (config : Config) (fieldOrder : Option (List Text)) (outputs : Outputs) : Bytes :=
  let outputLen := (outputs.map fun entry ↦ entry.2.length).sum
  match fieldOrder with
  | some order =>
    if outputLen > 0 ∧ config.preserveFieldOrder ∧ order.length = outputLen then
      let (taken, left) := takeInOrder order outputs
      taken ++ (Multimap.values left).flatten
    else (Multimap.values outputs).flatten
  | none => (Multimap.values outputs).flatten

/-- `exc.set_path(field_path)` of an `EncoderException`. -/
def setPath (path : List Text) : Exc → Exc
  | .encoder message none => .encoder message (some path)
  | e => e

/-- The tag before each output. -/
def tagged (path : List Text) (tag : Bytes) : Except Exc (List Bytes) → Except Exc (List Bytes)
  | .ok outputs => .ok (outputs.map (tag ++ ·))
  | .error e => .error (setPath path e)

/-- The outputs of a value: those of its elements, unless it is to be packed. -/
def encodeKind (floats : Floats) (kind : Kind) (value : Value) : Except Exc (List Bytes) :=
  match value, kind with
  | .list items, .packed _ => (kind.encode floats (.list items)).map ([·])
  | .list items, _ => items.mapM (kind.encode floats)
  | value, _ => (kind.encode floats value).map ([·])

/-- How the rest of the encoder makes the outputs of a value that holds messages. -/
abbrev NestedOutputs := TypeDef → List Text → Option (List Text) → Except Exc (List Bytes)

/-- `_encode_message_field`, `length_delim.py:76–146`. -/
def encodeMessageField (floats : Floats) (config : Config) (typedef : TypeDef) (path : List Text)
    (fieldId : Text) (value : Value) (nested : NestedOutputs) : Except Exc (Text × List Bytes) :=
  match typedef.lookupFielddef fieldId with
  | none => .error (.encoder (.invalidField fieldId) (some path))
  | some (fieldNumber, fielddef) => do
    let fieldPath := path ++ [fieldNumber]
    let fieldType ← fielddef.lookupFieldType fieldId config fieldPath
    match fieldType with
    | none => throw (.encoder (.invalidType fieldId fieldNumber) (some fieldPath))
    | some (.named (.other name)) => throw (.typedef (.unknownType name) none)
    | some (.named (.kind kind)) =>
      match intOfText fieldNumber with
      | none => throw .valueError
      | some number =>
        let tag ← encodeTag number kind.wireType
        let outputs ← tagged fieldPath tag (encodeKind floats kind value)
        return (fieldNumber, outputs)
    | some (.message fieldTypedef) =>
      match intOfText fieldNumber with
      | none => throw .valueError
      | some number =>
        let tag ← encodeTag number lengthDelimitedType
        let outputs ← tagged fieldPath tag (nested fieldTypedef fieldPath fielddef.fieldOrder)
        return (fieldNumber, outputs)

variable (floats : Floats) (config : Config)

mutual
/-- `encode_message`, `length_delim.py:19–74`. -/
def encodeMessage : Value → TypeDef → List Text → Option (List Text) → Except Exc Bytes
  | .message entries, typedef, path, fieldOrder =>
    (encodeFields entries typedef path []).map (assemble config fieldOrder)
  | _, _, _, _ => .error .attributeError

/-- The loop over the entries of a message, `length_delim.py:33–41`. -/
def encodeFields : List (Text × Value) → TypeDef → List Text → Outputs → Except Exc Outputs
  | [], _, _, outputs => .ok outputs
  | (fieldId, value) :: rest, typedef, path, outputs => do
    let (fieldNumber, added) ←
      encodeMessageField floats config typedef path fieldId value (encodeMessages value)
    encodeFields rest typedef path (Multimap.extend fieldNumber added outputs)

/-- `encode_lendelim_message` of a value or of its elements, `length_delim.py:104–111`, `132–140`
and `511–523`. -/
def encodeMessages : Value → NestedOutputs
  | .list items, typedef, path, fieldOrder => encodeItems items typedef path fieldOrder
  | .message entries, typedef, path, fieldOrder => do
    let outputs ← encodeFields entries typedef path []
    let output ← encodeLengthPrefixed (assemble config fieldOrder outputs)
    return [output]
  | _, _, _, _ => .error .attributeError

def encodeItems : List Value → NestedOutputs
  | [], _, _, _ => .ok []
  | item :: rest, typedef, path, fieldOrder => do
    let messageOut ← encodeMessage item typedef path fieldOrder
    let output ← encodeLengthPrefixed messageOut
    let outputs ← encodeItems rest typedef path fieldOrder
    return output :: outputs
end

end ScrapyCffi.Protobuf
