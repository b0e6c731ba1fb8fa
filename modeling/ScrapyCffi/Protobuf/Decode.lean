import Mathlib.Data.List.Sort
import ScrapyCffi.Base.Multimap
import ScrapyCffi.Protobuf.Typedef

/-!
# Decoding a message

`length_delim.py` of `utils/blackboxprotobuf`. A message is split into fields, and what each field
holds is guessed from its wire type, from the definition that is given, and from what decodes.

The fuel bounds the rounds of a split and the depth of nested messages. A split can go back to
where it was, so no fuel is enough for every buffer; `unfinished` is no exception, and no handler
takes it.
-/

namespace ScrapyCffi.Protobuf

open ScrapyCffi.Base

/-! ### Splitting -/

/-- `output_map` of `_group_by_number`: wire type and contents for each field. -/
abbrev Grouped := List (Text × (Nat × List Bytes))

/-- A content is added to its field. -/
def addContent (fieldId : Text) (wireType : Nat) (content : Bytes) (grouped : Grouped) : Grouped :=
  match Dict.lookup fieldId grouped with
  | some (known, contents) => Dict.assign fieldId (known, contents ++ [content]) grouped
  | none => Dict.assign fieldId (wireType, [content]) grouped

/-- How long the content behind a tag is, `length_delim.py:326–348`. -/
def contentLength (buf : Bytes) (pos : Int) (wireType : Nat) (path : List Text) :
    Except Exc Int :=
  if wireType = varintType then do
    let (_, newPos) ← decodeUvarint buf pos
    return newPos - pos
  else if wireType = fixed32Type then .ok 4
  else if wireType = fixed64Type then .ok 8
  else if wireType = lengthDelimitedType then do
    let (bytesLength, newPos) ← decodeVarint buf pos
    return bytesLength + (newPos - pos)
  else if wireType = startGroupType ∨ wireType = endGroupType then
    .error (.decoder .group (some path))
  else .error (.decoder (.unknownWireType wireType) (some path))

/-- A field has the wire type that it had before, `length_delim.py:318–324`. -/
def checkWireType (grouped : Grouped) (fieldId : Text) (wireType : Nat) (path : List Text) :
    Except Exc Unit :=
  match Dict.lookup fieldId grouped with
  | some (known, _) =>
    if known ≠ wireType then .error (.decoder (.mismatched fieldId known wireType) (some path))
    else .ok ()
  | none => .ok ()

/-- A field is read, `length_delim.py:311–356`: its number, its wire type, its content and the
position behind it. -/
def readField (buf : Bytes) (stop : Int) (path : List Text) (grouped : Grouped) (pos : Int) :
    Except Exc (Nat × Nat × Bytes × Int) := do
  let (fieldNumber, wireType, pos) ← decodeTag buf pos
  let fieldPath := path ++ [str fieldNumber]
  checkWireType grouped (str fieldNumber) wireType fieldPath
  let length ← contentLength buf pos wireType fieldPath
  if pos + length > stop then
    .error (.decoder (.overEnd (str fieldNumber) (pos + length) stop) (some fieldPath))
  else .ok (fieldNumber, wireType, slice buf pos (pos + length), pos + length)

/-- `_group_by_number`, `length_delim.py:291–364`. -/
def groupByNumber (buf : Bytes) (stop : Int) (path : List Text) :
    (fuel : Nat) → (grouped : Grouped) → (fieldOrder : List Text) → (pos : Int) →
      Except Exc (Grouped × List Text × Int)
  | 0, grouped, fieldOrder, pos =>
    if pos < stop then .error .unfinished else .ok (grouped, fieldOrder, pos)
  | fuel + 1, grouped, fieldOrder, pos =>
    if pos < stop then do
      let (fieldNumber, wireType, content, pos) ← readField buf stop path grouped pos
      groupByNumber buf stop path fuel (addContent (str fieldNumber) wireType content grouped)
        (fieldOrder ++ [str fieldNumber]) pos
    else .ok (grouped, fieldOrder, pos)

/-! ### Fields of known size -/

variable (floats : Floats) (config : Config)

/-- `[decoder(buf, 0)[0] for buf in buffers]`. -/
def decodeAll (kind : Kind) (buffers : List Bytes) : Except Exc (List Value) :=
  buffers.mapM fun buf ↦ (kind.decode floats buf 0).map Prod.fst

/-- `decoder = DECODERS[name]`, and the contents by it. -/
def decodeNamed (type : TypeName) (buffers : List Bytes) : Except Exc (List Value) :=
  match type with
  | .kind kind => decodeAll floats kind buffers
  | .other name => .error (.keyError name)

/-- The loop over the types of a definition, `length_delim.py:221–248`. The name of a type is looked
up among those of `BaseWireTypes`, where the keys of `DECODERS` are not. -/
def tryTypes (wireType : Nat) (buffers : List Bytes) (path : List Text) :
    List (Text × FieldType) → Except Exc (Option (Text × TypeName × List Value))
  | [] => .ok none
  | (_, .message _) :: rest => tryTypes wireType buffers path rest
  | (altTypeId, .named type) :: rest =>
    match type.baseWireType with
    | none => .error (.keyError type.text)
    | some base =>
      if base ≠ wireType then .error (.decoder (.wrongType type.text wireType) (some path))
      else
        match type with
        | .other name => .error (.typedef (.noDecoder name) (some path))
        | .kind kind =>
          match decodeAll floats kind buffers with
          | .ok outputs => .ok (some (altTypeId, type, outputs))
          | .error (.decoder _ _) | .error (.encoder _ _) | .error (.typedef _ _) =>
            tryTypes wireType buffers path rest
          | .error e => .error e

/-- `field_type.startswith("packed_")` of a key of `DECODERS`. -/
def TypeName.isPacked : TypeName → Bool
  | .kind (.packed _) => true
  | _ => false

/-- Packed lists are put together, `length_delim.py:267–269`. -/
def flattenPacked (type : TypeName) (outputs : List Value) : List Value :=
  if type.isPacked then outputs.flatMap fun output ↦ (elements output).getD [] else outputs

/-- The contents of a field by the type for its wire type, under a new id,
`length_delim.py:251–258`. -/
def decodeDefault (wireType : Nat) (buffers : List Bytes) (fielddef : FieldDef) :
    Except Exc (Text × TypeName × List Value) := do
  let type ← config.getDefaultType wireType
  let outputs ← decodeNamed floats type buffers
  let altTypeId ← fielddef.nextAltTypeId
  return (strInt altTypeId, type, outputs)

/-- `_decode_standard_field`, `length_delim.py:212–276`. -/
def decodeStandardField (wireType : Nat) (buffers : List Bytes) (fielddef : FieldDef)
    (path : List Text) : Except Exc (List Value × FieldDef × Text) := do
  let types ← fielddef.resolveTypes config path
  let found ← tryTypes floats wireType buffers path types
  let (altTypeId, type, decoded) ←
    found.elim (decodeDefault floats config wireType buffers fielddef) .ok
  let fielddef := fielddef.setType altTypeId (.named type)
  let outputs := flattenPacked type decoded
  let isRepeated := type.isPacked || outputs.length > 1
  return (outputs, if isRepeated then fielddef.markRepeated else fielddef, altTypeId)

/-! ### Fields of any length -/

/-- What is decoded of a message: its fields, its definition and the order of its fields. -/
structure Decoded where
  message : List (Text × Value)
  typedef : TypeDef
  fieldOrder : List Text

/-- How the rest of the decoder reads a message with its length before it. -/
abbrev Nested := Bytes → TypeDef → Except Exc Decoded

/-- The first definition that a content decodes with, `length_delim.py:409–429`. Whatever is raised
by one is taken. -/
def firstDecoded (nested : Nested) (buf : Bytes) :
    List (Text × FieldType) → Except Exc (Option (Text × Decoded))
  | [] => .ok none
  | (_, .named _) :: rest => firstDecoded nested buf rest
  | (altTypeId, .message typedef) :: rest =>
    match nested buf typedef with
    | .ok decoded => .ok (some (altTypeId, decoded))
    | .error .unfinished => .error .unfinished
    | .error _ => firstDecoded nested buf rest

/-- `sorted(field_types.items(), key=lambda x: int(x[0]))`. -/
def sortTypes (types : List (Text × FieldType)) : Except Exc (List (Text × FieldType)) :=
  match types.mapM fun entry ↦ (intOfText entry.1).map fun n ↦ (n, entry) with
  | none => .error .valueError
  | some keyed => .ok ((keyed.insertionSort fun x y ↦ x.1 ≤ y.1).map Prod.snd)

/-- The variables of the loop over the contents of a field. -/
structure LendelimState where
  fieldTypes : List (Text × FieldType)
  outputsMap : List (Text × List Value)
  fieldOrder : List Text
  nextAltTypeId : Int

/-- A content is decoded without a definition, under a new id, `length_delim.py:432–437`. -/
def decodeAnonymous (nested : Nested) (nextAltTypeId : Int) (buf : Bytes) :
    Except Exc (Text × Decoded × Int) := do
  let decoded ← nested buf .empty
  return (strInt nextAltTypeId, decoded, nextAltTypeId + 1)

/-- One round of the loop, `length_delim.py:403–451`. -/
def decodeContent (nested : Nested) (s : LendelimState) (buf : Bytes) :
    Except Exc LendelimState := do
  let types ← sortTypes s.fieldTypes
  let found ← firstDecoded nested buf types
  let (altTypeId, decoded, nextAltTypeId) ←
    found.elim (decodeAnonymous nested s.nextAltTypeId buf)
      fun known ↦ .ok (known.1, known.2, s.nextAltTypeId)
  return {
    fieldTypes := Dict.assign altTypeId (.message decoded.typedef) s.fieldTypes
    outputsMap := Multimap.extend altTypeId [.message decoded.message] s.outputsMap
    fieldOrder :=
      if decoded.fieldOrder.length > s.fieldOrder.length then decoded.fieldOrder else s.fieldOrder
    nextAltTypeId := nextAltTypeId }

/-- Every content of a field as a message, `length_delim.py:394–469`. -/
def decodeMessages (nested : Nested) (buffers : List Bytes) (fielddef : FieldDef)
    (path : List Text) : Except Exc (List (Text × List Value) × FieldDef) := do
  let nextAltTypeId ← fielddef.nextAltTypeId
  let fieldTypes ← fielddef.resolveTypes config path
  let s ← buffers.foldlM (decodeContent nested) ⟨fieldTypes, [], [], nextAltTypeId⟩
  let fielddef : FieldDef := { fielddef with types := s.fieldTypes }
  let fielddef : FieldDef :=
    if config.preserveFieldOrder then { fielddef with fieldOrder := some s.fieldOrder }
    else fielddef
  return (s.outputsMap.map fun entry ↦ (fielddef.fieldKey entry.1, entry.2),
    if s.outputsMap.any fun entry ↦ entry.2.length > 1 then fielddef.markRepeated else fielddef)

/-- The id under which a type is known. -/
def knownAltTypeId (target : TypeName) : List (Text × FieldType) → Option Text
  | [] => none
  | (altTypeId, .named type) :: rest =>
    if type = target then some altTypeId else knownAltTypeId target rest
  | (_, .message _) :: rest => knownAltTypeId target rest

/-- The id of a type, which is added if it is not known, `length_delim.py:489–499`. -/
def altTypeIdOf (fielddef : FieldDef) (target : TypeName) (types : List (Text × FieldType)) :
    Except Exc (Text × FieldDef) :=
  match knownAltTypeId target types with
  | some altTypeId => .ok (altTypeId, fielddef)
  | none => fielddef.addType (.named target)

/-- Every content of a field as a text or as bytes, `length_delim.py:482–504`. -/
def decodeTarget (buffers : List Bytes) (fielddef : FieldDef) (path : List Text)
    (target : TypeName) : Except Exc (List (Text × List Value) × FieldDef) := do
  let outputs ← decodeNamed floats target buffers
  let types ← fielddef.resolveTypes config path
  let (altTypeId, fielddef) ← altTypeIdOf fielddef target types
  return ([(fielddef.fieldKey altTypeId, outputs)], fielddef)

/-- The first of some types that the contents of a field have, `length_delim.py:481–509`. -/
def decodeTargets (buffers : List Bytes) (fielddef : FieldDef) (path : List Text) :
    List TypeName → Except Exc (List (Text × List Value) × FieldDef)
  | [] => .error (.decoder .undecodable (some path))
  | target :: rest =>
    match decodeTarget floats config buffers fielddef path target with
    | .error (.decoder _ _) => decodeTargets buffers fielddef path rest
    | result => result

/-- `_try_decode_lendelim_fields`, `length_delim.py:366–509`. -/
def tryDecodeLendelimFields (nested : Nested) (buffers : List Bytes) (fielddef : FieldDef)
    (path : List Text) : Except Exc (List (Text × List Value) × FieldDef) :=
  match decodeMessages config nested buffers fielddef path with
  | .error (.decoder _ _) =>
    decodeTargets floats config buffers fielddef path
      [.kind .string, config.defaultBinaryType, .kind .bytes]
  | result => result

/-! ### Messages -/

/-- The variables of the loop over the fields of a message. -/
structure MessageState where
  output : List (Text × List Value)
  seenRepeated : List (Text × Bool)
  typedef : TypeDef

/-- Whether a field may hold messages, `length_delim.py:185–187`: it is length-delimited, and its
type is not given as a `str`. -/
def isLendelim (wireType : Nat) (fielddef : FieldDef) (path : List Text) : Except Exc Bool :=
  if wireType = lengthDelimitedType then
    (fielddef.lookupFieldTypeNumber "0".toList config path).map fun type ↦
      match type with
      | some (.named _) => false
      | _ => true
  else .ok false

/-- What a field is decoded to: its outputs under their keys, and its definition,
`length_delim.py:185–205`. -/
def decodeGroup (nested : Nested) (path : List Text) (fielddef : FieldDef)
    (field : Text × (Nat × List Bytes)) : Except Exc (List (Text × List Value) × FieldDef) := do
  let lendelim ← isLendelim config field.2.1 fielddef (path ++ [field.1])
  if lendelim then
    tryDecodeLendelimFields floats config nested field.2.2 fielddef (path ++ [field.1])
  else do
    let (outputs, newFielddef, altTypeId) ←
      decodeStandardField floats config field.2.1 field.2.2 fielddef path
    return ([(newFielddef.fieldKey altTypeId, outputs)], newFielddef)

/-- One round of the loop, `length_delim.py:172–207`. -/
def decodeField (nested : Nested) (path : List Text) (s : MessageState)
    (field : Text × (Nat × List Bytes)) : Except Exc MessageState := do
  let fielddef := (s.typedef.lookupFielddefNumber field.1).getD (.fresh field.1)
  let (outputMap, newFielddef) ← decodeGroup floats config nested path fielddef field
  return {
    output := outputMap.foldl (fun output entry ↦ Multimap.extend entry.1 entry.2 output) s.output
    seenRepeated := Dict.assign fielddef.label newFielddef.seenRepeated s.seenRepeated
    typedef := s.typedef.setFielddef field.1 newFielddef }

/-- An output, which is not kept in a list if it is the only one of a field that is not repeated,
`length_delim.py:281–289`. -/
def simplify (seenRepeated : List (Text × Bool)) (key : Text) (outputs : List Value) :
    Except Exc Value :=
  match outputs with
  | [output] =>
    match Dict.lookup (beforeDash key) seenRepeated with
    | none => .error (.keyError (String.ofList (beforeDash key)))
    | some isRepeated => .ok (if isRepeated then .list [output] else output)
  | outputs => .ok (.list outputs)

/-- `_simplify_output`, `length_delim.py:278–289`. -/
def simplifyOutput (seenRepeated : List (Text × Bool)) (output : List (Text × List Value)) :
    Except Exc (List (Text × Value)) :=
  output.mapM fun entry ↦ (simplify seenRepeated entry.1 entry.2).map (entry.1, ·)

/-- `decode_message` between two positions, `length_delim.py:148–210`, and the position that it
ends at. -/
def decodeBetween (nested : Nested) (fuel : Nat) (buf : Bytes) (typedef : TypeDef)
    (pos stop : Int) (path : List Text) : Except Exc (Decoded × Int) := do
  let (grouped, fieldOrder, pos) ← groupByNumber buf stop path fuel [] [] pos
  let s ← grouped.foldlM (decodeField floats config nested path) ⟨[], [], typedef.makeMutable⟩
  let message ← simplifyOutput s.seenRepeated s.output
  return (⟨message, s.typedef, fieldOrder⟩, pos)

/-- `decode_lendelim_message`, `length_delim.py:526–539`, with the default position and path. -/
def decodeLendelimMessage : (fuel : Nat) → Nested
  | 0, _, _ => .error .unfinished
  | fuel + 1, buf, typedef => do
    let (length, pos) ← decodeVarint buf 0
    let (decoded, _) ← decodeBetween floats config (decodeLendelimMessage fuel) fuel buf typedef pos
      (pos + length) []
    return decoded

/-- `decode_message` of a whole buffer, `length_delim.py:148–210`. -/
def decodeMessage (fuel : Nat) (buf : Bytes) (typedef : TypeDef) : Except Exc Decoded := do
  let (decoded, _) ←
    decodeBetween floats config (decodeLendelimMessage floats config fuel) fuel buf typedef 0
      buf.length []
  return decoded

end ScrapyCffi.Protobuf
