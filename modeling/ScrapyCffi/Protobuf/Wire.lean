import ScrapyCffi.Base.Base128
import ScrapyCffi.Base.Except
import ScrapyCffi.Base.Utf8

/-!
# The wire coding of Protobuf values

`utils/wire.py` of `utils/blackboxprotobuf`: variable-length numbers, texts and tags. A position in
a buffer is an `Int`, since Python counts a negative one from the end.
-/

namespace ScrapyCffi.Protobuf

open ScrapyCffi.Base

abbrev Bytes := List UInt8

abbrev Text := List Char

/-- What a message holds, `pytypes.py`. A float is given by the bits of its double. -/
inductive Value
  | int (n : Int)
  | float (bits : UInt64)
  | str (text : Text)
  | bytes (data : Bytes)
  | list (items : List Value)
  | message (entries : List (Text × Value))

/-! ### Exceptions -/

/-- The texts of `EncoderException`, by what is put into them. -/
inductive EncoderMessage
  /-- "Got non-int type for … encoding" -/
  | nonInt (coding : String) (value : Value)
  /-- "Error encoding … as …. Value must be positive", or on this side of a bound -/
  | outOfRange (coding : String) (value bound : Int)
  /-- "Error encoding string to message" -/
  | notString (value : Value)
  /-- "Error encoding bytes to message" -/
  | notBytes (value : Value)
  /-- "Error encoding hex bytestring" -/
  | notHex (value : Value)
  /-- "Error encoding value … with format string" -/
  | struct (format : String) (value : Value)
  /-- "Provided field name/number … is not valid" -/
  | invalidField (key : Text)
  /-- "Provided field name/number … / … is not valid" -/
  | invalidType (key number : Text)
  /-- "Encode message must have valid type definition. message_type cannot be None" -/
  | noDefinition
  /-- "The provided message type name (…) is not known" -/
  | unknownName (name : String)

/-- The texts of `DecoderException`, by what is put into them. -/
inductive DecoderMessage
  /-- "Error decoding uvarint: read past the end of the buffer" -/
  | pastTheEnd
  /-- "Error decoding …: value (…) was not able to be re-encoded" -/
  | notReencoded (coding : String) (value : Int)
  /-- "Error decoding …: Encoding is not standard" -/
  | notStandard (coding : String) (original standard : Bytes)
  /-- "Error decoding UTF-8 string" -/
  | notUtf8 (data : Bytes)
  /-- "Error deocding format string … from bytes" -/
  | struct (format : String) (data : Bytes)
  /-- "Error decoding packed field. Packed length larger than buffer" -/
  | packed (length left : Int)
  /-- "Field … has mistmatched wiretypes" -/
  | mismatched (fieldId : Text) (previous now : Nat)
  /-- "GROUP wire types not supported" -/
  | group
  /-- "Got unknown wire type" -/
  | unknownWireType (wireType : Nat)
  /-- "Decoded length for field … goes over end" -/
  | overEnd (fieldId : Text) (stop bound : Int)
  /-- "Could not find default type for wire type" -/
  | noDefault (wireType : Nat)
  /-- "Type … from typedef did not match wiretype" -/
  | wrongType (type : String) (wireType : Nat)
  /-- "Unable to decode field with typedef" -/
  | undecodable

/-- The texts of `TypedefException`, by what is put into them. -/
inductive TypedefMessage
  /-- "Unknown type" -/
  | unknownType (type : String)
  /-- "Type … does not have a decoder" -/
  | noDecoder (type : String)
  /-- "Message name … has not been defined in known types" -/
  | unknownMessage (name : Option String)

/-- What is raised. `unfinished` is no exception: it says that the fuel of the model is used up. -/
inductive Exc
  | encoder (message : EncoderMessage) (path : Option (List Text))
  | decoder (message : DecoderMessage) (path : Option (List Text))
  | typedef (message : TypedefMessage) (path : Option (List Text))
  | keyError (key : String)
  | valueError
  | typeError
  | attributeError
  | unfinished

/-! ### Buffers -/

/-- `buf[i]`; `IndexError` is `none`. -/
def index (buf : Bytes) (i : Int) : Option UInt8 :=
  if 0 ≤ i then buf[i.toNat]?
  else if 0 ≤ i + buf.length then buf[(i + buf.length).toNat]?
  else none

/-- The place in a buffer that an end of a slice stands for. -/
def place (buf : Bytes) (i : Int) : Nat := if 0 ≤ i then i.toNat else (i + buf.length).toNat

/-- `buf[start:stop]`. -/
def slice (buf : Bytes) (start stop : Int) : Bytes :=
  (buf.take (place buf stop)).drop (place buf start)

@[simp] theorem index_natCast (buf : Bytes) (pos : Nat) : index buf pos = buf[pos]? := by
  rw [index, if_pos (Int.natCast_nonneg pos), Int.toNat_natCast]

/-- A slice from one place to a later one. -/
theorem slice_natCast (buf : Bytes) (pos n : Nat) :
    slice buf pos ((pos : Int) + n) = (buf.drop pos).take n := by
  rw [slice, place, place, if_pos (by omega), if_pos (by omega), Int.toNat_natCast,
    show ((pos : Int) + n).toNat = pos + n by omega, List.drop_take, Nat.add_sub_cancel_left]

/-! ### Numbers -/

/-- The loop of `encode_uvarint`, `wire.py:25–30`. -/
def uvarintBytes : (fuel value : Nat) → Bytes
  | 0, _ => []
  | fuel + 1, value =>
    if value = 0 then []
    else
      let nextByte := value &&& 0x7F
      let value := value >>> 7
      UInt8.ofNat (if value ≠ 0 then nextByte ||| 0x80 else nextByte) :: uvarintBytes fuel value

/-- `encode_uvarint` of an integer, `wire.py:7–32`. Every round of its loop makes the value less. -/
def encodeUvarint (value : Int) : Except Exc Bytes :=
  if value < 0 then .error (.encoder (.outOfRange "uvarint" value 0) none)
  else if value > 2 ^ 64 - 1 then .error (.encoder (.outOfRange "uvarint" value (2 ^ 64 - 1)) none)
  else if value = 0 then .ok [UInt8.ofNat (value.toNat &&& 0x7F)]
  else .ok (uvarintBytes value.toNat value.toNat)

/-- The loop of `decode_uvarint`, `wire.py:41–45`, over the indices that are left. -/
def scanUvarint (buf : Bytes) :
    (left : Nat) → (pos : Int) → (value shift : Nat) → Option (Nat × Int)
  | 0, _, _, _ => none
  | left + 1, pos, value, shift =>
    match index buf pos with
    | none => none
    | some b =>
      let value := value + (b.toNat &&& 0x7F) <<< (shift * 7)
      if b.toNat &&& 0x80 ≠ 0 then scanUvarint buf left (pos + 1) value (shift + 1)
      else some (value, pos + 1)

/-- `decode_uvarint`, `wire.py:34–66`. -/
def decodeUvarint (buf : Bytes) (pos : Int) : Except Exc (Nat × Int) :=
  match scanUvarint buf (buf.length - pos).toNat pos 0 0 with
  | none => .error (.decoder .pastTheEnd none)
  | some (value, stop) =>
    match encodeUvarint value with
    | .error _ => .error (.decoder (.notReencoded "uvarint" value) none)
    | .ok testEncode =>
      if slice buf pos stop ≠ testEncode then
        .error (.decoder (.notStandard "uvarint" (slice buf pos stop) testEncode) none)
      else .ok (value, stop)

/-- `encode_varint` of an integer, `wire.py:69–84`. -/
def encodeVarint (value : Int) : Except Exc Bytes :=
  if value > 2 ^ 63 - 1 then .error (.encoder (.outOfRange "varint" value (2 ^ 63 - 1)) none)
  else if value < -2 ^ 63 then .error (.encoder (.outOfRange "varint" value (-2 ^ 63)) none)
  else encodeUvarint (if value < 0 then value + 2 ^ 64 else value)

/-- `decode_varint`, `wire.py:87–110`. -/
def decodeVarint (buf : Bytes) (pos : Int) : Except Exc (Int × Int) :=
  match decodeUvarint buf pos with
  | .error e => .error e
  | .ok (found, stop) =>
    let value : Int := if found.testBit 63 then found - 2 ^ 64 else found
    match encodeVarint value with
    | .error _ => .error (.decoder (.notReencoded "varint" value) none)
    | .ok testEncode =>
      if slice buf pos stop ≠ testEncode then
        .error (.decoder (.notStandard "varint" (slice buf pos stop) testEncode) none)
      else .ok (value, stop)

/-- `encode_zig_zag`, `wire.py:113–116`. -/
def encodeZigZag (value : Int) : Int :=
  if value < 0 then (value.natAbs <<< 1 : Nat) - 1 else value <<< (1 : Nat)

/-- `decode_zig_zag`, `wire.py:119–123`. -/
def decodeZigZag (value : Nat) : Int :=
  if value &&& 1 ≠ 0 then -((value + 1) >>> 1 : Nat) else (value >>> 1 : Nat)

/-- `encode_svarint` of an integer, `wire.py:126–139`. -/
def encodeSvarint (value : Int) : Except Exc Bytes :=
  if value > 2 ^ 63 - 1 then .error (.encoder (.outOfRange "svarint" value (2 ^ 63 - 1)) none)
  else if value < -2 ^ 63 then .error (.encoder (.outOfRange "svarint" value (-2 ^ 63)) none)
  else encodeUvarint (encodeZigZag value)

/-- `decode_svarint`, `wire.py:142–157`. -/
def decodeSvarint (buf : Bytes) (pos : Int) : Except Exc (Int × Int) :=
  match decodeUvarint buf pos with
  | .error e => .error e
  | .ok (output, stop) =>
    match encodeSvarint (decodeZigZag output) with
    | .error e => .error e
    | .ok testEncode =>
      if slice buf pos stop ≠ testEncode then
        .error (.decoder (.notStandard "svarint" (slice buf pos stop) testEncode) none)
      else .ok (decodeZigZag output, stop)

/-! ### Texts -/

/-- `encode_bytes` of what is bytes by then, `wire.py:171–189`. -/
def encodeLengthPrefixed (data : Bytes) : Except Exc Bytes := do
  let encodedLength ← encodeVarint data.length
  return encodedLength ++ data

/-- `encode_bytes`, `wire.py:171–189`. -/
def encodeBytes : Value → Except Exc Bytes
  | .str text => encodeLengthPrefixed (Percent.encodeUtf8 text)
  | .bytes data => encodeLengthPrefixed data
  | value => .error (.encoder (.notBytes value) none)

/-- `encode_string`, `wire.py:159–168`. Bytes that are no UTF-8 raise `UnicodeDecodeError`, a
`ValueError` which is let through. -/
def encodeString : Value → Except Exc Bytes
  | .bytes data =>
    match decodeUtf8 data with
    | some text => encodeBytes (.str text)
    | none => .error .valueError
  | .str text => encodeBytes (.str text)
  | value => .error (.encoder (.notString value) none)

/-- `decode_bytes`, `wire.py:192–205`. A slice of a buffer that is too short raises nothing. -/
def decodeBytes (buf : Bytes) (pos : Int) : Except Exc (Bytes × Int) := do
  let (length, pos) ← decodeVarint buf pos
  return (slice buf pos (pos + length), pos + length)

/-- `decode_string`, `wire.py:221–229`. -/
def decodeString (buf : Bytes) (pos : Int) : Except Exc (Text × Int) := do
  let (data, stop) ← decodeBytes buf pos
  match decodeUtf8 data with
  | some text => return (text, stop)
  | none => throw (.decoder (.notUtf8 data) none)

/-- A digit of `binascii.hexlify`. -/
def hexDigit (n : Nat) : UInt8 := if n < 10 then UInt8.ofNat (48 + n) else UInt8.ofNat (87 + n)

/-- `binascii.hexlify`. -/
def hexlify (data : Bytes) : Bytes :=
  data.flatMap fun b ↦ [hexDigit (b.toNat / 16), hexDigit (b.toNat % 16)]

/-- The value of a hexadecimal digit. -/
def hexValue (b : UInt8) : Option Nat :=
  if 48 ≤ b.toNat ∧ b.toNat ≤ 57 then some (b.toNat - 48)
  else if 97 ≤ b.toNat ∧ b.toNat ≤ 102 then some (b.toNat - 87)
  else if 65 ≤ b.toNat ∧ b.toNat ≤ 70 then some (b.toNat - 55)
  else none

/-- `binascii.unhexlify`; `binascii.Error` is `none`. -/
def unhexlify : Bytes → Option Bytes
  | [] => some []
  | [_] => none
  | high :: low :: rest => do
    let high ← hexValue high
    let low ← hexValue low
    return UInt8.ofNat (16 * high + low) :: (← unhexlify rest)

/-- `encode_bytes_hex`, `wire.py:208–213`. A text outside ASCII raises a `ValueError` which is let
through. -/
def encodeBytesHex (value : Value) : Except Exc Bytes :=
  let data : Except Exc Bytes :=
    match value with
    | .bytes data => .ok data
    | .str text =>
      if text.all fun c ↦ c.toNat < 128 then .ok (Percent.encodeUtf8 text) else .error .valueError
    | value => .error (.encoder (.notHex value) none)
  match data with
  | .error e => .error e
  | .ok data =>
    match unhexlify data with
    | none => .error (.encoder (.notHex value) none)
    | some data => encodeBytes (.bytes data)

/-- `decode_bytes_hex`, `wire.py:215–218`. -/
def decodeBytesHex (buf : Bytes) (pos : Int) : Except Exc (Bytes × Int) := do
  let (value, pos) ← decodeBytes buf pos
  return (hexlify value, pos)

/-! ### Tags -/

/-- `encode_tag`, `wire.py:232–235`. The wire type fills the three bits that the shift leaves. -/
def encodeTag (fieldNumber : Int) (wireType : Nat) : Except Exc Bytes :=
  encodeUvarint (fieldNumber <<< (3 : Nat) + wireType)

/-- `decode_tag`, `wire.py:238–242`. -/
def decodeTag (buf : Bytes) (pos : Int) : Except Exc (Nat × Nat × Int) := do
  let (tagNumber, pos) ← decodeUvarint buf pos
  return (tagNumber >>> 3, tagNumber &&& 0x7, pos)

end ScrapyCffi.Protobuf
