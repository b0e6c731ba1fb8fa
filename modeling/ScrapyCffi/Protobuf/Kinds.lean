import ScrapyCffi.Base.Frames
import ScrapyCffi.Protobuf.Numbers

/-!
# The kinds of Protobuf values

`utils/fixed.py`, `schema/models.py` and `schema/type_maps.py` of `utils/blackboxprotobuf`: numbers
of fixed size, packed lists, and the tables `ENCODERS` and `DECODERS`.
-/

namespace ScrapyCffi.Protobuf

open ScrapyCffi.Base

/-! ### Numbers of fixed size -/

/-- The formats of `struct` for integers. -/
structure IntFormat where
  text : String
  size : Nat
  isSigned : Bool
  deriving DecidableEq

namespace IntFormat

def fixed32 : IntFormat := ⟨"<I", 4, false⟩
def sfixed32 : IntFormat := ⟨"<i", 4, true⟩
def fixed64 : IntFormat := ⟨"<Q", 8, false⟩
def sfixed64 : IntFormat := ⟨"<q", 8, true⟩

/-- How many numbers the format has. -/
def count (f : IntFormat) : Nat := 256 ^ f.size

/-- The least number that is not in the format. -/
def bound (f : IntFormat) : Int := if f.isSigned then f.count / 2 else f.count

/-- The number of little-endian bytes. -/
def unpack (f : IntFormat) (data : Bytes) : Int :=
  if (ofBytesBig data.reverse : Int) < f.bound then ofBytesBig data.reverse
  else ofBytesBig data.reverse - f.count

end IntFormat

/-- `encode_struct` with an integer format, `fixed.py:8–15`. -/
def encodeStruct (f : IntFormat) : Value → Except Exc Bytes
  | .int n =>
    if f.bound - f.count ≤ n ∧ n < f.bound then .ok (toBytesBig f.size (n % f.count).toNat).reverse
    else .error (.encoder (.struct f.text (.int n)) none)
  | value => .error (.encoder (.struct f.text value) none)

/-- `decode_struct` with an integer format, `fixed.py:17–26`. -/
def decodeStruct (f : IntFormat) (buf : Bytes) (pos : Int) : Except Exc (Int × Int) :=
  if (slice buf pos (pos + f.size)).length = f.size then
    .ok (f.unpack (slice buf pos (pos + f.size)), pos + f.size)
  else .error (.decoder (.struct f.text (slice buf pos (pos + f.size))) none)

/-- The formats of `struct` for floats, with their sizes. -/
inductive FloatFormat
  | float
  | double
  deriving DecidableEq

def FloatFormat.text : FloatFormat → String
  | .float => "<f"
  | .double => "<d"

def FloatFormat.size : FloatFormat → Nat
  | .float => 4
  | .double => 8

/-- `struct.pack` and `struct.unpack` of floats. Packing raises `OverflowError` or `struct.error`,
which `encode_struct` makes an `EncoderException`. -/
structure Floats where
  pack : FloatFormat → Value → Except Exc Bytes
  unpack : FloatFormat → Bytes → UInt64

/-- Floats of which none is packed. -/
def Floats.refusing : Floats where
  pack f value := .error (.encoder (.struct f.text value) none)
  unpack _ _ := 0

/-- `decode_struct` with a float format, `fixed.py:17–26`. -/
def decodeFloat (floats : Floats) (f : FloatFormat) (buf : Bytes) (pos : Int) :
    Except Exc (Value × Int) :=
  if (slice buf pos (pos + f.size)).length = f.size then
    .ok (.float (floats.unpack f (slice buf pos (pos + f.size))), pos + f.size)
  else .error (.decoder (.struct f.text (slice buf pos (pos + f.size))) none)

/-! ### The tables -/

/-- The kinds of numbers, which may stand in packed lists. -/
inductive Scalar
  | uint
  | int
  | sint
  | fixed32
  | sfixed32
  | float
  | fixed64
  | sfixed64
  | double
  deriving DecidableEq

/-- The keys of `ENCODERS` and `DECODERS`. -/
inductive Kind
  | scalar (s : Scalar)
  | bytes
  | bytesHex
  | string
  | packed (s : Scalar)
  deriving DecidableEq

/-- `BaseWireTypes`, `models.py:4–10`. -/
def varintType : Nat := 0
def fixed64Type : Nat := 1
def lengthDelimitedType : Nat := 2
def startGroupType : Nat := 3
def endGroupType : Nat := 4
def fixed32Type : Nat := 5

def Scalar.wireType : Scalar → Nat
  | .uint | .int | .sint => varintType
  | .fixed32 | .sfixed32 | .float => fixed32Type
  | .fixed64 | .sfixed64 | .double => fixed64Type

/-- `WireTypes`, `models.py:18–41`. -/
def Kind.wireType : Kind → Nat
  | .scalar s => s.wireType
  | .bytes | .bytesHex | .string | .packed _ => lengthDelimitedType

/-- The name of a kind. -/
def Scalar.name : Scalar → String
  | .uint => "uint"
  | .int => "int"
  | .sint => "sint"
  | .fixed32 => "fixed32"
  | .sfixed32 => "sfixed32"
  | .float => "float"
  | .fixed64 => "fixed64"
  | .sfixed64 => "sfixed64"
  | .double => "double"

def Kind.name : Kind → String
  | .scalar s => s.name
  | .bytes => "bytes"
  | .bytesHex => "bytes_hex"
  | .string => "string"
  | .packed s => "packed_" ++ s.name

/-- The check of an encoder of integers for its argument. -/
def intOf (coding : String) : Value → Except Exc Int
  | .int n => .ok n
  | value => .error (.encoder (.nonInt coding value) none)

variable (floats : Floats)

/-- `ENCODERS` of the numbers, `type_maps.py:44–52`. -/
def encodeScalar (s : Scalar) (value : Value) : Except Exc Bytes :=
  match s with
  | .uint => intOf "uvarint" value >>= encodeUvarint
  | .int => intOf "varint" value >>= encodeVarint
  | .sint => intOf "svarint" value >>= encodeSvarint
  | .fixed32 => encodeStruct .fixed32 value
  | .sfixed32 => encodeStruct .sfixed32 value
  | .float => floats.pack .float value
  | .fixed64 => encodeStruct .fixed64 value
  | .sfixed64 => encodeStruct .sfixed64 value
  | .double => floats.pack .double value

/-- An integer that was read, as a value. -/
def intRead {α : Type} (value : α → Int) : Except Exc (α × Int) → Except Exc (Value × Int)
  | .ok (a, pos) => .ok (.int (value a), pos)
  | .error e => .error e

/-- `DECODERS` of the numbers, `type_maps.py:69–77`. -/
def decodeScalar (s : Scalar) (buf : Bytes) (pos : Int) : Except Exc (Value × Int) :=
  match s with
  | .uint => intRead (fun n : Nat ↦ n) (decodeUvarint buf pos)
  | .int => intRead id (decodeVarint buf pos)
  | .sint => intRead id (decodeSvarint buf pos)
  | .fixed32 => intRead id (decodeStruct .fixed32 buf pos)
  | .sfixed32 => intRead id (decodeStruct .sfixed32 buf pos)
  | .float => decodeFloat floats .float buf pos
  | .fixed64 => intRead id (decodeStruct .fixed64 buf pos)
  | .sfixed64 => intRead id (decodeStruct .sfixed64 buf pos)
  | .double => decodeFloat floats .double buf pos

/-- The elements over which `for value in values` goes; a `TypeError` is `none`. -/
def elements : Value → Option (List Value)
  | .list items => some items
  | .str text => some (text.map fun c ↦ .str [c])
  | .bytes data => some (data.map fun b ↦ .int b.toNat)
  | .message entries => some (entries.map fun entry ↦ .str entry.1)
  | .int _ | .float _ => none

/-- `generate_packed_encoder`, `type_maps.py:6–17`. -/
def encodePacked (wrapped : Value → Except Exc Bytes) (values : Value) : Except Exc Bytes :=
  match elements values with
  | none => .error .typeError
  | some items => do
    let output ← items.mapM wrapped
    encodeLengthPrefixed output.flatten

/-- The loop of `generate_packed_decoder`, `type_maps.py:27–29`: every round moves on. -/
def unpackUntil (wrapped : Bytes → Int → Except Exc (Value × Int)) (buf : Bytes) (stop : Int) :
    (fuel : Nat) → (pos : Int) → Except Exc (List Value × Int)
  | 0, pos => if pos < stop then .error .unfinished else .ok ([], pos)
  | fuel + 1, pos =>
    if pos < stop then do
      let (value, pos) ← wrapped buf pos
      let (values, pos) ← unpackUntil wrapped buf stop fuel pos
      return (value :: values, pos)
    else .ok ([], pos)

/-- `generate_packed_decoder`, `type_maps.py:19–40`. -/
def decodePacked (wrapped : Bytes → Int → Except Exc (Value × Int)) (buf : Bytes) (pos : Int) :
    Except Exc (Value × Int) := do
  let (length, pos) ← decodeVarint buf pos
  let (output, last) ← unpackUntil wrapped buf (pos + length) length.toNat pos
  if last > pos + length then throw (.decoder (.packed length (buf.length - last)) none)
  return (.list output, last)

/-- `ENCODERS`, `type_maps.py:43–65`. -/
def Kind.encode (kind : Kind) (value : Value) : Except Exc Bytes :=
  match kind with
  | .scalar s => encodeScalar floats s value
  | .bytes => encodeBytes value
  | .bytesHex => encodeBytesHex value
  | .string => encodeString value
  | .packed s => encodePacked (encodeScalar floats s) value

/-- `DECODERS`, `type_maps.py:68–90`. -/
def Kind.decode (kind : Kind) (buf : Bytes) (pos : Int) : Except Exc (Value × Int) :=
  match kind with
  | .scalar s => decodeScalar floats s buf pos
  | .bytes => do
    let (data, stop) ← decodeBytes buf pos
    return (.bytes data, stop)
  | .bytesHex => do
    let (data, stop) ← decodeBytesHex buf pos
    return (.bytes data, stop)
  | .string => do
    let (text, stop) ← decodeString buf pos
    return (.str text, stop)
  | .packed s => decodePacked (decodeScalar floats s) buf pos

end ScrapyCffi.Protobuf
