import ScrapyCffi.Base.Base64
import ScrapyCffi.Base.Except
import ScrapyCffi.Base.Json
import Mathlib

/-!
# Values of request attributes

The values an attribute can hold and the tagged encoding of `bytes` and `WebSocketMsg` inside
them: `core/downloader/internet/request.py:103–160` and `models/request.py:8–36`. Strings are
those UTF-8 can encode. The floats of the interpreter are a parameter.
-/

namespace ScrapyCffi.Requests

open ScrapyCffi.Base

/-- What the code uses of the floats: their comparisons, empty for NaN, and their text. -/
class PyFloat (φ : Type) where
  ofInt : Int → φ
  finite : φ → Bool
  compare : φ → φ → Option Ordering
  compareInt : φ → Int → Option Ordering
  repr : φ → Numeral

/-- The exceptions the code raises or lets through. -/
inductive PyError
  | typeError
  | attributeError
  | keyError
  | indexError
  | binasciiError
  | unicodeError
  | zlibError
  | valueError (message : String)
  deriving DecidableEq

/-- `WebSocketMsg`, `models/request.py:8–23`: the validator leaves only bytes in `data`. -/
structure WebSocketMsg where
  data : List UInt8
  flags : Option Nat
  deriving DecidableEq

/-- A value of an attribute or an argument; a function is known by its `__name__`. -/
inductive Value (φ : Type)
  | none
  | bool (b : Bool)
  | int (n : Int)
  | float (x : φ)
  | str (s : String)
  | bytes (b : List UInt8)
  | msg (m : WebSocketMsg)
  | list (items : List (Value φ))
  | tuple (items : List (Value φ))
  | dict (entries : List (Value φ × Value φ))
  | function (name : String)

variable {φ : Type}

/-- `dict.get` under a string. -/
def dictGet (name : String) : List (Value φ × Value φ) → Option (Value φ)
  | [] => Option.none
  | (.str key, value) :: rest => if key = name then some value else dictGet name rest
  | _ :: rest => dictGet name rest

/-- `bool(value)`. -/
def Value.truthy [PyFloat φ] : Value φ → Bool
  | .none => false
  | .bool b => b
  | .int n => n ≠ 0
  | .float x => PyFloat.compareInt x 0 ≠ some .eq
  | .str s => s ≠ ""
  | .bytes b => b ≠ []
  | .msg _ => true
  | .list items => !items.isEmpty
  | .tuple items => !items.isEmpty
  | .dict entries => !entries.isEmpty
  | .function _ => true

/-! ## Tagged encoding -/

/-- `base64.b64encode(data).decode()`. -/
def b64encode (data : List UInt8) : String := String.ofList (base64Encode data)

/-- `base64.b64decode`: text has to be ASCII, bytes-like objects are taken as they are. -/
def b64decode : Value φ → Except PyError (List UInt8)
  | .str s =>
    if s.toList.all fun c ↦ c.toNat < 128 then
      (base64Decode s.toList).elim (.error .binasciiError) .ok
    else .error (.valueError "string argument should contain only ASCII characters")
  | .bytes b => (base64Decode (b.map fun n ↦ Char.ofNat n.toNat)).elim (.error .binasciiError) .ok
  | _ => .error .typeError

/-- `WebSocketFlag.BINARY`, `platform/http.py:34`. -/
def binaryFlag : Nat := 2

/-- `WebSocketFlag(value)` of the integer flags: a negative number is read within the known
bits, and any other number has to equal a member. -/
def webSocketFlag [PyFloat φ] : Value φ → Except PyError Nat
  | .bool b => .ok b.toNat
  | .int n =>
    if 0 ≤ n then .ok n.toNat else .ok (max 64 (2 ^ (n.natAbs.log2 + 1) : Int) + n).toNat
  | .float x =>
    ([1, 2, 4, 8, 16, 32].find? fun n : Nat ↦ PyFloat.compareInt x n = some .eq).elim
      (.error (.valueError "not a valid WebSocketFlag")) .ok
  | _ => .error (.valueError "not a valid WebSocketFlag")

/-- `WebSocketMsg.to_dict`, `models/request.py:25–30`. -/
def WebSocketMsg.toDict (m : WebSocketMsg) : Value φ :=
  .dict [(.str "__wsmsg__", .bool true), (.str "data", .str (b64encode m.data)),
    (.str "flags", .int ((m.flags.filter (· ≠ 0)).getD binaryFlag))]

/-- `WebSocketMsg.from_dict`, `models/request.py:32–36`. -/
def WebSocketMsg.fromDict [PyFloat φ] (d : List (Value φ × Value φ)) :
    Except PyError WebSocketMsg := do
  let data ← b64decode (← (dictGet "data" d).elim (.error .keyError) .ok)
  let flags ← webSocketFlag ((dictGet "flags" d).getD (.int binaryFlag))
  return { data, flags := some flags }

mutual

/-- `_encode_data`, `request.py:104–116`. -/
def Value.encodeData : Value φ → Value φ
  | .bytes data => .dict [(.str "__bytes__", .bool true), (.str "b64", .str (b64encode data))]
  | .msg m => m.toDict
  | .list items => .list (encodeItems items)
  | .dict entries => .dict (encodeEntries entries)
  | .tuple items => .tuple (encodeItems items)
  | .none => .none
  | .bool b => .bool b
  | .int n => .int n
  | .float x => .float x
  | .str s => .str s
  | .function name => .function name
  termination_by structural v => v

/-- `_encode_data` of each item. -/
def encodeItems : List (Value φ) → List (Value φ)
  | [] => []
  | item :: rest => item.encodeData :: encodeItems rest
  termination_by structural l => l

/-- `_encode_data` of each value of a dictionary. -/
def encodeEntries : List (Value φ × Value φ) → List (Value φ × Value φ)
  | [] => []
  | (key, value) :: rest => (key, value.encodeData) :: encodeEntries rest
  termination_by structural l => l

end

variable [PyFloat φ]

mutual

/-- `_decode_data`, `request.py:138–151`. -/
def Value.decodeData : Value φ → Except PyError (Value φ)
  | .dict entries => do
    if (dictGet "__bytes__" entries).any Value.truthy then
      return .bytes (← b64decode (← (dictGet "b64" entries).elim (.error .keyError) .ok))
    if (dictGet "__wsmsg__" entries).any Value.truthy then
      return .msg (← WebSocketMsg.fromDict entries)
    return .dict (← decodeEntries entries)
  | .list items => do return .list (← decodeItems items)
  | .tuple items => do return .tuple (← decodeItems items)
  | .none => .ok .none
  | .bool b => .ok (.bool b)
  | .int n => .ok (.int n)
  | .float x => .ok (.float x)
  | .str s => .ok (.str s)
  | .bytes data => .ok (.bytes data)
  | .msg m => .ok (.msg m)
  | .function name => .ok (.function name)
  termination_by structural v => v

/-- `_decode_data` of each item. -/
def decodeItems : List (Value φ) → Except PyError (List (Value φ))
  | [] => .ok []
  | item :: rest => do
    let decoded ← item.decodeData
    return decoded :: (← decodeItems rest)
  termination_by structural l => l

/-- `_decode_data` of each value of a dictionary. -/
def decodeEntries : List (Value φ × Value φ) → Except PyError (List (Value φ × Value φ))
  | [] => .ok []
  | (key, value) :: rest => do
    let decoded ← value.decodeData
    return (key, decoded) :: (← decodeEntries rest)
  termination_by structural l => l

end

end ScrapyCffi.Requests
