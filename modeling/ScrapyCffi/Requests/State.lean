import ScrapyCffi.Requests.Json

/-!
# Scheduler state

`encode_state` and `decode_state`, `utils/state_codec.py:14–64`. `zlib` and `json.loads` are
parameters; the text that is compressed, its size limit and the header are the code's.
-/

namespace ScrapyCffi.Requests

open ScrapyCffi.Base

/-- What a `zlib.decompressobj()` is left with by one call of `decompress`. -/
structure Inflated where
  data : List UInt8
  unconsumedTail : List UInt8
  flush : Nat → List UInt8
  eof : Bool
  unusedData : List UInt8

/-- The library functions around the state; `compress` refuses a bad level, `decompress` corrupt
data. -/
structure Codec (φ : Type) where
  loads : List Char → Except PyError (Value φ)
  compress : Int → List UInt8 → Except PyError (List UInt8)
  decompress : List UInt8 → Nat → Except PyError Inflated

variable {φ : Type} [PyFloat φ]

/-- `_MAGIC`. -/
def stateMagic : List UInt8 := [83, 67, 70, 49]

/-- `_RAW`. -/
def stateRaw : UInt8 := 74

/-- `_ZLIB`. -/
def stateZlib : UInt8 := 90

/-- `MAX_STATE_BYTES`. -/
def maxStateBytes : Nat := 16 * 1024 * 1024

/-- `str.encode("utf-8")`. -/
def utf8Encode (text : List Char) : List UInt8 := text.flatMap String.utf8EncodeChar

/-- `bytes.decode("utf-8")`. -/
def utf8Decode (data : List UInt8) : Except PyError (List Char) :=
  data.toByteArray.utf8Decode?.elim (.error .unicodeError) fun text ↦ .ok text.toList

/-- `encode_state`, `state_codec.py:14–32`. -/
def encodeState (codec : Codec φ) (value : Value φ) (compressionLevel : Int) (maxSize : Nat) :
    Except PyError (List UInt8) := do
  let raw := utf8Encode (← dumps value)
  if maxSize < raw.length then
    throw (.valueError s!"scheduler state exceeds the {maxSize}-byte logical size limit")
  let compressed ← codec.compress compressionLevel raw
  if compressed.length < raw.length then
    return stateMagic ++ stateZlib :: compressed
  return stateMagic ++ stateRaw :: raw

/-- The part of `decode_state` for compressed data, `state_codec.py:44–58`. -/
def inflate (codec : Codec φ) (data : List UInt8) (maxSize : Nat) :
    Except PyError (List UInt8) := do
  let inflated ← codec.decompress data (maxSize + 1)
  if maxSize < inflated.data.length ∨ inflated.unconsumedTail ≠ [] then
    throw (.valueError s!"decompressed scheduler state exceeds the {maxSize}-byte limit")
  let whole := inflated.data ++ inflated.flush (maxSize + 1 - inflated.data.length)
  if maxSize < whole.length then
    throw (.valueError s!"decompressed scheduler state exceeds the {maxSize}-byte limit")
  if inflated.eof = false ∨ inflated.unusedData ≠ [] then
    throw (.valueError "invalid compressed scheduler state")
  return whole

/-- `decode_state`, `state_codec.py:35–64`. -/
def decodeState (codec : Codec φ) (payload : List UInt8) (maxSize : Nat) :
    Except PyError (Value φ) := do
  if payload.take 4 ≠ stateMagic ∨ payload.length ≤ 4 then
    throw (.valueError "unsupported scheduler state format")
  let data := payload.drop 5
  if payload[4]? = some stateZlib then
    codec.loads (← utf8Decode (← inflate codec data maxSize))
  else if payload[4]? ≠ some stateRaw then
    throw (.valueError "unsupported scheduler state encoding")
  else if maxSize < data.length then
    throw (.valueError s!"scheduler state exceeds the {maxSize}-byte limit")
  else
    codec.loads (← utf8Decode data)

/-- UTF-8 text is read back. -/
theorem utf8Decode_encode (text : List Char) : utf8Decode (utf8Encode text) = .ok text := by
  have h : (utf8Encode text).toByteArray = text.utf8Encode := rfl
  rw [utf8Decode, h, List.utf8Decode?_utf8Encode]
  rfl

/-- `json` reads back the text it writes for a value, if that is JSON. -/
def Codec.ReadsJson (codec : Codec φ) (value : Value φ) : Prop :=
  value.JsonTree → ∀ text, dumps value = .ok text → codec.loads text = .ok value

/-- `zlib` gives back the data it compressed, when the bound leaves room for one byte more. -/
def Codec.Inflates (codec : Codec φ) (level : Int) (raw : List UInt8) : Prop :=
  ∃ data, codec.compress level raw = .ok data ∧ ∀ bound, raw.length < bound →
    ∃ flush, codec.decompress data bound = .ok ⟨raw, [], flush, true, []⟩ ∧
      ∀ length, flush length = []

omit [PyFloat φ] in
/-- What is inflated after compression. -/
theorem inflate_compress {codec : Codec φ} {level : Int} {maxSize : Nat} {raw : List UInt8}
    (hsize : raw.length ≤ maxSize) (h : codec.Inflates level raw) :
    ∃ data, codec.compress level raw = .ok data ∧ inflate codec data maxSize = .ok raw := by
  obtain ⟨data, hdata, hinflates⟩ := h
  obtain ⟨flush, heq, hflush⟩ := hinflates (maxSize + 1) (by omega)
  have hnot : ¬ maxSize < raw.length := by omega
  refine ⟨data, hdata, ?_⟩
  simp [inflate, heq, hflush, hnot, bind, Except.bind, pure, Except.pure]

/-- The state of a JSON value within the size limit is decoded from its encoding. -/
theorem decodeState_encodeState {codec : Codec φ} {value : Value φ} {level : Int} {maxSize : Nat}
    {text : List Char} (htext : dumps value = .ok text)
    (hsize : (utf8Encode text).length ≤ maxSize) (hvalue : value.JsonTree)
    (hjson : codec.ReadsJson value) (hzlib : codec.Inflates level (utf8Encode text)) :
    ∃ payload, encodeState codec value level maxSize = .ok payload ∧
      decodeState codec payload maxSize = .ok value := by
  have hnot : ¬ maxSize < (utf8Encode text).length := by omega
  have hloads := hjson hvalue text htext
  obtain ⟨data, hdata, hinflate⟩ := inflate_compress hsize hzlib
  by_cases hlt : data.length < (utf8Encode text).length
  · refine ⟨stateMagic ++ stateZlib :: data, ?_, ?_⟩
    · simp [encodeState, htext, hnot, hdata, hlt, bind, Except.bind, pure, Except.pure]
    · simp [decodeState, stateMagic, hinflate, utf8Decode_encode, hloads, bind, Except.bind]
  · refine ⟨stateMagic ++ stateRaw :: utf8Encode text, ?_, ?_⟩
    · simp [encodeState, htext, hnot, hdata, hlt, bind, Except.bind, pure, Except.pure]
    · simp [decodeState, stateMagic, stateRaw, stateZlib, hnot, utf8Decode_encode, hloads,
        bind, Except.bind]

end ScrapyCffi.Requests
