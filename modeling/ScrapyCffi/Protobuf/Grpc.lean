import ScrapyCffi.Platform.Protobuf
import ScrapyCffi.Protobuf.Api

/-!
# gRPC streams of Protobuf messages

`PythonProtobufCodec`, `platform/protobuf.py:148–181`, as `blackboxprotobuf/__init__.py:22–32` and
`ProtobufFactory` use it: gRPC framing around the bundled codec. `gzip` is a parameter.
-/

namespace ScrapyCffi.Protobuf

open ScrapyCffi.Base ScrapyCffi.Platform

variable {γ : Type}

/-- `gzip.compress` and `gzip.decompress`. -/
structure Gzip (γ : Type) where
  compress : Bytes → Bytes
  decompress : Bytes → Except γ Bytes
  decompress_compress : ∀ data, decompress (compress data) = .ok data

/-- The Python codec. -/
def pythonProtobufCodec (floats : Floats) (gzip : Gzip γ) (fuel : Nat) :
    PayloadCodec (List (Text × Value)) TypeDefDict (Exc ⊕ γ) where
  encodeMessage data typedef := (protobufEncode floats data typedef).mapError .inl
  decodeMessage data := (protobufDecode floats fuel data).mapError .inl
  compress := gzip.compress
  decompress data := (gzip.decompress data).mapError .inr

variable {floats : Floats} {gzip : Gzip γ} {fuel : Nat}

/-- A frame of some bytes. -/
def frameOf (gzip : Gzip γ) (isGzip : Bool) (data : Bytes) : Bytes :=
  frameBytes isGzip (if isGzip then gzip.compress data else data)

/-- A frame of bytes that are decoded is a frame of what they are decoded to. -/
theorem isFrame_frameOf {isGzip : Bool} {data : Bytes} {message : List (Text × Value) × TypeDefDict}
    (hread : protobufDecode floats fuel data = .ok message)
    (hlength : (if isGzip then gzip.compress data else data).length < 2 ^ 32) :
    IsFrame (frameReader (pythonProtobufCodec floats gzip fuel)) IsValueError
      (frameOf gzip isGzip data) message := by
  -- to the frame reader it does not matter how messages are encoded
  let codec : PayloadCodec (List (Text × Value)) TypeDefDict (Exc ⊕ γ) :=
    { pythonProtobufCodec floats gzip fuel with encodeMessage := fun _ _ ↦ .ok data }
  have hinverse : codec.Inverse message := by
    intro encoded hencoded
    cases hencoded
    constructor
    · show (protobufDecode floats fuel data).mapError _ = _
      rw [hread]
      rfl
    · show (gzip.decompress (gzip.compress data)).mapError _ = _
      rw [gzip.decompress_compress]
      rfl
  have hframe : grpcEncode codec isGzip message = .ok (frameOf gzip isGzip data) :=
    grpcEncode_eq_ok.mpr ⟨data, rfl, hlength, rfl⟩
  have hreader : frameReader codec = frameReader (pythonProtobufCodec floats gzip fuel) := rfl
  rw [← hreader]
  exact isFrame_of_grpcEncode hinverse hframe

/-- A `gzip` that only puts a byte in front. -/
def Gzip.marked : Gzip Unit where
  compress data := 31 :: data
  decompress
    | 31 :: data => .ok data
    | _ => .error ()
  decompress_compress _ := rfl

end ScrapyCffi.Protobuf
