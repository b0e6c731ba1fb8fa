import ScrapyCffi.Protobuf.Acceptance
import ScrapyCffi.Protobuf.Dicts

/-!
# The functions of the codec

`api.py` of `utils/blackboxprotobuf` and `ProtobufFactory`, `utils/protobuf.py:8–19`, with the
Python backend.
-/

namespace ScrapyCffi.Protobuf

open ScrapyCffi.Base

variable (floats : Floats)

/-- What a message type is given as: a name of `known_types`, or a definition. -/
inductive MessageType
  | name (name : String)
  | definition (typedef : TypeDefDict)

namespace Api

/-- `decode_message`, `api.py:17–64`. -/
def decodeMessage (config : Config) (fuel : Nat) (buf : Bytes) (messageType : Option MessageType) :
    Except Exc (List (Text × Value) × TypeDefDict) :=
  let messageType : TypeDefDict :=
    match messageType with
    | none => ⟨[]⟩
    | some (.name name) => (Dict.lookup name config.knownTypes).getD ⟨[]⟩
    | some (.definition typedef) => typedef
  (Protobuf.decodeMessage floats config fuel buf (.fromDict messageType)).map fun decoded ↦
    (decoded.message, decoded.typedef.toDict)

/-- `encode_message`, `api.py:67–114`. -/
def encodeMessage (config : Config) (value : Value) (messageType : Option MessageType) :
    Except Exc Bytes :=
  match messageType with
  | none => .error (.encoder .noDefinition none)
  | some (.name name) =>
    match Dict.lookup name config.knownTypes with
    | none => .error (.encoder (.unknownName name) none)
    | some typedef => Protobuf.encodeMessage floats config value (.fromDict typedef) [] none
  | some (.definition typedef) =>
    Protobuf.encodeMessage floats config value (.fromDict typedef) [] none

end Api

/-- `ProtobufFactory.protobuf_decode`, `protobuf.py:16–19`. -/
def protobufDecode (fuel : Nat) (data : Bytes) : Except Exc (List (Text × Value) × TypeDefDict) :=
  Api.decodeMessage floats .default fuel data none

/-- `ProtobufFactory.protobuf_encode`, `protobuf.py:11–14`. -/
def protobufEncode (data : List (Text × Value)) (typedef : TypeDefDict) : Except Exc Bytes :=
  Api.encodeMessage floats .default (.message data) (some (.definition typedef))

variable {floats}

/-! ### Short messages -/

theorem forward_of_short {m : Bytes} (h : m.length < 11) : Forward m := by
  induction hlength : m.length using Nat.strong_induction_on generalizing m with
  | _ k ih =>
    constructor
    · exact steady_of_short h
    · intro fs f payload hm hf hpayload
      have hshorter := length_payload_lt hf hpayload
      rw [← hm, hlength] at hshorter
      exact ih payload.length hshorter (by omega) rfl

/-! ### There and back -/

/-- What decoding returns is encoded to the same fields. -/
theorem exists_encodeMessage {config : Config} (hplain : config.IsPlain) {fs : List WireField}
    (h : Forward (serialize fs)) {fuel : Nat} {message : List (Text × Value)}
    {typedef : TypeDefDict}
    (hread : Api.decodeMessage floats config fuel (serialize fs) none = .ok (message, typedef)) :
    ∃ gs, Api.encodeMessage floats config (.message message) (some (.definition typedef)) =
      .ok (serialize gs) ∧ SameFields fs gs := by
  obtain ⟨decoded, hdecoded, heq⟩ := exists_of_map_eq_ok hread
  cases heq
  obtain ⟨hinferred, -, hreproduces⟩ := decodeMessage_spec hplain h .empty hdecoded
  obtain ⟨hreread, hextends⟩ := reread_inferred hinferred
  obtain ⟨fs', gs, outputs, hfs, hsame, hencode, hassemble⟩ :=
    hreproduces _ hreread hextends [] none
  obtain rfl := serialize_injective hfs
  refine ⟨gs, ?_, hsame⟩
  rw [Api.encodeMessage, Protobuf.encodeMessage, hencode, ← hassemble]
  rfl

/-- A message of a number and a nested message. -/
def exampleFields : List WireField :=
  [⟨1, .varint 150 (by omega), by omega⟩, ⟨2, .lengthDelimited [8, 1] (by simp), by omega⟩]

theorem serialize_exampleFields : serialize exampleFields = [8, 150, 1, 18, 2, 8, 1] := by
  simp [exampleFields, WireField.bytes, WireField.tag, Content.bytes, Content.wireType,
    Base128.bytes, varintType, lengthDelimitedType]

theorem consistent_exampleFields : Consistent exampleFields := by
  intro f hf g hg hnumber
  simp only [exampleFields, List.mem_cons, List.not_mem_nil, or_false] at hf hg
  rcases hf with rfl | rfl <;> rcases hg with rfl | rfl <;> simp_all

/-- Without a definition, decoding is that by the empty one. -/
theorem protobufDecode_eq (floats : Floats) (fuel : Nat) (data : Bytes) :
    protobufDecode floats fuel data =
      (decodeMessage floats .default fuel data .empty).map fun decoded ↦
      (decoded.message, decoded.typedef.toDict) := rfl

/-- A message with one wire type for each number is decoded, and what is returned is encoded. -/
theorem exists_protobufEncode (floats : Floats) {fs : List WireField}
    (hconsistent : Consistent fs) (h : Forward (serialize fs)) {fuel : Nat}
    (hfuel : (serialize fs).length ≤ fuel) :
    ∃ message typedef gs, protobufDecode floats fuel (serialize fs) = .ok (message, typedef) ∧
      protobufEncode floats message typedef = .ok (serialize gs) ∧ SameFields fs gs := by
  obtain ⟨decoded, hdecoded⟩ :=
    (decodeMessage_empty_iff floats isPlain_default h hfuel).1.mpr ⟨fs, rfl, hconsistent⟩
  have hread : protobufDecode floats fuel (serialize fs) =
      .ok (decoded.message, decoded.typedef.toDict) := by
    rw [protobufDecode_eq, hdecoded]
    rfl
  obtain ⟨gs, hencode, hsame⟩ := exists_encodeMessage isPlain_default h hread
  exact ⟨_, _, gs, hread, hencode, hsame⟩

end ScrapyCffi.Protobuf
