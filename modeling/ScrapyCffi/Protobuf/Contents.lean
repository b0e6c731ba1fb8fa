import ScrapyCffi.Protobuf.Fields
import ScrapyCffi.Protobuf.Packed

/-!
# The content of a field is decoded and encoded

What the kinds that decoding falls back on read of a content is written back as that content.
-/

namespace ScrapyCffi.Protobuf

open ScrapyCffi.Base

/-- What is encoded element by element. -/
def Value.isList : Value → Bool
  | .list _ => true
  | _ => false

variable (floats : Floats)

/-- A value of a kind stands for a content. -/
def Stands (kind : Kind) (value : Value) (content : Content) : Prop :=
  kind.encode floats value = .ok content.bytes ∧ value.isList = false ∧
    kind.wireType = content.wireType

/-! ### Numbers -/

theorem decodeUvarint_varint {n : Nat} (h : n < 2 ^ 64) :
    decodeUvarint (Base128.bytes n) 0 = .ok (n, (((Base128.bytes n).length : Nat) : Int)) := by
  have hread : decodeUvarint (Base128.bytes n) (0 : Nat) =
      .ok (n, ((0 + (Base128.bytes n).length : Nat) : Int)) :=
    (decodeUvarint_eq_ok_iff (Nat.zero_le _)).mpr ⟨h, List.prefix_refl _, rfl⟩
  rw [Nat.zero_add] at hread
  exact hread

theorem decodeStruct_all {f : IntFormat} {data : Bytes} (h : data.length = f.size) :
    decodeStruct f data 0 = .ok (f.unpack data, (f.size : Int)) := by
  have hslice : slice data 0 (0 + f.size) = data := by
    have hnat := slice_natCast data 0 f.size
    rw [List.drop_zero, ← h, List.take_length] at hnat
    rw [← h]
    exact hnat
  rw [decodeStruct, hslice, if_pos h, Int.zero_add]

theorem encodeStruct_unpack {f : IntFormat} {data : Bytes} (h : data.length = f.size) :
    encodeStruct f (.int (f.unpack data)) = .ok data := by
  obtain ⟨hlow, hhigh, hbytes⟩ := IntFormat.pack_unpack h
  simp only [encodeStruct, hlow, hhigh, hbytes, and_self, if_true]

/-- A number is read of every content of its wire type, and stands for it. -/
theorem exists_decodeScalar {s : Scalar} (hs : s.IsInt) {c : Content}
    (h : s.wireType = c.wireType) :
    ∃ value stop, decodeScalar floats s c.bytes 0 = .ok (value, stop) ∧
      Stands floats (.scalar s) value c := by
  have hvarint : s.wireType = varintType → ∃ n, ∃ hn : n < 2 ^ 64, c = .varint n hn := by
    intro htype
    cases c with
    | varint n hn => exact ⟨n, hn, rfl⟩
    | fixed64 | lengthDelimited | fixed32 =>
      rw [h] at htype
      cases htype
  have hfixed32 : s.wireType = fixed32Type →
      ∃ data, ∃ hd : data.length = 4, c = .fixed32 data hd := by
    intro htype
    cases c with
    | fixed32 data hd => exact ⟨data, hd, rfl⟩
    | fixed64 | lengthDelimited | varint =>
      rw [h] at htype
      cases htype
  have hfixed64 : s.wireType = fixed64Type →
      ∃ data, ∃ hd : data.length = 8, c = .fixed64 data hd := by
    intro htype
    cases c with
    | fixed64 data hd => exact ⟨data, hd, rfl⟩
    | fixed32 | lengthDelimited | varint =>
      rw [h] at htype
      cases htype
  cases s with
  | uint =>
    obtain ⟨n, hn, rfl⟩ := hvarint rfl
    refine ⟨.int n, ((Base128.bytes n).length : Int), ?_, ?_, rfl, rfl⟩
    · rw [decodeScalar, Content.bytes, decodeUvarint_varint hn]
      rfl
    · exact encodeUvarint_natCast hn
  | int =>
    obtain ⟨n, hn, rfl⟩ := hvarint rfl
    have hread := (decodeVarint_eq_ok_iff (Nat.zero_le (Base128.bytes n).length)).mpr
      ⟨n, decodeUvarint_varint hn, rfl⟩
    refine ⟨.int (signed n), ((Base128.bytes n).length : Int), ?_, ?_, rfl, rfl⟩
    · rw [decodeScalar, Content.bytes, show decodeVarint (Base128.bytes n) 0 = _ from hread]
      rfl
    · exact encodeVarint_signed hn
  | sint =>
    obtain ⟨n, hn, rfl⟩ := hvarint rfl
    have hread := (decodeSvarint_eq_ok_iff (Nat.zero_le (Base128.bytes n).length)).mpr
      ⟨n, decodeUvarint_varint hn, rfl⟩
    refine ⟨.int (decodeZigZag n), ((Base128.bytes n).length : Int), ?_, ?_, rfl, rfl⟩
    · rw [decodeScalar, Content.bytes, show decodeSvarint (Base128.bytes n) 0 = _ from hread]
      rfl
    · exact encodeSvarint_decodeZigZag hn
  | fixed32 =>
    obtain ⟨data, hd, rfl⟩ := hfixed32 rfl
    refine ⟨.int (IntFormat.fixed32.unpack data), (IntFormat.fixed32.size : Int), ?_, ?_, rfl, rfl⟩
    · rw [decodeScalar, Content.bytes, decodeStruct_all hd, intRead, id_eq]
    · rw [Kind.encode, encodeScalar, Content.bytes]
      exact encodeStruct_unpack hd
  | sfixed32 =>
    obtain ⟨data, hd, rfl⟩ := hfixed32 rfl
    refine ⟨.int (IntFormat.sfixed32.unpack data), (IntFormat.sfixed32.size : Int), ?_, ?_,
      rfl, rfl⟩
    · rw [decodeScalar, Content.bytes, decodeStruct_all hd, intRead, id_eq]
    · rw [Kind.encode, encodeScalar, Content.bytes]
      exact encodeStruct_unpack hd
  | fixed64 =>
    obtain ⟨data, hd, rfl⟩ := hfixed64 rfl
    refine ⟨.int (IntFormat.fixed64.unpack data), (IntFormat.fixed64.size : Int), ?_, ?_, rfl, rfl⟩
    · rw [decodeScalar, Content.bytes, decodeStruct_all hd, intRead, id_eq]
    · rw [Kind.encode, encodeScalar, Content.bytes]
      exact encodeStruct_unpack hd
  | sfixed64 =>
    obtain ⟨data, hd, rfl⟩ := hfixed64 rfl
    refine ⟨.int (IntFormat.sfixed64.unpack data), (IntFormat.sfixed64.size : Int), ?_, ?_,
      rfl, rfl⟩
    · rw [decodeScalar, Content.bytes, decodeStruct_all hd, intRead, id_eq]
    · rw [Kind.encode, encodeScalar, Content.bytes]
      exact encodeStruct_unpack hd
  | float => exact absurd rfl hs.1
  | double => exact absurd rfl hs.2

/-! ### Texts and bytes -/

theorem encodeLengthPrefixed_eq {data : Bytes} (h : data.length < 2 ^ 63) :
    encodeLengthPrefixed data = .ok (Base128.bytes data.length ++ data) := by
  have hlength : encodeVarint data.length = .ok (Base128.bytes data.length) := by
    rw [← signed_of_lt h, encodeVarint_signed (by omega)]
  rw [encodeLengthPrefixed, hlength]
  rfl

theorem decodeVarint_length {payload : Bytes} (h : payload.length < 2 ^ 63) :
    decodeVarint (Base128.bytes payload.length ++ payload) 0 =
      .ok ((payload.length : Int), ((Base128.bytes payload.length).length : Int)) := by
  apply (decodeVarint_eq_ok_iff (Nat.zero_le (Base128.bytes payload.length ++ payload).length)).mpr
  refine ⟨payload.length, ?_, (signed_of_lt h).symm⟩
  apply (decodeUvarint_eq_ok_iff (Nat.zero_le (Base128.bytes payload.length ++ payload).length)).mpr
  refine ⟨by omega, List.prefix_append _ _, ?_⟩
  omega

theorem decodeBytes_lengthDelimited {payload : Bytes} (h : payload.length < 2 ^ 63) :
    decodeBytes (Base128.bytes payload.length ++ payload) 0 = .ok (payload,
      ((Base128.bytes payload.length).length : Int) + payload.length) := by
  have hslice := slice_natCast (Base128.bytes payload.length ++ payload)
    (Base128.bytes payload.length).length payload.length
  rw [List.drop_left, List.take_length] at hslice
  rw [decodeBytes, decodeVarint_length h]
  show Except.ok (slice _ _ _, _) = _
  rw [hslice]

theorem hexValue_hexDigit {n : Nat} (h : n < 16) : hexValue (hexDigit n) = some n := by
  rw [hexDigit]
  split
  · next hten =>
    have hbyte : (UInt8.ofNat (48 + n)).toNat = 48 + n := by
      rw [UInt8.toNat_ofNat']
      omega
    rw [hexValue, hbyte, if_pos (by omega)]
    congr 1
    omega
  · next hten =>
    have hbyte : (UInt8.ofNat (87 + n)).toNat = 87 + n := by
      rw [UInt8.toNat_ofNat']
      omega
    rw [hexValue, hbyte, if_neg (by omega), if_pos (by omega)]
    congr 1
    omega

theorem unhexlify_hexlify (data : Bytes) : unhexlify (hexlify data) = some data := by
  induction data with
  | nil => rfl
  | cons b rest ih =>
    have hb : b.toNat < 256 := b.toNat_lt
    have hvalue : 16 * (b.toNat / 16) + b.toNat % 16 = b.toNat := by omega
    have hcons : hexlify (b :: rest) =
        hexDigit (b.toNat / 16) :: hexDigit (b.toNat % 16) :: hexlify rest := rfl
    rw [hcons, unhexlify, hexValue_hexDigit (by omega), hexValue_hexDigit (by omega), ih]
    show some (UInt8.ofNat (16 * (b.toNat / 16) + b.toNat % 16) :: rest) = _
    rw [hvalue, UInt8.ofNat_toNat]

/-- The kinds that a length-delimited content falls back on. -/
def Kind.IsFallback (kind : Kind) : Prop := kind = .string ∨ kind = .bytes ∨ kind = .bytesHex

/-- What is read of a length-delimited content by one of these kinds stands for it. -/
theorem stands_of_decode {kind : Kind} (hkind : kind.IsFallback) {payload : Bytes}
    {h : payload.length < 2 ^ 63} {value : Value} {stop : Int}
    (hread : kind.decode floats (Content.lengthDelimited payload h).bytes 0 = .ok (value, stop)) :
    Stands floats kind value (.lengthDelimited payload h) := by
  rw [Content.bytes] at hread
  rcases hkind with rfl | rfl | rfl
  · obtain ⟨⟨text, last⟩, htext, heq⟩ := bind_eq_ok.mp hread
    cases heq
    rw [decodeString, decodeBytes_lengthDelimited h] at htext
    simp only [bind, Except.bind] at htext
    split at htext
    · next text' hutf8 =>
      cases htext
      refine ⟨?_, rfl, rfl⟩
      show encodeLengthPrefixed (Percent.encodeUtf8 text) = _
      rw [encodeUtf8_of_decodeUtf8 hutf8]
      exact encodeLengthPrefixed_eq h
    · cases htext
  · obtain ⟨⟨data, last⟩, hdata, heq⟩ := bind_eq_ok.mp hread
    cases heq
    rw [decodeBytes_lengthDelimited h] at hdata
    cases hdata
    exact ⟨encodeLengthPrefixed_eq h, rfl, rfl⟩
  · obtain ⟨⟨data, last⟩, hdata, heq⟩ := bind_eq_ok.mp hread
    cases heq
    rw [decodeBytesHex, decodeBytes_lengthDelimited h] at hdata
    cases hdata
    refine ⟨?_, rfl, rfl⟩
    show encodeBytesHex (.bytes (hexlify payload)) = _
    rw [encodeBytesHex]
    rw [unhexlify_hexlify]
    exact encodeLengthPrefixed_eq h

/-- A length-delimited content can always be read as bytes. -/
theorem decode_bytes_lengthDelimited {payload : Bytes} (h : payload.length < 2 ^ 63) :
    Kind.bytes.decode floats (Content.lengthDelimited payload h).bytes 0 =
      .ok (.bytes payload, ((Base128.bytes payload.length).length : Int) + payload.length) := by
  rw [Content.bytes, Kind.decode, decodeBytes_lengthDelimited h]
  rfl

/-- A failure of these kinds is a `DecoderException`. -/
theorem decode_eq_error {kind : Kind} (hkind : kind.IsFallback) {payload : Bytes}
    {h : payload.length < 2 ^ 63} {e : Exc}
    (hread : kind.decode floats (Content.lengthDelimited payload h).bytes 0 = .error e) :
    ∃ m p, e = .decoder m p := by
  rw [Content.bytes] at hread
  rcases hkind with rfl | rfl | rfl
  · rw [Kind.decode, decodeString, decodeBytes_lengthDelimited h] at hread
    simp only [bind, Except.bind] at hread
    split at hread
    · next e' htext =>
      cases hread
      split at htext
      · cases htext
      · cases htext
        exact ⟨_, _, rfl⟩
    · cases hread
  · rw [Kind.decode, decodeBytes_lengthDelimited h] at hread
    cases hread
  · rw [Kind.decode, decodeBytesHex, decodeBytes_lengthDelimited h] at hread
    cases hread

end ScrapyCffi.Protobuf
