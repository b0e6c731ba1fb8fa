import ScrapyCffi.Protobuf.Decode

/-!
# Fields on the wire

What a message is, apart from the code: a list of fields, each a number with a content of one of
four wire types. `_group_by_number` reads the fields of a message one after another, and what it
accepts is such a list, unless a length of 2^63 or more, which it takes for a negative one, leads
it back.
-/

namespace ScrapyCffi.Protobuf

open ScrapyCffi.Base

/-! ### Messages -/

/-- What stands behind a tag. -/
inductive Content
  | varint (value : Nat) (h : value < 2 ^ 64)
  | fixed64 (data : Bytes) (h : data.length = 8)
  | lengthDelimited (payload : Bytes) (h : payload.length < 2 ^ 63)
  | fixed32 (data : Bytes) (h : data.length = 4)
  deriving DecidableEq

namespace Content

def wireType : Content → Nat
  | varint _ _ => varintType
  | fixed64 _ _ => fixed64Type
  | lengthDelimited _ _ => lengthDelimitedType
  | fixed32 _ _ => fixed32Type

def bytes : Content → Bytes
  | varint value _ => Base128.bytes value
  | fixed64 data _ => data
  | lengthDelimited payload _ => Base128.bytes payload.length ++ payload
  | fixed32 data _ => data

/-- What is nested in the content. -/
def payload : Content → Option Bytes
  | lengthDelimited payload _ => some payload
  | _ => none

theorem wireType_lt (c : Content) : c.wireType < 8 := by
  rw [wireType.eq_def]
  split <;> decide

/-- The wire type of nested contents. -/
theorem wireType_eq_lengthDelimited {c : Content} :
    c.wireType = lengthDelimitedType ↔ ∃ payload, c.payload = some payload := by
  cases c with
  | lengthDelimited payload h => simp [wireType, Content.payload]
  | varint | fixed64 | fixed32 => simp [wireType, Content.payload, varintType, fixed64Type,
      lengthDelimitedType, fixed32Type]

end Content

/-- A field: its number, which fits in a tag, and its content. -/
structure WireField where
  number : Nat
  content : Content
  small : number < 2 ^ 61
  deriving DecidableEq

namespace WireField

variable (f : WireField)

def tag : Bytes := Base128.bytes (8 * f.number + f.content.wireType)

def bytes : Bytes := f.tag ++ f.content.bytes

theorem tag_lt : 8 * f.number + f.content.wireType < 2 ^ 64 := by
  have hsmall := f.small
  have htype := f.content.wireType_lt
  omega

theorem length_bytes_pos : 0 < f.bytes.length := by
  have htag := Base128.length_bytes_pos (8 * f.number + f.content.wireType)
  rw [bytes, tag, List.length_append]
  omega

end WireField

/-- The bytes of a message. -/
def serialize (fields : List WireField) : Bytes := fields.flatMap WireField.bytes

@[simp] theorem serialize_nil : serialize [] = [] := rfl

@[simp] theorem serialize_cons (f : WireField) (fields : List WireField) :
    serialize (f :: fields) = f.bytes ++ serialize fields := List.flatMap_cons

@[simp] theorem serialize_append (fields more : List WireField) :
    serialize (fields ++ more) = serialize fields ++ serialize more := List.flatMap_append

theorem length_le_serialize (fields : List WireField) :
    fields.length ≤ (serialize fields).length := by
  induction fields with
  | nil => exact Nat.le_refl 0
  | cons f rest ih =>
    have hf := f.length_bytes_pos
    rw [serialize_cons, List.length_append, List.length_cons]
    omega

/-- A field is known by the bytes that it begins with. -/
theorem bytes_append_inj {f g : WireField} {x y : Bytes} (h : f.bytes ++ x = g.bytes ++ y) :
    f = g ∧ x = y := by
  rw [WireField.bytes, WireField.bytes, List.append_assoc, List.append_assoc] at h
  obtain ⟨htag, hcontent⟩ := Base128.bytes_append_inj h
  have hf := f.content.wireType_lt
  have hg := g.content.wireType_lt
  have hnumber : f.number = g.number := by omega
  have hwire : f.content.wireType = g.content.wireType := by omega
  have hboth : f.content = g.content ∧ x = y := by
    obtain ⟨_, c, _⟩ := f
    obtain ⟨_, d, _⟩ := g
    cases c with
    | varint m _ =>
      cases d with
      | varint n _ =>
        obtain ⟨rfl, hrest⟩ := Base128.bytes_append_inj hcontent
        exact ⟨rfl, hrest⟩
      | fixed64 | lengthDelimited | fixed32 => cases hwire
    | fixed64 data hdata =>
      cases d with
      | fixed64 data' hdata' =>
        obtain ⟨hsame, hrest⟩ := List.append_inj hcontent (hdata.trans hdata'.symm)
        obtain rfl : data = data' := hsame
        exact ⟨rfl, hrest⟩
      | varint | lengthDelimited | fixed32 => cases hwire
    | lengthDelimited p _ =>
      cases d with
      | lengthDelimited q _ =>
        dsimp only [Content.bytes] at hcontent
        rw [List.append_assoc, List.append_assoc] at hcontent
        obtain ⟨hlength, hmore⟩ := Base128.bytes_append_inj hcontent
        obtain ⟨rfl, hrest⟩ := List.append_inj hmore hlength
        exact ⟨rfl, hrest⟩
      | varint | fixed64 | fixed32 => cases hwire
    | fixed32 data hdata =>
      cases d with
      | fixed32 data' hdata' =>
        obtain ⟨hsame, hrest⟩ := List.append_inj hcontent (hdata.trans hdata'.symm)
        obtain rfl : data = data' := hsame
        exact ⟨rfl, hrest⟩
      | varint | fixed64 | lengthDelimited => cases hwire
  obtain ⟨number, c, small⟩ := f
  obtain ⟨number', d, small'⟩ := g
  obtain rfl : number = number' := hnumber
  obtain rfl : c = d := hboth.1
  exact ⟨rfl, hboth.2⟩

/-- A message is split into fields in one way. -/
theorem serialize_injective : serialize.Injective := by
  intro fs gs h
  induction fs generalizing gs with
  | nil =>
    cases gs with
    | nil => rfl
    | cons g gs =>
      have hlength := congrArg List.length h
      have hg := g.length_bytes_pos
      rw [serialize_nil, serialize_cons, List.length_append, List.length_nil] at hlength
      omega
  | cons f fs ih =>
    cases gs with
    | nil =>
      have hlength := congrArg List.length h
      have hf := f.length_bytes_pos
      rw [serialize_nil, serialize_cons, List.length_append, List.length_nil] at hlength
      omega
    | cons g gs =>
      rw [serialize_cons, serialize_cons] at h
      obtain ⟨rfl, hrest⟩ := bytes_append_inj h
      rw [ih hrest]

/-- No field number has two wire types. -/
def Consistent (fields : List WireField) : Prop :=
  ∀ f ∈ fields, ∀ g ∈ fields, f.number = g.number → f.content.wireType = g.content.wireType

/-- A length-delimited field begins here whose length is taken for a negative one. -/
def Backward (rest : Bytes) : Prop :=
  ∃ number n tail, number < 2 ^ 61 ∧ 2 ^ 63 ≤ n ∧ n < 2 ^ 64 ∧
    rest = Base128.bytes (8 * number + lengthDelimitedType) ++ (Base128.bytes n ++ tail)

/-! ### Tags and lengths -/

theorem str_injective : str.Injective := by
  intro m n h
  have hvalue := congrArg (fun digits ↦ Nat.ofDigitChars 10 digits 0) h
  simpa [str, Nat.ofDigitChars_ten_toDigits] using hvalue

theorem decodeTag_eq_ok_iff {buf : Bytes} {pos number wireType : Nat} {stop : Int}
    (hpos : pos ≤ buf.length) :
    decodeTag buf pos = .ok (number, wireType, stop) ↔
      number < 2 ^ 61 ∧ wireType < 8 ∧ Base128.bytes (8 * number + wireType) <+: buf.drop pos ∧
        stop = ((pos + (Base128.bytes (8 * number + wireType)).length : Nat) : Int) := by
  constructor
  · intro h
    obtain ⟨⟨t, next⟩, ht, heq⟩ := bind_eq_ok.mp h
    obtain ⟨hlt, hlead, hnext⟩ := (decodeUvarint_eq_ok_iff hpos).mp ht
    have hdiv : t >>> 3 = t / 8 := Nat.shiftRight_eq_div_pow t 3
    have hmod : t &&& 0x7 = t % 8 := Nat.and_two_pow_sub_one_eq_mod t 3
    simp only [pure, Except.pure, Except.ok.injEq, Prod.mk.injEq, hdiv, hmod] at heq
    obtain ⟨rfl, rfl, rfl⟩ := heq
    have ht : 8 * (t / 8) + t % 8 = t := by omega
    rw [ht]
    exact ⟨by omega, by omega, hlead, hnext⟩
  · rintro ⟨hnumber, hwire, hlead, rfl⟩
    have hread : decodeUvarint buf pos = .ok (8 * number + wireType,
        ((pos + (Base128.bytes (8 * number + wireType)).length : Nat) : Int)) :=
      (decodeUvarint_eq_ok_iff hpos).mpr ⟨by omega, hlead, rfl⟩
    have hdiv : (8 * number + wireType) >>> 3 = number := by
      have hshift : (8 * number + wireType) >>> 3 = (8 * number + wireType) / 8 :=
        Nat.shiftRight_eq_div_pow _ 3
      omega
    have hmod : (8 * number + wireType) &&& 0x7 = wireType := by
      have hand : (8 * number + wireType) &&& 0x7 = (8 * number + wireType) % 8 :=
        Nat.and_two_pow_sub_one_eq_mod _ 3
      omega
    rw [decodeTag, hread]
    simp only [bind, Except.bind, pure, Except.pure, hdiv, hmod]

theorem decodeTag_eq_error {buf : Bytes} {pos : Int} {e : Exc} (h : decodeTag buf pos = .error e) :
    ∃ m, e = .decoder m none := by
  rw [decodeTag] at h
  cases hread : decodeUvarint buf pos with
  | ok found =>
    rw [hread] at h
    cases h
  | error e' =>
    rw [hread] at h
    cases h
    exact decodeUvarint_eq_error hread

/-- The length of a content is read from its beginning. -/
theorem contentLength_of_content {buf : Bytes} {pos : Nat} {c : Content} {tail : Bytes}
    (path : List Text) (hpos : pos ≤ buf.length) (h : buf.drop pos = c.bytes ++ tail) :
    contentLength buf pos c.wireType path = .ok c.bytes.length := by
  cases c with
  | varint value hvalue =>
    have hread : decodeUvarint buf pos =
        .ok (value, ((pos + (Base128.bytes value).length : Nat) : Int)) :=
      (decodeUvarint_eq_ok_iff hpos).mpr ⟨hvalue, by rw [h]; exact List.prefix_append _ _, rfl⟩
    rw [contentLength, Content.wireType, if_pos rfl, hread, Content.bytes]
    show Except.ok _ = _
    congr 1
    omega
  | fixed64 data hdata =>
    rw [contentLength, Content.wireType, if_neg (by decide), if_neg (by decide), if_pos rfl,
      Content.bytes, hdata]
    rfl
  | fixed32 data hdata =>
    rw [contentLength, Content.wireType, if_neg (by decide), if_pos rfl, Content.bytes, hdata]
    rfl
  | lengthDelimited payload hpayload =>
    rw [Content.bytes, List.append_assoc] at h
    have hread : decodeVarint buf pos = .ok ((payload.length : Int),
        ((pos + (Base128.bytes payload.length).length : Nat) : Int)) := by
      rw [decodeVarint_eq_ok_iff hpos]
      refine ⟨payload.length, ?_, (signed_of_lt hpayload).symm⟩
      exact (decodeUvarint_eq_ok_iff hpos).mpr
        ⟨by omega, by rw [h]; exact List.prefix_append _ _, rfl⟩
    rw [contentLength, Content.wireType, if_neg (by decide), if_neg (by decide),
      if_neg (by decide), if_pos rfl, hread, Content.bytes, List.length_append]
    show Except.ok _ = _
    congr 1
    omega

theorem contentLength_eq_error {buf : Bytes} {pos : Int} {wireType : Nat} {path : List Text}
    {e : Exc} (h : contentLength buf pos wireType path = .error e) : ∃ m p, e = .decoder m p := by
  rw [contentLength] at h
  split at h
  · cases hread : decodeUvarint buf pos with
    | ok found =>
      rw [hread] at h
      cases h
    | error e' =>
      rw [hread] at h
      cases h
      obtain ⟨m, rfl⟩ := decodeUvarint_eq_error hread
      exact ⟨m, none, rfl⟩
  · split at h
    · cases h
    · split at h
      · cases h
      · split at h
        · cases hread : decodeVarint buf pos with
          | ok found =>
            rw [hread] at h
            cases h
          | error e' =>
            rw [hread] at h
            cases h
            obtain ⟨m, rfl⟩ := decodeVarint_eq_error hread
            exact ⟨m, none, rfl⟩
        · split at h
          · cases h
            exact ⟨_, _, rfl⟩
          · cases h
            exact ⟨_, _, rfl⟩

/-- What begins with an accepted length is a content, if it is long enough and the length is not
taken for a negative one. -/
theorem exists_content {buf : Bytes} {pos wireType : Nat} {length : Int} {path : List Text}
    (hpos : pos ≤ buf.length) (h : contentLength buf pos wireType path = .ok length)
    (hfits : pos + length ≤ buf.length) :
    (∃ (c : Content) (tail : Bytes), c.wireType = wireType ∧ buf.drop pos = c.bytes ++ tail ∧
        length = c.bytes.length) ∨
      wireType = lengthDelimitedType ∧ ∃ n tail, 2 ^ 63 ≤ n ∧ n < 2 ^ 64 ∧
        buf.drop pos = Base128.bytes n ++ tail := by
  rw [contentLength] at h
  split at h
  · next htype =>
    obtain ⟨⟨value, next⟩, hread, heq⟩ := bind_eq_ok.mp h
    obtain ⟨hvalue, ⟨tail, htail⟩, rfl⟩ := (decodeUvarint_eq_ok_iff hpos).mp hread
    cases heq
    refine .inl ⟨.varint value hvalue, tail, htype.symm, htail.symm, ?_⟩
    rw [Content.bytes]
    omega
  · split at h
    · next htype =>
      cases h
      have hsize : ((buf.drop pos).take 4).length = 4 := by
        rw [List.length_take, List.length_drop]
        omega
      refine .inl ⟨.fixed32 _ hsize, (buf.drop pos).drop 4, htype.symm, ?_, ?_⟩
      · rw [Content.bytes, List.take_append_drop]
      · rw [Content.bytes, hsize]
        rfl
    · split at h
      · next htype =>
        cases h
        have hsize : ((buf.drop pos).take 8).length = 8 := by
          rw [List.length_take, List.length_drop]
          omega
        refine .inl ⟨.fixed64 _ hsize, (buf.drop pos).drop 8, htype.symm, ?_, ?_⟩
        · rw [Content.bytes, List.take_append_drop]
        · rw [Content.bytes, hsize]
          rfl
      · split at h
        · next htype =>
          obtain ⟨⟨bytesLength, next⟩, hread, heq⟩ := bind_eq_ok.mp h
          obtain ⟨n, hn, rfl⟩ := (decodeVarint_eq_ok_iff hpos).mp hread
          obtain ⟨hlt, ⟨tail, htail⟩, rfl⟩ := (decodeUvarint_eq_ok_iff hpos).mp hn
          cases heq
          by_cases hbig : 2 ^ 63 ≤ n
          · exact .inr ⟨htype, n, tail, hbig, hlt, htail.symm⟩
          · rw [signed_of_lt (Nat.not_le.mp hbig)] at hfits ⊢
            have hcount := congrArg List.length htail
            rw [List.length_append, List.length_drop] at hcount
            have hpayload : (tail.take n).length = n := by
              rw [List.length_take]
              omega
            refine .inl ⟨.lengthDelimited (tail.take n) (by omega), tail.drop n, htype.symm, ?_, ?_⟩
            · rw [Content.bytes, hpayload, List.append_assoc, List.take_append_drop, htail]
            · rw [Content.bytes, List.length_append, hpayload]
              omega
        · split at h
          · cases h
          · cases h

end ScrapyCffi.Protobuf
