import ScrapyCffi.Protobuf.Kinds

/-!
# Scalars and packed lists are read where they were written

Fixed sizes, and the lists that `generate_packed_encoder` and `generate_packed_decoder` of
`schema/type_maps.py` make of any coding of single values.
-/

namespace ScrapyCffi.Protobuf

open ScrapyCffi.Base

/-! ### Fixed sizes -/

namespace IntFormat

variable (f : IntFormat)

theorem count_pos : 0 < f.count := Nat.pow_pos (by omega)

theorem bound_mem : 0 ≤ f.bound ∧ f.bound ≤ f.count := by
  rw [bound]
  split
  · omega
  · omega

variable {f}

/-- A number of the format is read from its bytes. -/
theorem unpack_pack {n : Int} (hlow : f.bound - f.count ≤ n) (hhigh : n < f.bound) :
    f.unpack (toBytesBig f.size (n % f.count).toNat).reverse = n := by
  have hpos : (0 : Int) < f.count := by exact_mod_cast f.count_pos
  have hbound := f.bound_mem
  have hmod : 0 ≤ n % f.count ∧ n % f.count < f.count :=
    ⟨Int.emod_nonneg n (by omega), Int.emod_lt_of_pos n hpos⟩
  have hfits : (n % f.count).toNat < 256 ^ f.size := by
    have hcount : f.count = 256 ^ f.size := rfl
    omega
  have hcast : ((n % f.count).toNat : Int) = n % f.count := Int.toNat_of_nonneg hmod.1
  rw [unpack, List.reverse_reverse, ofBytesBig_toBytesBig hfits, hcast]
  by_cases hneg : 0 ≤ n
  · rw [Int.emod_eq_of_lt hneg (by omega), if_pos hhigh]
  · have hwrap : n % f.count = n + f.count := by
      rw [← Int.add_emod_right, Int.emod_eq_of_lt (by omega) (by omega)]
    rw [hwrap, if_neg (by omega)]
    omega

/-- Bytes are those of the number that is read from them. -/
theorem pack_unpack {data : Bytes} (h : data.length = f.size) :
    f.bound - f.count ≤ f.unpack data ∧ f.unpack data < f.bound ∧
      (toBytesBig f.size (f.unpack data % f.count).toNat).reverse = data := by
  have hbound := f.bound_mem
  have hlt : ofBytesBig data.reverse < f.count := by
    have hlt := ofBytesBig_lt data.reverse
    rwa [List.length_reverse, h] at hlt
  have hmod : f.unpack data % f.count = ofBytesBig data.reverse := by
    rw [unpack]
    split
    · exact Int.emod_eq_of_lt (by omega) (by omega)
    · rw [Int.sub_emod_right, Int.emod_eq_of_lt (by omega) (by omega)]
  have hbytes : toBytesBig f.size (ofBytesBig data.reverse) = data.reverse := by
    rw [← h, ← List.length_reverse, toBytesBig_ofBytesBig]
  refine ⟨?_, ?_, ?_⟩
  · rw [unpack]
    split
    · omega
    · omega
  · rw [unpack]
    split
    · assumption
    · omega
  · rw [hmod, Int.toNat_natCast, hbytes, List.reverse_reverse]

end IntFormat

theorem encodeStruct_eq_ok {f : IntFormat} {n : Int} {b : Bytes}
    (h : encodeStruct f (.int n) = .ok b) :
    f.bound - f.count ≤ n ∧ n < f.bound ∧ b = (toBytesBig f.size (n % f.count).toNat).reverse := by
  rw [encodeStruct] at h
  split at h
  · next hrange =>
    cases h
    exact ⟨hrange.1, hrange.2, rfl⟩
  · cases h

theorem canonical_struct (f : IntFormat) :
    Canonical (fun n ↦ encodeStruct f (.int n)) (decodeStruct f) := by
  intro buf pos n stop hpos
  rw [decodeStruct, slice_natCast]
  constructor
  · intro h
    split at h
    · next hlength =>
      cases h
      obtain ⟨hlow, hhigh, hbytes⟩ := IntFormat.pack_unpack hlength
      refine ⟨(buf.drop pos).take f.size, ?_, List.take_prefix _ _, by rw [hlength]⟩
      simp only [encodeStruct, hlow, hhigh, hbytes, and_self, if_true]
    · cases h
  · rintro ⟨b, hb, hlead, rfl⟩
    obtain ⟨hlow, hhigh, rfl⟩ := encodeStruct_eq_ok hb
    have hsize : (toBytesBig f.size (n % f.count).toNat).reverse.length = f.size := by
      rw [List.length_reverse, length_toBytesBig]
    have htake : (buf.drop pos).take f.size = (toBytesBig f.size (n % f.count).toNat).reverse := by
      rw [List.prefix_iff_eq_take.mp hlead, hsize]
    rw [htake, if_pos hsize, IntFormat.unpack_pack hlow hhigh, hsize]

/-! ### Scalars -/

/-- The kinds of numbers whose coding is not left to `struct.pack` of a float. -/
def Scalar.IsInt (s : Scalar) : Prop := s ≠ .float ∧ s ≠ .double

instance (s : Scalar) : Decidable s.IsInt := inferInstanceAs (Decidable (_ ∧ _))

/-- A coding of integers is one of values. -/
theorem Canonical.values {α : Type} {encode : α → Except Exc Bytes}
    {decode : Bytes → Int → Except Exc (α × Int)} (h : Canonical encode decode) {f : α → Int}
    {encodeValue : Value → Except Exc Bytes}
    (hint : ∀ n b, encodeValue (.int n) = .ok b ↔ ∃ a, n = f a ∧ encode a = .ok b)
    (hother : ∀ value b, encodeValue value = .ok b → ∃ n, value = .int n) :
    Canonical encodeValue fun buf pos ↦ intRead f (decode buf pos) := by
  intro buf pos value stop hpos
  dsimp only
  constructor
  · intro hread
    cases hdecode : decode buf pos with
    | error e =>
      rw [hdecode] at hread
      cases hread
    | ok found =>
      rw [hdecode] at hread
      cases hread
      obtain ⟨b, hb, hlead, hstop⟩ := (h buf pos found.1 found.2 hpos).mp hdecode
      exact ⟨b, (hint _ b).mpr ⟨found.1, rfl, hb⟩, hlead, hstop⟩
  · rintro ⟨b, hb, hlead, hstop⟩
    obtain ⟨n, rfl⟩ := hother value b hb
    obtain ⟨a, rfl, ha⟩ := (hint n b).mp hb
    rw [(h buf pos a stop hpos).mpr ⟨b, ha, hlead, hstop⟩]
    rfl

theorem intOf_bind_eq_ok {coding : String} {encode : Int → Except Exc Bytes} {value : Value}
    {b : Bytes} (h : (intOf coding value >>= encode) = .ok b) : ∃ n, value = .int n := by
  cases value with
  | int n => exact ⟨n, rfl⟩
  | float _ | str _ | bytes _ | list _ | message _ => cases h

theorem encodeStruct_value {f : IntFormat} {value : Value} {b : Bytes}
    (h : encodeStruct f value = .ok b) : ∃ n, value = .int n := by
  cases value with
  | int n => exact ⟨n, rfl⟩
  | float _ | str _ | bytes _ | list _ | message _ => cases h

theorem canonical_structValues (f : IntFormat) :
    Canonical (encodeStruct f) fun buf pos ↦ intRead id (decodeStruct f buf pos) :=
  (canonical_struct f).values (fun n _ ↦ ⟨fun h ↦ ⟨n, rfl, h⟩, fun ⟨_, hn, h⟩ ↦ hn ▸ h⟩)
    fun _ _ ↦ encodeStruct_value

/-- The numbers of every kind but the floats are read where they were written. -/
theorem canonical_scalar (floats : Floats) {s : Scalar} (h : s.IsInt) :
    Canonical (encodeScalar floats s) (decodeScalar floats s) := by
  cases s with
  | uint =>
    refine canonical_uvarint.values (fun n b ↦ ?_) fun _ _ ↦ intOf_bind_eq_ok
    constructor
    · intro hb
      obtain ⟨m, rfl, -, -⟩ := encodeUvarint_eq_ok hb
      exact ⟨m, rfl, hb⟩
    · rintro ⟨m, rfl, hm⟩
      exact hm
  | int =>
    exact canonical_varint.values (fun n _ ↦ ⟨fun hb ↦ ⟨n, rfl, hb⟩, fun ⟨_, hn, hb⟩ ↦ hn ▸ hb⟩)
      fun _ _ ↦ intOf_bind_eq_ok
  | sint =>
    exact canonical_svarint.values (fun n _ ↦ ⟨fun hb ↦ ⟨n, rfl, hb⟩, fun ⟨_, hn, hb⟩ ↦ hn ▸ hb⟩)
      fun _ _ ↦ intOf_bind_eq_ok
  | fixed32 => exact canonical_structValues .fixed32
  | sfixed32 => exact canonical_structValues .sfixed32
  | fixed64 => exact canonical_structValues .fixed64
  | sfixed64 => exact canonical_structValues .sfixed64
  | float => exact absurd rfl h.1
  | double => exact absurd rfl h.2

/-! ### Packed lists -/

variable {wrapped : Value → Except Exc Bytes} {unwrapped : Bytes → Int → Except Exc (Value × Int)}

/-- What the loop of a packed decoder returns was written there. -/
theorem unpackUntil_eq_ok (h : Canonical wrapped unwrapped) {buf : Bytes} {stop last : Int}
    {fuel pos : Nat} {values : List Value} (hpos : pos ≤ buf.length)
    (hread : unpackUntil unwrapped buf stop fuel pos = .ok (values, last)) :
    stop ≤ last ∧ ∃ parts : List Bytes, values.mapM wrapped = .ok parts ∧
      parts.flatten <+: buf.drop pos ∧ last = pos + parts.flatten.length := by
  induction fuel generalizing pos values last with
  | zero =>
    rw [unpackUntil] at hread
    split at hread
    · cases hread
    · cases hread
      exact ⟨by omega, [], rfl, List.nil_prefix, by simp⟩
  | succ fuel ih =>
    rw [unpackUntil] at hread
    split at hread
    · obtain ⟨⟨value, next⟩, hvalue, hrest⟩ := bind_eq_ok.mp hread
      obtain ⟨⟨rest, final⟩, hmore, heq⟩ := bind_eq_ok.mp hrest
      cases heq
      obtain ⟨b, hb, ⟨tail, htail⟩, rfl⟩ := (h buf pos value next hpos).mp hvalue
      have hnext : pos + b.length ≤ buf.length := by
        have hlength := congrArg List.length htail
        rw [List.length_append, List.length_drop] at hlength
        omega
      have hdrop : buf.drop (pos + b.length) = tail := by
        rw [← List.drop_drop, ← htail, List.drop_left]
      rw [← Int.natCast_add] at hmore
      obtain ⟨hstop, parts, hparts, hlead, rfl⟩ := ih hnext hmore
      refine ⟨hstop, b :: parts, ?_, ?_, ?_⟩
      · rw [List.mapM_cons, hb, hparts]
        rfl
      · rw [List.flatten_cons, ← htail, List.prefix_append_right_inj, ← hdrop]
        exact hlead
      · rw [List.flatten_cons, List.length_append]
        omega
    · cases hread
      exact ⟨by omega, [], rfl, List.nil_prefix, by simp⟩

/-- The loop of a packed decoder returns what was written there, none of it empty. -/
theorem unpackUntil_of_mapM (h : Canonical wrapped unwrapped)
    (hne : ∀ value b, wrapped value = .ok b → b ≠ []) {buf : Bytes} {values : List Value}
    {parts : List Bytes} {fuel pos : Nat} (hpos : pos ≤ buf.length)
    (hparts : values.mapM wrapped = .ok parts) (hlead : parts.flatten <+: buf.drop pos)
    (hfuel : parts.flatten.length ≤ fuel) :
    unpackUntil unwrapped buf (pos + parts.flatten.length : Nat) fuel pos =
      .ok (values, ((pos + parts.flatten.length : Nat) : Int)) := by
  induction values generalizing parts fuel pos with
  | nil =>
    rw [List.mapM_nil] at hparts
    cases hparts
    rw [List.flatten_nil, List.length_nil, Nat.add_zero]
    cases fuel with
    | zero => rw [unpackUntil, if_neg (by omega)]
    | succ fuel => rw [unpackUntil, if_neg (by omega)]
  | cons value rest ih =>
    rw [List.mapM_cons] at hparts
    obtain ⟨b, hb, hrest⟩ := bind_eq_ok.mp hparts
    obtain ⟨more, hmore, heq⟩ := bind_eq_ok.mp hrest
    cases heq
    have hpositive : 0 < b.length := List.length_pos_iff.mpr (hne value b hb)
    rw [List.flatten_cons, List.length_append] at hfuel ⊢
    obtain ⟨tail, htail⟩ := hlead
    rw [List.flatten_cons, List.append_assoc] at htail
    have hdrop : buf.drop (pos + b.length) = more.flatten ++ tail := by
      rw [← List.drop_drop, ← htail, List.drop_left]
    have hnext : pos + b.length ≤ buf.length := by
      have hlength := congrArg List.length htail
      rw [List.length_append, List.length_drop] at hlength
      omega
    cases fuel with
    | zero => omega
    | succ fuel =>
      have hvalue : unwrapped buf pos = .ok (value, ((pos + b.length : Nat) : Int)) :=
        (h buf pos value _ hpos).mpr
          ⟨b, hb, by rw [← htail]; exact List.prefix_append _ _, by omega⟩
      have hloop := ih hnext hmore (by rw [hdrop]; exact List.prefix_append _ _)
        (show more.flatten.length ≤ fuel by omega)
      rw [Nat.add_assoc] at hloop
      rw [unpackUntil, if_pos (by omega), hvalue]
      show (unpackUntil unwrapped buf _ fuel ((pos + b.length : Nat) : Int) >>= _) = _
      rw [hloop]
      rfl

/-- A packed list is read exactly where it was written. -/
theorem canonical_packed (h : Canonical wrapped unwrapped)
    (hne : ∀ value b, wrapped value = .ok b → b ≠ []) {buf : Bytes} {pos : Nat} {value : Value}
    {last : Int} (hpos : pos ≤ buf.length) :
    decodePacked unwrapped buf pos = .ok (value, last) ↔
      ∃ values b, value = .list values ∧ encodePacked wrapped (.list values) = .ok b ∧
        b <+: buf.drop pos ∧ last = pos + b.length := by
  constructor
  · intro hread
    obtain ⟨⟨length, start⟩, hlength, hrest⟩ := bind_eq_ok.mp hread
    obtain ⟨⟨values, final⟩, hloop, hcheck⟩ := bind_eq_ok.mp hrest
    obtain ⟨head, hhead, ⟨tail, htail⟩, rfl⟩ :=
      (canonical_varint buf pos length start hpos).mp hlength
    have hnext : pos + head.length ≤ buf.length := by
      have hcount := congrArg List.length htail
      rw [List.length_append, List.length_drop] at hcount
      omega
    have hdrop : buf.drop (pos + head.length) = tail := by
      rw [← List.drop_drop, ← htail, List.drop_left]
    dsimp only at hloop hcheck
    rw [← Int.natCast_add] at hloop
    obtain ⟨hstop, parts, hparts, hlead, rfl⟩ := unpackUntil_eq_ok h hnext hloop
    by_cases hover : ((pos + head.length : Nat) : Int) + parts.flatten.length >
        (pos : Int) + head.length + length
    · rw [if_pos hover] at hcheck
      cases hcheck
    · rw [if_neg hover] at hcheck
      cases hcheck
      have hsame : length = parts.flatten.length := by omega
      refine ⟨values, head ++ parts.flatten, rfl, ?_, ?_, ?_⟩
      · have hwritten : encodeLengthPrefixed parts.flatten = .ok (head ++ parts.flatten) := by
          rw [encodeLengthPrefixed, ← hsame, hhead]
          rfl
        rw [encodePacked, elements]
        show (values.mapM wrapped >>= _) = _
        rw [hparts]
        exact hwritten
      · rw [← htail, List.prefix_append_right_inj, ← hdrop]
        exact hlead
      · rw [List.length_append]
        omega
  · rintro ⟨values, b, rfl, hb, ⟨tail, htail⟩, rfl⟩
    rw [encodePacked, elements] at hb
    obtain ⟨parts, hparts, hprefixed⟩ := bind_eq_ok.mp hb
    obtain ⟨head, hhead, heq⟩ := bind_eq_ok.mp hprefixed
    cases heq
    rw [List.append_assoc] at htail
    have hdrop : buf.drop (pos + head.length) = parts.flatten ++ tail := by
      rw [← List.drop_drop, ← htail, List.drop_left]
    have hnext : pos + head.length ≤ buf.length := by
      have hcount := congrArg List.length htail
      rw [List.length_append, List.length_drop] at hcount
      omega
    have hlength : decodeVarint buf pos = .ok ((parts.flatten.length : Int),
        ((pos + head.length : Nat) : Int)) :=
      (canonical_varint buf pos _ _ hpos).mpr
        ⟨head, hhead, by rw [← htail]; exact List.prefix_append _ _, by omega⟩
    have hloop := unpackUntil_of_mapM h hne hnext hparts
      (by rw [hdrop]; exact List.prefix_append _ _) (Nat.le_refl _)
    rw [decodePacked, hlength]
    show (unpackUntil unwrapped buf (((pos + head.length : Nat) : Int) + parts.flatten.length)
      (parts.flatten.length : Int).toNat ((pos + head.length : Nat) : Int) >>= _) = _
    rw [Int.toNat_natCast, ← Int.natCast_add, hloop]
    simp only [bind, Except.bind]
    rw [if_neg (by omega)]
    simp only [pure, Except.pure, List.length_append]
    congr 3
    omega

/-! ### Numbers and lists of them -/

theorem encodeScalar_ne_nil {floats : Floats} {s : Scalar} (hs : s.IsInt) {value : Value}
    {b : Bytes}
    (h : encodeScalar floats s value = .ok b) : b ≠ [] := by
  apply List.ne_nil_of_length_pos
  have hstruct : ∀ f : IntFormat, 0 < f.size → encodeStruct f value = .ok b → 0 < b.length := by
    intro f hsize hencode
    obtain ⟨n, rfl⟩ := encodeStruct_value hencode
    obtain ⟨-, -, rfl⟩ := encodeStruct_eq_ok hencode
    rw [List.length_reverse, length_toBytesBig]
    exact hsize
  cases s with
  | uint =>
    obtain ⟨n, -, hencode⟩ := bind_eq_ok.mp h
    obtain ⟨m, -, -, rfl⟩ := encodeUvarint_eq_ok hencode
    exact Base128.length_bytes_pos m
  | int =>
    obtain ⟨n, -, hencode⟩ := bind_eq_ok.mp h
    obtain ⟨m, -, -, rfl⟩ := encodeVarint_eq_ok hencode
    exact Base128.length_bytes_pos m
  | sint =>
    obtain ⟨n, -, hencode⟩ := bind_eq_ok.mp h
    obtain ⟨m, -, -, rfl⟩ := encodeSvarint_eq_ok hencode
    exact Base128.length_bytes_pos m
  | fixed32 => exact hstruct .fixed32 (by decide) h
  | sfixed32 => exact hstruct .sfixed32 (by decide) h
  | fixed64 => exact hstruct .fixed64 (by decide) h
  | sfixed64 => exact hstruct .sfixed64 (by decide) h
  | float => exact absurd rfl hs.1
  | double => exact absurd rfl hs.2

/-- A number other than a float is decoded exactly where its encoding stands, and so is a packed
list of such numbers. -/
theorem decode_number_iff (floats : Floats) {s : Scalar} (hs : s.IsInt) {buf : Bytes} {pos : Nat}
    (hpos : pos ≤ buf.length) (value : Value) (stop : Int) :
    (Kind.decode floats (.scalar s) buf pos = .ok (value, stop) ↔
      ∃ b, Kind.encode floats (.scalar s) value = .ok b ∧ b <+: buf.drop pos ∧
        stop = pos + b.length) ∧
    (Kind.decode floats (.packed s) buf pos = .ok (value, stop) ↔
      ∃ values b, value = .list values ∧
        Kind.encode floats (.packed s) (.list values) = .ok b ∧ b <+: buf.drop pos ∧
          stop = pos + b.length) := by
  have hscalar := canonical_scalar floats hs
  constructor
  · exact hscalar buf pos value stop hpos
  · exact canonical_packed hscalar (fun _ _ hencode ↦ encodeScalar_ne_nil hs hencode) hpos

theorem decode_number_sint :
    Kind.decode .refusing (.packed .sint) [0, 2, 3, 4] (1 : Nat) =
      .ok (.list [.int (-2), .int 2], 4) := by
  apply (decode_number_iff .refusing (by decide) (by decide) _ _).2.mpr
  exact ⟨_, [2, 3, 4], rfl, rfl, by decide, by decide⟩

end ScrapyCffi.Protobuf
