import ScrapyCffi.Protobuf.Wire
import Mathlib.Data.List.Infix

/-!
# Numbers are read where they were written

The decoders of `utils/wire.py` encode again what they read and compare. What they accept is
therefore exactly what the encoders write.
-/

namespace ScrapyCffi.Protobuf

open ScrapyCffi.Base

/-- A decoder returns a value where, and only where, its encoding stands. -/
def Canonical {α : Type} (encode : α → Except Exc Bytes)
    (decode : Bytes → Int → Except Exc (α × Int)) : Prop :=
  ∀ (buf : Bytes) (pos : Nat) (a : α) (stop : Int), pos ≤ buf.length →
    (decode buf pos = .ok (a, stop) ↔
      ∃ b, encode a = .ok b ∧ b <+: buf.drop pos ∧ stop = pos + b.length)

/-! ### Bits -/

theorem and_0x7F (n : Nat) : n &&& 0x7F = n % 128 :=
  Nat.and_two_pow_sub_one_eq_mod n 7

theorem or_0x80 {n : Nat} (h : n < 128) : n ||| 0x80 = n + 128 := by
  have hadd : 128 + n = 128 ||| n := Nat.two_pow_add_eq_or_of_lt (i := 7) h 1
  rw [Nat.or_comm, ← hadd, Nat.add_comm]

theorem and_0x80_ne_zero {n : Nat} (h : n < 256) : n &&& 0x80 ≠ 0 ↔ 128 ≤ n := by
  constructor
  · intro hne
    by_contra hlt
    apply hne
    apply Nat.eq_of_testBit_eq
    intro i
    rw [Nat.testBit_and, show (0x80 : Nat) = 2 ^ 7 from rfl, Nat.testBit_two_pow, Nat.zero_testBit]
    by_cases hi : 7 = i
    · rw [← hi, Nat.testBit_lt_two_pow (show n < 2 ^ 7 by omega), Bool.false_and]
    · rw [decide_eq_false hi, Bool.and_false]
  · intro hle hzero
    have hshift : (n &&& 0x80) >>> 7 = (n >>> 7) &&& 1 := Nat.shiftRight_and_distrib
    rw [hzero, Nat.and_one_is_mod, Nat.zero_shiftRight, Nat.shiftRight_eq_div_pow] at hshift
    omega

/-! ### Unsigned numbers -/

theorem uvarintBytes_eq {fuel value : Nat} (hfuel : value ≤ fuel) (hvalue : value ≠ 0) :
    uvarintBytes fuel value = Base128.bytes value := by
  induction fuel generalizing value with
  | zero => omega
  | succ fuel ih =>
    have hshift : value >>> 7 = value / 128 := Nat.shiftRight_eq_div_pow value 7
    simp only [uvarintBytes, if_neg hvalue, and_0x7F, hshift, or_0x80 (Nat.mod_lt value (by omega))]
    by_cases hsmall : value < 128
    · have hzero : value / 128 = 0 := by omega
      have hmod : value % 128 = value := by omega
      have hnil : uvarintBytes fuel 0 = [] := by
        cases fuel with
        | zero => rfl
        | succ fuel => rw [uvarintBytes, if_pos rfl]
      rw [Base128.bytes_of_lt hsmall, hzero, hmod, hnil]
      rfl
    · have hne : value / 128 ≠ 0 := by omega
      rw [Base128.bytes_of_le (Nat.not_lt.mp hsmall), if_pos hne, ih (by omega) hne]

/-- A number of 64 bits is encoded in its groups of seven. -/
theorem encodeUvarint_natCast {n : Nat} (h : n < 2 ^ 64) :
    encodeUvarint n = .ok (Base128.bytes n) := by
  rw [encodeUvarint, if_neg (by omega), if_neg (by omega)]
  by_cases hn : n = 0
  · rw [if_pos (by omega), hn, Base128.bytes_of_lt (by omega)]
    rfl
  · rw [if_neg (by omega), Int.toNat_natCast, uvarintBytes_eq (Nat.le_refl n) hn]

/-- Nothing else is encoded. -/
theorem encodeUvarint_eq_ok {value : Int} {b : Bytes} (h : encodeUvarint value = .ok b) :
    ∃ n : Nat, value = n ∧ n < 2 ^ 64 ∧ b = Base128.bytes n := by
  have hrange : 0 ≤ value ∧ value ≤ 2 ^ 64 - 1 := by
    rw [encodeUvarint] at h
    split at h
    · cases h
    · split at h
      · cases h
      · omega
  obtain ⟨n, rfl⟩ := Int.eq_ofNat_of_zero_le hrange.1
  have hn : n < 2 ^ 64 := by omega
  rw [encodeUvarint_natCast hn] at h
  cases h
  exact ⟨n, rfl, hn, rfl⟩

/-- The scan reads one number in groups of seven bits. -/
theorem scanUvarint_natCast (buf : Bytes) {left pos : Nat} (h : left + pos = buf.length)
    (value shift : Nat) :
    scanUvarint buf left pos value shift =
      (Base128.read (buf.drop pos)).map fun found ↦
        (value + found.1 <<< (shift * 7), ((buf.length - found.2.length : Nat) : Int)) := by
  induction left generalizing pos value shift with
  | zero =>
    rw [scanUvarint, List.drop_of_length_le (by omega)]
    rfl
  | succ left ih =>
    have hlt : pos < buf.length := by omega
    have hbyte : buf[pos].toNat < 256 := buf[pos].toNat_lt
    rw [scanUvarint, index_natCast, List.getElem?_eq_getElem hlt, List.drop_eq_getElem_cons hlt,
      Base128.read]
    simp only [and_0x7F, and_0x80_ne_zero hbyte]
    by_cases hlast : buf[pos].toNat < 128
    · have hmod : buf[pos].toNat % 128 = buf[pos].toNat := by omega
      have hstop : buf.length - (buf.drop (pos + 1)).length = pos + 1 := by
        rw [List.length_drop]
        omega
      rw [if_neg (by omega), if_pos hlast, Option.map_some, hmod, hstop]
      rfl
    · have hmod : buf[pos].toNat % 128 = buf[pos].toNat - 128 := by omega
      have hrest := ih (show left + (pos + 1) = buf.length by omega)
        (value + (buf[pos].toNat % 128) <<< (shift * 7)) (shift + 1)
      rw [if_pos (by omega), if_neg hlast, Option.map_map]
      refine hrest.trans ?_
      congr 1
      funext found
      have hpow : 2 ^ ((shift + 1) * 7) = 2 ^ (shift * 7) * 128 := by
        rw [Nat.add_mul, Nat.pow_add]
      have hvalue : (buf[pos].toNat - 128) * 2 ^ (shift * 7) + found.1 * (2 ^ (shift * 7) * 128) =
          (buf[pos].toNat - 128 + 128 * found.1) * 2 ^ (shift * 7) := by
        rw [Nat.add_mul, Nat.mul_assoc, Nat.mul_comm 128 (found.1 * _), Nat.mul_assoc]
      simp only [Function.comp, Nat.shiftLeft_eq, hmod, hpow, Nat.add_assoc, hvalue]

/-- `decode_uvarint` accepts exactly the shortest encodings of the numbers of 64 bits. -/
theorem decodeUvarint_eq_ok_iff {buf : Bytes} {pos n : Nat} {stop : Int} (hpos : pos ≤ buf.length) :
    decodeUvarint buf pos = .ok (n, stop) ↔
      n < 2 ^ 64 ∧ Base128.bytes n <+: buf.drop pos ∧
        stop = ((pos + (Base128.bytes n).length : Nat) : Int) := by
  have hleft : ((buf.length : Int) - pos).toNat = buf.length - pos := by omega
  have hscan := scanUvarint_natCast buf (show buf.length - pos + pos = buf.length by omega) 0 0
  rw [decodeUvarint, hleft, hscan]
  constructor
  · intro h
    cases hread : Base128.read (buf.drop pos) with
    | none =>
      rw [hread] at h
      cases h
    | some found =>
      have hlen : found.2.length < (buf.drop pos).length := Base128.length_of_read hread
      rw [List.length_drop] at hlen
      simp only [hread, Option.map_some, Nat.zero_mul, Nat.shiftLeft_zero, Nat.zero_add] at h
      split at h
      · cases h
      · next testEncode htest =>
        split at h
        · cases h
        · next hslice =>
          cases h
          obtain ⟨m, hm, hlt, rfl⟩ := encodeUvarint_eq_ok htest
          cases Int.ofNat_inj.mp hm
          have hsame : slice buf pos ((buf.length - found.2.length : Nat) : Int) =
              Base128.bytes found.1 := Classical.not_not.mp hslice
          have hstop : ((buf.length - found.2.length : Nat) : Int) =
              (pos : Int) + (buf.length - found.2.length - pos : Nat) := by omega
          rw [hstop, slice_natCast] at hsame
          have hlead : Base128.bytes found.1 <+: buf.drop pos := by
            rw [← hsame]
            exact List.take_prefix _ _
          have hcount := congrArg List.length hsame
          rw [List.length_take, List.length_drop] at hcount
          refine ⟨hlt, hlead, ?_⟩
          congr 1
          omega
  · rintro ⟨hn, ⟨rest, hrest⟩, rfl⟩
    have hlength := congrArg List.length hrest
    rw [List.length_append, List.length_drop] at hlength
    have hstop : buf.length - rest.length = pos + (Base128.bytes n).length := by omega
    rw [← hrest, Base128.read_bytes_append]
    simp only [Option.map_some, Nat.zero_mul, Nat.shiftLeft_zero, Nat.zero_add,
      encodeUvarint_natCast hn, hstop]
    have hslice : slice buf pos ((pos + (Base128.bytes n).length : Nat) : Int) =
        Base128.bytes n := by
      rw [Int.natCast_add, slice_natCast, ← hrest, List.take_left]
    rw [if_neg (Classical.not_not.mpr hslice)]

/-- A failure of `decode_uvarint` is a `DecoderException`. -/
theorem decodeUvarint_eq_error {buf : Bytes} {pos : Int} {e : Exc}
    (h : decodeUvarint buf pos = .error e) : ∃ m, e = .decoder m none := by
  rw [decodeUvarint] at h
  split at h
  · cases h
    exact ⟨_, rfl⟩
  · split at h
    · cases h
      exact ⟨_, rfl⟩
    · split at h
      · cases h
        exact ⟨_, rfl⟩
      · cases h

/-- What was read is the slice up to the returned position. -/
theorem slice_of_decodeUvarint {buf : Bytes} {pos n : Nat} {stop : Int} (hpos : pos ≤ buf.length)
    (h : decodeUvarint buf pos = .ok (n, stop)) : slice buf pos stop = Base128.bytes n := by
  obtain ⟨-, ⟨rest, hrest⟩, rfl⟩ := (decodeUvarint_eq_ok_iff hpos).mp h
  rw [Int.natCast_add, slice_natCast, ← hrest, List.take_left]

theorem canonical_uvarint : Canonical (fun n : Nat ↦ encodeUvarint n) decodeUvarint := by
  intro buf pos n stop hpos
  rw [decodeUvarint_eq_ok_iff hpos]
  constructor
  · rintro ⟨hn, hlead, rfl⟩
    exact ⟨_, encodeUvarint_natCast hn, hlead, by omega⟩
  · rintro ⟨b, hb, hlead, rfl⟩
    obtain ⟨m, hm, hlt, rfl⟩ := encodeUvarint_eq_ok hb
    cases Int.ofNat_inj.mp hm
    exact ⟨hlt, hlead, by omega⟩

/-! ### Signed numbers -/

/-- A number of 64 bits read as a signed one. -/
def signed (n : Nat) : Int := if n.testBit 63 then n - 2 ^ 64 else n

theorem signed_of_lt {n : Nat} (h : n < 2 ^ 63) : signed n = n := by
  rw [signed, Nat.testBit_lt_two_pow h, if_neg (by simp)]

theorem signed_of_le {n : Nat} (h : 2 ^ 63 ≤ n) (hn : n < 2 ^ 64) : signed n = n - 2 ^ 64 := by
  have hbit : n.testBit 63 = true := by
    rw [Nat.testBit_eq_decide_div_mod_eq, decide_eq_true_iff]
    omega
  rw [signed, if_pos hbit]

theorem encodeVarint_signed {n : Nat} (h : n < 2 ^ 64) :
    encodeVarint (signed n) = .ok (Base128.bytes n) := by
  rw [← encodeUvarint_natCast h, encodeVarint]
  by_cases hn : n < 2 ^ 63
  · rw [signed_of_lt hn, if_neg (by omega), if_neg (by omega), if_neg (by omega)]
  · rw [signed_of_le (Nat.not_lt.mp hn) h, if_neg (by omega), if_neg (by omega), if_pos (by omega),
      Int.sub_add_cancel]

theorem encodeVarint_eq_ok {value : Int} {b : Bytes} (h : encodeVarint value = .ok b) :
    ∃ n, n < 2 ^ 64 ∧ value = signed n ∧ b = Base128.bytes n := by
  rw [encodeVarint] at h
  split at h
  · cases h
  · split at h
    · cases h
    · next hhigh hlow =>
      obtain ⟨n, hn, hlt, rfl⟩ := encodeUvarint_eq_ok h
      refine ⟨n, hlt, ?_, rfl⟩
      split at hn
      · rw [signed_of_le (by omega) hlt]
        omega
      · rw [signed_of_lt (by omega)]
        omega

theorem decodeVarint_eq_ok_iff {buf : Bytes} {pos : Nat} {value stop : Int}
    (hpos : pos ≤ buf.length) :
    decodeVarint buf pos = .ok (value, stop) ↔
      ∃ n, decodeUvarint buf pos = .ok (n, stop) ∧ value = signed n := by
  rw [decodeVarint]
  cases hread : decodeUvarint buf pos with
  | error e => simp
  | ok found =>
    obtain ⟨n, last⟩ := found
    have hn := ((decodeUvarint_eq_ok_iff hpos).mp hread).1
    have hsigned : (if n.testBit 63 then (n : Int) - 2 ^ 64 else (n : Int)) = signed n := rfl
    simp only [hsigned, encodeVarint_signed hn, slice_of_decodeUvarint hpos hread, ne_eq,
      not_true_eq_false, ↓reduceIte, Except.ok.injEq, Prod.mk.injEq]
    constructor
    · rintro ⟨rfl, rfl⟩
      exact ⟨n, ⟨rfl, rfl⟩, rfl⟩
    · rintro ⟨m, ⟨rfl, rfl⟩, rfl⟩
      exact ⟨rfl, rfl⟩

/-- The least number first from either side of zero. -/
theorem encodeZigZag_decodeZigZag (n : Nat) : encodeZigZag (decodeZigZag n) = n := by
  rw [decodeZigZag, Nat.and_one_is_mod]
  split
  · have hodd : n % 2 = 1 := by omega
    rw [encodeZigZag, Nat.shiftRight_eq_div_pow, if_pos (by omega), Nat.shiftLeft_eq]
    omega
  · rw [encodeZigZag, Nat.shiftRight_eq_div_pow, if_neg (by omega), Int.shiftLeft_eq]
    omega

theorem decodeZigZag_range {n : Nat} (h : n < 2 ^ 64) :
    -2 ^ 63 ≤ decodeZigZag n ∧ decodeZigZag n ≤ 2 ^ 63 - 1 := by
  rw [decodeZigZag, Nat.and_one_is_mod, Nat.shiftRight_eq_div_pow, Nat.shiftRight_eq_div_pow]
  split
  · omega
  · omega

theorem encodeSvarint_decodeZigZag {n : Nat} (h : n < 2 ^ 64) :
    encodeSvarint (decodeZigZag n) = .ok (Base128.bytes n) := by
  have hrange := decodeZigZag_range h
  rw [encodeSvarint, if_neg (by omega), if_neg (by omega), encodeZigZag_decodeZigZag,
    encodeUvarint_natCast h]

/-- Every integer has its place in the order. -/
theorem exists_decodeZigZag (value : Int) : ∃ n, value = decodeZigZag n := by
  by_cases hneg : value < 0
  · refine ⟨2 * value.natAbs - 1, ?_⟩
    have hodd : (2 * value.natAbs - 1) % 2 = 1 := by omega
    rw [decodeZigZag, Nat.and_one_is_mod, hodd, if_pos (by omega), Nat.shiftRight_eq_div_pow]
    omega
  · refine ⟨2 * value.natAbs, ?_⟩
    have heven : 2 * value.natAbs % 2 = 0 := by omega
    rw [decodeZigZag, Nat.and_one_is_mod, heven, if_neg (by omega), Nat.shiftRight_eq_div_pow]
    omega

theorem encodeSvarint_eq_ok {value : Int} {b : Bytes} (h : encodeSvarint value = .ok b) :
    ∃ n, n < 2 ^ 64 ∧ value = decodeZigZag n ∧ b = Base128.bytes n := by
  obtain ⟨n, rfl⟩ := exists_decodeZigZag value
  rw [encodeSvarint, encodeZigZag_decodeZigZag] at h
  split at h
  · cases h
  · split at h
    · cases h
    · obtain ⟨m, hm, hlt, rfl⟩ := encodeUvarint_eq_ok h
      cases Int.ofNat_inj.mp hm
      exact ⟨n, hlt, rfl, rfl⟩

theorem decodeSvarint_eq_ok_iff {buf : Bytes} {pos : Nat} {value stop : Int}
    (hpos : pos ≤ buf.length) :
    decodeSvarint buf pos = .ok (value, stop) ↔
      ∃ n, decodeUvarint buf pos = .ok (n, stop) ∧ value = decodeZigZag n := by
  rw [decodeSvarint]
  cases hread : decodeUvarint buf pos with
  | error e => simp
  | ok found =>
    obtain ⟨n, last⟩ := found
    have hn := ((decodeUvarint_eq_ok_iff hpos).mp hread).1
    simp only [encodeSvarint_decodeZigZag hn, slice_of_decodeUvarint hpos hread, ne_eq,
      not_true_eq_false, ↓reduceIte, Except.ok.injEq, Prod.mk.injEq]
    constructor
    · rintro ⟨rfl, rfl⟩
      exact ⟨n, ⟨rfl, rfl⟩, rfl⟩
    · rintro ⟨m, ⟨rfl, rfl⟩, rfl⟩
      exact ⟨rfl, rfl⟩

/-- A decoder that reads an unsigned number and converts it. -/
theorem canonical_of_uvarint {encode : Int → Except Exc Bytes} {f : Nat → Int}
    {decode : Bytes → Int → Except Exc (Int × Int)}
    (hwrite : ∀ n, n < 2 ^ 64 → encode (f n) = .ok (Base128.bytes n))
    (hwritten : ∀ value b, encode value = .ok b →
      ∃ n, n < 2 ^ 64 ∧ value = f n ∧ b = Base128.bytes n)
    (hread : ∀ (buf : Bytes) (pos : Nat) (value stop : Int), pos ≤ buf.length →
      (decode buf pos = .ok (value, stop) ↔
        ∃ n, decodeUvarint buf pos = .ok (n, stop) ∧ value = f n)) :
    Canonical encode decode := by
  intro buf pos value stop hpos
  rw [hread buf pos value stop hpos]
  constructor
  · rintro ⟨n, hn, rfl⟩
    obtain ⟨hlt, hlead, rfl⟩ := (decodeUvarint_eq_ok_iff hpos).mp hn
    exact ⟨_, hwrite n hlt, hlead, by omega⟩
  · rintro ⟨b, hb, hlead, rfl⟩
    obtain ⟨n, hlt, rfl, rfl⟩ := hwritten value b hb
    exact ⟨n, (decodeUvarint_eq_ok_iff hpos).mpr ⟨hlt, hlead, by omega⟩, rfl⟩

theorem canonical_varint : Canonical encodeVarint decodeVarint :=
  canonical_of_uvarint (fun _ ↦ encodeVarint_signed) (fun _ _ ↦ encodeVarint_eq_ok)
    fun _ _ _ _ ↦ decodeVarint_eq_ok_iff

theorem canonical_svarint : Canonical encodeSvarint decodeSvarint :=
  canonical_of_uvarint (fun _ ↦ encodeSvarint_decodeZigZag) (fun _ _ ↦ encodeSvarint_eq_ok)
    fun _ _ _ _ ↦ decodeSvarint_eq_ok_iff

/-- A failure of `decode_varint` is a `DecoderException`. -/
theorem decodeVarint_eq_error {buf : Bytes} {pos : Int} {e : Exc}
    (h : decodeVarint buf pos = .error e) : ∃ m, e = .decoder m none := by
  rw [decodeVarint] at h
  split at h
  · next e' he =>
    cases h
    exact decodeUvarint_eq_error he
  · dsimp only at h
    split at h
    · cases h
      exact ⟨_, rfl⟩
    · split at h
      · cases h
        exact ⟨_, rfl⟩
      · cases h

end ScrapyCffi.Protobuf
