import Mathlib.Algebra.Order.Ring.Nat
import Mathlib.Data.List.Basic
import Mathlib.Data.List.Forall2
import Mathlib.Data.List.Induction

/-!
# Concatenated frames

A reader of one frame is run until its input is used up. On a concatenation of frames it reads
their values, and on a cut one it reads the frames before the cut, or fails where the cut falls
inside a frame. Big-endian numbers serve as lengths.
-/

namespace ScrapyCffi.Base

universe u v w

variable {α : Type u} {β : Type v} {ε : Type w}

/-- A reader of one frame, which leaves less than it was given. -/
structure FrameReader (α : Type u) (β : Type v) (ε : Type w) where
  read : List α → Except ε (β × List α)
  shorter : ∀ {x value rest}, read x = .ok (value, rest) → rest.length < x.length

/-- Frames are read until nothing is left. -/
def FrameReader.readAll (r : FrameReader α β ε) (x : List α) : Except ε (List β) :=
  if x = [] then .ok []
  else
    match _h : r.read x with
    | .error e => .error e
    | .ok (value, rest) => (r.readAll rest).map (value :: ·)
termination_by x.length
decreasing_by exact r.shorter _h

/-- A frame of a value: it is read back before anything, and a failure of the given kind is all
that a proper part of it gives. -/
structure IsFrame (r : FrameReader α β ε) (failure : ε → Prop) (frame : List α) (value : β) :
    Prop where
  reads : ∀ rest, r.read (frame ++ rest) = .ok (value, rest)
  fails : ∀ part, part <+: frame → part ≠ [] → part ≠ frame → ∃ e, failure e ∧ r.read part = .error e

variable {r : FrameReader α β ε} {failure : ε → Prop} {frame : List α} {value : β}

/-- No frame is empty. -/
theorem IsFrame.ne_nil (h : IsFrame r failure frame value) : frame ≠ [] := by
  rintro rfl
  have hlt := r.shorter (h.reads [])
  simp at hlt

@[simp] theorem FrameReader.readAll_nil : r.readAll [] = .ok [] := by
  rw [readAll, if_pos rfl]

/-- The first frame is read, then the rest. -/
theorem FrameReader.readAll_of_read {x rest : List α} (h : r.read x = .ok (value, rest)) :
    r.readAll x = (r.readAll rest).map (value :: ·) := by
  have hne : x ≠ [] := by
    rintro rfl
    have hlt := r.shorter h
    simp at hlt
  rw [readAll, if_neg hne]
  split
  · next e he => rw [h] at he; cases he
  · next value' rest' he => rw [h] at he; cases he; rfl

/-- A failure on the first frame is one on the whole. -/
theorem FrameReader.readAll_of_error {x : List α} {e : ε} (hne : x ≠ [])
    (h : r.read x = .error e) : r.readAll x = .error e := by
  rw [readAll, if_neg hne]
  split
  · next e' he => rw [h] at he; cases he; rfl
  · next value' rest' he => rw [h] at he; cases he

/-- A concatenation of frames is read as their values. -/
theorem FrameReader.readAll_flatten {frames : List (List α)} {values : List β}
    (h : List.Forall₂ (IsFrame r failure) frames values) : r.readAll frames.flatten = .ok values := by
  induction h with
  | nil => exact readAll_nil
  | cons hframe _ ih =>
    rw [List.flatten_cons, readAll_of_read (hframe.reads _), ih]
    rfl

/-- A prefix of two texts is one of the first or goes on into the second. -/
theorem prefix_append_cases {cut x y : List α} (h : cut <+: x ++ y) :
    (cut <+: x ∧ cut ≠ x) ∨ ∃ rest, cut = x ++ rest ∧ rest <+: y := by
  obtain ⟨tail, htail⟩ := h
  rcases List.append_eq_append_iff.mp htail with ⟨more, rfl, -⟩ | ⟨more, rfl, hy⟩
  · by_cases hmore : more = []
    · subst hmore
      exact .inr ⟨[], by simp, List.nil_prefix⟩
    · exact .inl ⟨List.prefix_append _ _, by simpa using hmore⟩
  · exact .inr ⟨more, rfl, tail, hy.symm⟩

/-- A cut concatenation ends with a frame, or its reading fails. -/
theorem FrameReader.readAll_of_prefix {frames : List (List α)} {values : List β} {cut : List α}
    (h : List.Forall₂ (IsFrame r failure) frames values) (hcut : cut <+: frames.flatten) :
    (∃ n ≤ frames.length, cut = (frames.take n).flatten) ∨
      ∃ e, failure e ∧ r.readAll cut = .error e := by
  induction h generalizing cut with
  | nil => exact .inl ⟨0, Nat.le_refl _, List.prefix_nil.mp hcut⟩
  | @cons frame value frames values hframe _ ih =>
    rw [List.flatten_cons] at hcut
    rcases prefix_append_cases hcut with ⟨hpart, hne⟩ | ⟨rest, rfl, hrest⟩
    · by_cases hnil : cut = []
      · exact .inl ⟨0, Nat.zero_le _, hnil⟩
      · obtain ⟨e, he, hread⟩ := hframe.fails cut hpart hnil hne
        exact .inr ⟨e, he, readAll_of_error hnil hread⟩
    · rcases ih hrest with ⟨n, hn, rfl⟩ | ⟨e, he, hread⟩
      · exact .inl ⟨n + 1, Nat.succ_le_succ hn, by simp⟩
      · refine .inr ⟨e, he, ?_⟩
        rw [readAll_of_read (hframe.reads _), hread]
        rfl

/-! ## Big-endian numbers -/

/-- The last `n` bytes of a number, the most significant first. -/
def toBytesBig : Nat → Nat → List UInt8
  | 0, _ => []
  | n + 1, number => toBytesBig n (number / 256) ++ [UInt8.ofNat (number % 256)]

/-- The number of big-endian bytes. -/
def ofBytesBig (bytes : List UInt8) : Nat := bytes.foldl (fun number byte ↦ 256 * number + byte.toNat) 0

@[simp] theorem length_toBytesBig (n number : Nat) : (toBytesBig n number).length = n := by
  induction n generalizing number with
  | zero => rfl
  | succ n ih => rw [toBytesBig, List.length_append, ih, List.length_singleton]

/-- A number that fits is read back. -/
theorem ofBytesBig_toBytesBig {n number : Nat} (h : number < 256 ^ n) :
    ofBytesBig (toBytesBig n number) = number := by
  induction n generalizing number with
  | zero =>
    rw [Nat.pow_zero, Nat.lt_one_iff] at h
    rw [h]
    rfl
  | succ n ih =>
    have hhead : number / 256 < 256 ^ n := by
      rw [Nat.div_lt_iff_lt_mul (by decide), ← Nat.pow_succ]
      exact h
    have hstep : ofBytesBig (toBytesBig (n + 1) number) =
        256 * ofBytesBig (toBytesBig n (number / 256)) + (UInt8.ofNat (number % 256)).toNat := by
      rw [ofBytesBig, toBytesBig, List.foldl_append]
      rfl
    rw [hstep, ih hhead, UInt8.toNat_ofNat']
    omega

/-- One more byte behind. -/
theorem ofBytesBig_append_singleton (bytes : List UInt8) (b : UInt8) :
    ofBytesBig (bytes ++ [b]) = 256 * ofBytesBig bytes + b.toNat := by
  rw [ofBytesBig, List.foldl_append]
  rfl

theorem ofBytesBig_lt (bytes : List UInt8) : ofBytesBig bytes < 256 ^ bytes.length := by
  induction bytes using List.reverseRecOn with
  | nil => exact Nat.one_pos
  | append_singleton bytes b ih =>
    have hb : b.toNat < 256 := b.toNat_lt
    rw [ofBytesBig_append_singleton, List.length_append, List.length_singleton, Nat.pow_succ]
    omega

/-- The bytes are those of the number that they make up. -/
theorem toBytesBig_ofBytesBig (bytes : List UInt8) :
    toBytesBig bytes.length (ofBytesBig bytes) = bytes := by
  induction bytes using List.reverseRecOn with
  | nil => rfl
  | append_singleton bytes b ih =>
    have hb : b.toNat < 256 := b.toNat_lt
    have hdiv : (256 * ofBytesBig bytes + b.toNat) / 256 = ofBytesBig bytes := by omega
    have hmod : (256 * ofBytesBig bytes + b.toNat) % 256 = b.toNat := by omega
    rw [ofBytesBig_append_singleton, List.length_append, List.length_singleton, toBytesBig, hdiv,
      hmod, ih, UInt8.ofNat_toNat]

end ScrapyCffi.Base
