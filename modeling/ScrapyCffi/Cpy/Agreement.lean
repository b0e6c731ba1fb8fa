import Mathlib.Algebra.Order.Ring.Nat
import ScrapyCffi.Base.Traverse
import ScrapyCffi.Cpy.Bloom

/-!
# The two Bloom filters agree

The C code answers every operation as the Python code does, and within the bounds of its array: both
answer as a filter does that keeps the values themselves.
-/

namespace ScrapyCffi.Cpy

open ScrapyCffi.Base

variable {size hashCount : Nat} {array : Bitmap.Bytes} {values : List Bytes} {data : Bytes}

/-! ### The hashes -/

/-- A round of the hash in 32 bits. -/
theorem toNat_round (hash : UInt32) (b : UInt8) :
    ((hash ^^^ b.toUInt32) * 16777619).toNat =
      (hash.toNat ^^^ b.toNat) * 16777619 &&& 0xFFFFFFFF := by
  have hmask : 0xFFFFFFFF = 2 ^ 32 - 1 := rfl
  rw [hmask, Nat.and_two_pow_sub_one_eq_mod, UInt32.toNat_mul, UInt32.toNat_xor,
    UInt8.toNat_toUInt32]
  rfl

/-- For a seed of 32 bits, the two hashes are the same. -/
theorem toNat_fnv1aHashBytes (data : Bytes) {i : Nat} (h : i < 2 ^ 32) :
    (fnv1aHashBytes data (UInt64.ofNat i)).toNat = fnv1aHash data i := by
  have hfold : ∀ hash : UInt32,
      (data.foldl (fun hash b ↦ (hash ^^^ b.toUInt32) * 16777619) hash).toNat =
        data.foldl (fun hash b ↦ (hash ^^^ b.toNat) * 16777619 &&& 0xFFFFFFFF) hash.toNat := by
    induction data with
    | nil => exact fun _ ↦ rfl
    | cons b rest ih =>
      intro hash
      rw [List.foldl_cons, List.foldl_cons, ih, toNat_round]
  have hseed : (UInt64.ofNat i).toUInt32.toNat = i := by
    rw [UInt64.toNat_toUInt32, UInt64.toNat_ofNat']
    omega
  rw [fnv1aHashBytes, hfold, UInt32.toNat_xor, hseed]
  rfl

/-! ### The bitmap -/

/-- The bits of a filter are the indices of its values. -/
structure Shows (size hashCount : Nat) (array : Bitmap.Bytes) (values : List Bytes) : Prop where
  length : array.length = (size + 7) / 8
  getBit : ∀ index, Bitmap.getBit array index = true ↔
    ∃ value ∈ values, index ∈ indicesOf size hashCount value

theorem lt_of_mem_indicesOf (hsize : 0 < size) {index : Nat}
    (h : index ∈ indicesOf size hashCount data) : index < size := by
  obtain ⟨i, -, rfl⟩ := List.mem_map.mp h
  exact Nat.mod_lt _ hsize

/-- A cleared filter shows nothing. -/
theorem shows_replicate (size hashCount : Nat) :
    Shows size hashCount (List.replicate ((size + 7) / 8) 0#8) [] := by
  constructor
  · rw [List.length_replicate]
  · intro index
    have hbyte : (List.replicate ((size + 7) / 8) 0#8).getD (index / 8) 0#8 = 0#8 := by
      rw [List.getD_eq_getElem?_getD, List.getElem?_replicate]
      split
      · rfl
      · rfl
    rw [Bitmap.getBit_eq, hbyte]
    simp

/-- Setting the indices of a value adds the value. -/
theorem Shows.setBits (h : Shows size hashCount array values) (hsize : 0 < size) (data : Bytes) :
    Shows size hashCount (Bitmap.setBits array (indicesOf size hashCount data))
      (data :: values) := by
  constructor
  · rw [Bitmap.length_setBits, h.length]
  · intro index
    have hlength := h.length
    rw [Bitmap.getBit_setBits, Bool.or_eq_true, h.getBit index, decide_eq_true_iff,
      List.exists_mem_cons_iff]
    constructor
    · rintro (hold | ⟨hmem, -⟩)
      · exact .inr hold
      · exact .inl hmem
    · rintro (hmem | hold)
      · have hlt := lt_of_mem_indicesOf hsize hmem
        exact .inr ⟨hmem, by omega⟩
      · exact .inl hold

/-- All indices of a value are set exactly if it may have been added. -/
theorem Shows.all_eq (h : Shows size hashCount array values) (data : Bytes) :
    (indicesOf size hashCount data).all (Bitmap.getBit array) =
      decide (MayContain size hashCount values data) := by
  rw [Bool.eq_iff_iff, List.all_eq_true, decide_eq_true_iff]
  exact forall₂_congr fun index _ ↦ h.getBit index

/-! ### Python -/

namespace BloomFilterPy

variable {filter : BloomFilterPy}

/-- A filter of some size that was given some values. -/
structure Holds (size hashCount : Nat) (filter : BloomFilterPy) (values : List Bytes) : Prop where
  size_eq : filter.size = size
  hashCount_eq : filter.hashCount = hashCount
  bytes_eq : filter.bytes = (size + 7) / 8
  shows : Shows size hashCount filter.bitArray values

theorem Holds.index_eq (h : Holds size hashCount filter values) (hsize : 0 < size) (data : Bytes)
    (i : Nat) : filter.index data i = some (fnv1aHash data i % size) := by
  rw [index, h.size_eq, if_neg (by omega)]

theorem Holds.add_eq (h : Holds size hashCount filter values) (hsize : 0 < size) (data : Bytes) :
    ∃ next, filter.add data = some next ∧ Holds size hashCount next (data :: values) := by
  have hloop : (List.range filter.hashCount).foldlM
      (fun array i ↦ filter.index data i >>= setBit array) filter.bitArray =
        some (Bitmap.setBits filter.bitArray (indicesOf size hashCount data)) := by
    rw [foldlM_eq_some (fun array ↦ array.length = (size + 7) / 8)
      (fun array i ↦ Bitmap.setBit array (fnv1aHash data i % size)) h.shows.length,
      Bitmap.setBits, indicesOf, List.foldl_map, h.hashCount_eq]
    intro array hlength i _
    have hlt := Nat.mod_lt (fnv1aHash data i) hsize
    constructor
    · rw [h.index_eq hsize, Option.bind_eq_bind, Option.bind_some, setBit, if_pos (by omega)]
    · rw [Bitmap.length_setBit, hlength]
  refine ⟨{ filter with
    bitArray := Bitmap.setBits filter.bitArray (indicesOf size hashCount data)
    inserted := filter.inserted + 1 }, ?_, ?_⟩
  · rw [add, hloop]
    rfl
  · exact ⟨h.size_eq, h.hashCount_eq, h.bytes_eq, h.shows.setBits hsize data⟩

theorem Holds.containsFrom_eq (h : Holds size hashCount filter values) (hsize : 0 < size)
    (data : Bytes) (rounds : List Nat) :
    filter.containsFrom data rounds = some ((rounds.map fun i ↦ fnv1aHash data i % size).all
      (Bitmap.getBit filter.bitArray)) := by
  induction rounds with
  | nil => rfl
  | cons i rest ih =>
    have hlt := Nat.mod_lt (fnv1aHash data i) hsize
    have hlength := h.shows.length
    rw [containsFrom, h.index_eq hsize]
    simp only [Option.bind_eq_bind, Option.bind_some, getBit]
    rw [if_pos (by omega), Option.bind_some, List.map_cons, List.all_cons, ih]
    cases Bitmap.getBit filter.bitArray (fnv1aHash data i % size) with
    | true => rfl
    | false => rfl

/-- The Python filter answers as one that keeps the values. -/
theorem Holds.step (h : Holds size hashCount filter values) (hsize : 0 < size) (op : Operation) :
    (service filter op).1 = (added size hashCount values op).1 ∧
      Holds size hashCount (service filter op).2 (added size hashCount values op).2 := by
  cases op with
  | add data =>
    obtain ⟨next, hnext, hholds⟩ := h.add_eq hsize data
    rw [service, hnext]
    exact ⟨rfl, hholds⟩
  | contains data =>
    have hrounds : (List.range filter.hashCount).map (fun i ↦ fnv1aHash data i % size) =
        indicesOf size hashCount data := by rw [h.hashCount_eq, indicesOf]
    constructor
    · show (filter.contains data).map _ = _
      rw [contains, h.containsFrom_eq hsize, hrounds, h.shows.all_eq]
      rfl
    · exact h
  | clear =>
    refine ⟨rfl, h.size_eq, h.hashCount_eq, h.bytes_eq, ?_⟩
    show Shows size hashCount (List.replicate filter.bytes 0#8) []
    rw [h.bytes_eq]
    exact shows_replicate size hashCount
  | getHashCount =>
    constructor
    · show some (Answer.hashCount filter.hashCount) = _
      rw [h.hashCount_eq]
      rfl
    · exact h
  | getIndices data =>
    have hindex : filter.index data = fun i ↦ pure (fnv1aHash data i % size) := by
      funext i
      exact h.index_eq hsize data i
    constructor
    · show (filter.getIndices data).map _ = _
      rw [getIndices, hindex, List.mapM_pure, h.hashCount_eq]
      rfl
    · exact h

end BloomFilterPy

/-! ### C -/

namespace BloomFilter

variable {filter : BloomFilter}

/-- A filter of some size that was given some values. -/
structure Holds (size hashCount : Nat) (filter : BloomFilter) (values : List Bytes) : Prop where
  size_eq : filter.size.toNat = size
  hashCount_eq : filter.hashCount.toNat = hashCount
  bytes_eq : filter.bytes.toNat = (size + 7) / 8
  shows : Shows size hashCount filter.bitArray values

theorem setBit_ofNat {index : Nat} (hindex : index < 2 ^ 64) (h : index / 8 < array.length) :
    setBit array (UInt64.ofNat index) = some (Bitmap.setBit array index) := by
  have hvalue : (UInt64.ofNat index).toNat = index := by
    rw [UInt64.toNat_ofNat', Nat.mod_eq_of_lt hindex]
  have hdiv : (UInt64.ofNat index / 8).toNat = index / 8 := by rw [UInt64.toNat_div, hvalue]; rfl
  have hmod : (UInt64.ofNat index % 8).toNat = index % 8 := by rw [UInt64.toNat_mod, hvalue]; rfl
  rw [setBit, hdiv, hmod, if_pos h, Bitmap.setBit]

theorem getBit_ofNat {index : Nat} (hindex : index < 2 ^ 64) (h : index / 8 < array.length) :
    getBit array (UInt64.ofNat index) = some (Bitmap.getBit array index) := by
  have hvalue : (UInt64.ofNat index).toNat = index := by
    rw [UInt64.toNat_ofNat', Nat.mod_eq_of_lt hindex]
  have hdiv : (UInt64.ofNat index / 8).toNat = index / 8 := by rw [UInt64.toNat_div, hvalue]; rfl
  have hmod : (UInt64.ofNat index % 8).toNat = index % 8 := by rw [UInt64.toNat_mod, hvalue]; rfl
  rw [getBit, hdiv, hmod, if_pos h, Bitmap.getBit]

theorem Holds.index_eq (h : Holds size hashCount filter values) (hsize : 0 < size) (data : Bytes)
    {i : Nat} (hi : i < 2 ^ 32) :
    filter.index data (UInt64.ofNat i) = some (UInt64.ofNat (fnv1aHash data i % size)) := by
  have hne : filter.size ≠ 0 := by
    intro hzero
    have := h.size_eq
    rw [hzero] at this
    exact absurd this (by simp; omega)
  rw [index, if_neg hne]
  congr 1
  apply UInt64.toNat_inj.mp
  have hlt : fnv1aHash data i % size < 2 ^ 64 := by
    have hmod := Nat.mod_lt (fnv1aHash data i) hsize
    have hbound := filter.size.toNat_lt
    rw [h.size_eq] at hbound
    omega
  rw [UInt64.toNat_mod, UInt32.toNat_toUInt64, toNat_fnv1aHashBytes data hi, h.size_eq,
    UInt64.toNat_ofNat', Nat.mod_eq_of_lt hlt]

/-- The rounds of a loop have a number of 32 bits. -/
theorem Holds.lt_of_mem_range (h : Holds size hashCount filter values) (hcount : hashCount ≤ 2 ^ 32)
    {i : Nat} (hi : i ∈ List.range filter.hashCount.toNat) : i < 2 ^ 32 := by
  have hlt := List.mem_range.mp hi
  rw [h.hashCount_eq] at hlt
  omega

theorem Holds.index_lt (h : Holds size hashCount filter values) (hsize : 0 < size) (data : Bytes)
    (i : Nat) : fnv1aHash data i % size < 2 ^ 64 ∧
      fnv1aHash data i % size / 8 < filter.bitArray.length := by
  have hmod := Nat.mod_lt (fnv1aHash data i) hsize
  have hbound := filter.size.toNat_lt
  have hlength := h.shows.length
  rw [h.size_eq] at hbound
  omega

theorem Holds.add_eq (h : Holds size hashCount filter values) (hsize : 0 < size)
    (hcount : hashCount ≤ 2 ^ 32) (data : Bytes) :
    ∃ next, filter.add data = some next ∧ Holds size hashCount next (data :: values) := by
  have hloop : filter.rounds.foldlM (fun array i ↦ filter.index data i >>= setBit array)
      filter.bitArray = some (Bitmap.setBits filter.bitArray (indicesOf size hashCount data)) := by
    rw [rounds, List.foldlM_map, foldlM_eq_some (fun array ↦ array.length = filter.bitArray.length)
      (fun array i ↦ Bitmap.setBit array (fnv1aHash data i % size)) rfl,
      Bitmap.setBits, indicesOf, List.foldl_map, h.hashCount_eq]
    intro array hlength i hi
    obtain ⟨hlt, hbounds⟩ := h.index_lt hsize data i
    rw [← hlength] at hbounds
    constructor
    · rw [h.index_eq hsize data (h.lt_of_mem_range hcount hi), Option.bind_eq_bind,
        Option.bind_some, setBit_ofNat hlt hbounds]
    · rw [Bitmap.length_setBit, hlength]
  refine ⟨{ filter with
    bitArray := Bitmap.setBits filter.bitArray (indicesOf size hashCount data)
    inserted := filter.inserted + 1 }, ?_, ?_⟩
  · rw [add, hloop]
    rfl
  · exact ⟨h.size_eq, h.hashCount_eq, h.bytes_eq, h.shows.setBits hsize data⟩

theorem Holds.containsFrom_eq (h : Holds size hashCount filter values) (hsize : 0 < size)
    (data : Bytes) {rounds : List Nat} (hrounds : ∀ i ∈ rounds, i < 2 ^ 32) :
    filter.containsFrom data (rounds.map UInt64.ofNat) =
      some ((rounds.map fun i ↦ fnv1aHash data i % size).all (Bitmap.getBit filter.bitArray)) := by
  induction rounds with
  | nil => rfl
  | cons i rest ih =>
    obtain ⟨hi, hrest⟩ := List.forall_mem_cons.mp hrounds
    obtain ⟨hlt, hbounds⟩ := h.index_lt hsize data i
    rw [List.map_cons, containsFrom, h.index_eq hsize data hi]
    simp only [Option.bind_eq_bind, Option.bind_some]
    rw [getBit_ofNat hlt hbounds, Option.bind_some, List.map_cons, List.all_cons, ih hrest]
    cases Bitmap.getBit filter.bitArray (fnv1aHash data i % size) with
    | true => rfl
    | false => rfl

theorem Holds.getIndices_eq (h : Holds size hashCount filter values) (hsize : 0 < size)
    (hcount : hashCount ≤ 2 ^ 32) (data : Bytes) :
    (filter.getIndices data).map (fun indices ↦ indices.map UInt64.toNat) =
      some (indicesOf size hashCount data) := by
  have hall : ∀ rounds : List Nat, (∀ i ∈ rounds, i < 2 ^ 32) →
      (rounds.map UInt64.ofNat).mapM (filter.index data) =
        some (rounds.map fun i ↦ UInt64.ofNat (fnv1aHash data i % size)) := by
    intro rounds hrounds
    induction rounds with
    | nil => rfl
    | cons i rest ih =>
      obtain ⟨hi, hrest⟩ := List.forall_mem_cons.mp hrounds
      rw [List.map_cons, List.mapM_cons, h.index_eq hsize data hi, ih hrest]
      rfl
  rw [getIndices, rounds, hall _ fun i hi ↦ h.lt_of_mem_range hcount hi, Option.map_some,
    List.map_map, h.hashCount_eq, indicesOf]
  congr 1
  apply List.map_congr_left
  intro i _
  rw [Function.comp_apply, UInt64.toNat_ofNat', Nat.mod_eq_of_lt (h.index_lt hsize data i).1]

/-- The C filter answers as one that keeps the values. -/
theorem Holds.step (h : Holds size hashCount filter values) (hsize : 0 < size)
    (hcount : hashCount ≤ 2 ^ 32) (op : Operation) :
    (service filter op).1 = (added size hashCount values op).1 ∧
      Holds size hashCount (service filter op).2 (added size hashCount values op).2 := by
  cases op with
  | add data =>
    obtain ⟨next, hnext, hholds⟩ := h.add_eq hsize hcount data
    rw [service, hnext]
    exact ⟨rfl, hholds⟩
  | contains data =>
    have hindices : (List.range filter.hashCount.toNat).map (fun i ↦ fnv1aHash data i % size) =
        indicesOf size hashCount data := by rw [h.hashCount_eq, indicesOf]
    constructor
    · show (filter.contains data).map _ = _
      rw [contains, rounds, h.containsFrom_eq hsize data fun i hi ↦ h.lt_of_mem_range hcount hi,
        hindices, h.shows.all_eq]
      rfl
    · exact h
  | clear =>
    refine ⟨rfl, h.size_eq, h.hashCount_eq, h.bytes_eq, ?_⟩
    show Shows size hashCount (List.replicate filter.bytes.toNat 0#8 ++
      filter.bitArray.drop filter.bytes.toNat) []
    rw [h.bytes_eq, ← h.shows.length, List.drop_length, List.append_nil, h.shows.length]
    exact shows_replicate size hashCount
  | getHashCount =>
    constructor
    · show some (Answer.hashCount filter.hashCount.toNat) = _
      rw [h.hashCount_eq]
      rfl
    · exact h
  | getIndices data =>
    constructor
    · show (filter.getIndices data).map
        (fun indices ↦ Answer.indices (indices.map UInt64.toNat)) = _
      have hmap : (fun indices : List UInt64 ↦ Answer.indices (indices.map UInt64.toNat)) =
          Answer.indices ∘ fun indices ↦ indices.map UInt64.toNat := rfl
      rw [hmap, ← Option.map_map, h.getIndices_eq hsize hcount]
      rfl
    · exact h

end BloomFilter

/-! ### Whole runs -/

end ScrapyCffi.Cpy
