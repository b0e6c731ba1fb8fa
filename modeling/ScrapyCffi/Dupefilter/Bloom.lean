import Mathlib.Logic.Function.Basic
import ScrapyCffi.Base.Bitmap
import ScrapyCffi.Dupefilter.Redis

/-!
# Bloom duplicate filters

The portable Bloom filter (`scrapy_cffi/platform/bloom.py:62–138`), `BloomDupeFilter`
(`scrapy_cffi/dupefilter/base.py:65–97`), the script of `RedisRepository.do_bloom_filter`
(`scrapy_cffi/repo/redis.py:156–201`) and `RedisBloomDupeFilter`
(`scrapy_cffi/dupefilter/redis.py:82–112`), whose keys do not expire. The two XXH3 hashes and
the rounded `size / expected * log 2` are parameters.
-/

namespace ScrapyCffi.Dupefilter

open ScrapyCffi.Base

universe u

variable {β δ : Type u} [DecidableEq δ]

/-- `settings.BLOOM_INFO` with the bounds of its fields; `scrapy_cffi/settings.py:33–39`. -/
structure BloomInfo where
  size : Nat
  expected : Nat
  hashCount : Nat
  size_pos : 0 < size
  expected_pos : 0 < expected

/-- The XXH3 hashes with seeds 0 and 32. -/
structure Hashes (β : Type u) where
  one : β → Nat
  two : β → Nat

/-- `_hash_count`; `derived` is `round(size / expected * math.log(2))`. -/
def hashCount (derived : Int → Int → Int) (size expected configured : Int) :
    Except String Int :=
  if size ≤ 0 then .error "Bloom size must be greater than zero"
  else if expected ≤ 0 then .error "Bloom expected items must be greater than zero"
  else if configured < 0 then .error "Bloom hash count cannot be negative"
  else if configured ≠ 0 then .ok configured
  else .ok (max 1 (derived size expected))

/-- `_indices`. -/
def bloomIndices (hashes : Hashes β) (data : β) (size hashCount : Nat) : List Nat :=
  let hashOne := hashes.one data % size
  let hashTwo := hashes.two data % size
  (List.range hashCount).map fun index ↦
    if index = 0 then hashOne else (hashOne + index * hashTwo) % size

/-- A resolved hash count belongs to a positive size and is positive. -/
theorem hashCount_ok {derived : Int → Int → Int} {size expected configured count : Int}
    (h : hashCount derived size expected configured = .ok count) : 0 < size ∧ 0 < count := by
  unfold hashCount at h
  split at h
  · cases h
  · split at h
    · cases h
    · split at h
      · cases h
      · split at h <;> cases h <;> omega

/-- `PythonBloomFilter`: the bitmap has `size` bits and every value is probed at least once. -/
structure PythonBloomFilter where
  size : Nat
  expected : Nat
  hashCount : Nat
  bitArray : Bitmap.Bytes
  inserted : Nat
  size_pos : 0 < size
  hashCount_pos : 0 < hashCount
  length_bitArray : 8 * bitArray.length = size

namespace PythonBloomFilter

/-- `__init__`, which rounds the size up to whole bytes. -/
def create (derived : Int → Int → Int) (size expected configured : Int) :
    Except String PythonBloomFilter :=
  match h : Dupefilter.hashCount derived ((size + 7) / 8 * 8) expected configured with
  | .error error => .error error
  | .ok count => .ok
    { size := ((size + 7) / 8 * 8).toNat
      expected := expected.toNat
      hashCount := count.toNat
      bitArray := List.replicate ((size + 7) / 8 * 8 / 8).toNat 0#8
      inserted := 0
      size_pos := by have := hashCount_ok h; omega
      hashCount_pos := by have := hashCount_ok h; omega
      length_bitArray := by have := hashCount_ok h; rw [List.length_replicate]; omega }

/-- `get_indices`. -/
def getIndices (hashes : Hashes β) (filter : PythonBloomFilter) (data : β) : List Nat :=
  bloomIndices hashes data filter.size filter.hashCount

/-- `add`. -/
def add (hashes : Hashes β) (filter : PythonBloomFilter) (data : β) : PythonBloomFilter :=
  { filter with
    bitArray := Bitmap.setBits filter.bitArray (filter.getIndices hashes data)
    inserted := filter.inserted + 1
    length_bitArray := by rw [Bitmap.length_setBits, filter.length_bitArray] }

/-- `exists`. -/
def contains (hashes : Hashes β) (filter : PythonBloomFilter) (data : β) : Bool :=
  (filter.getIndices hashes data).all (Bitmap.getBit filter.bitArray)

end PythonBloomFilter

/-- The two filters of `BloomDupeFilter`. -/
structure BloomDupeFilter where
  newSeen : PythonBloomFilter
  sentSeen : PythonBloomFilter

/-- `BloomDupeFilter` as a service. -/
def bloom (hashes : Hashes β) : Service BloomDupeFilter (Operation β) (Option Bool)
  | filter, .requestSeen request =>
    if filter.newSeen.contains hashes request.bytes then (some true, filter)
    else (some (filter.sentSeen.contains hashes request.bytes),
      { filter with newSeen := filter.newSeen.add hashes request.bytes })
  | filter, .markSent request =>
    if request.dontFilter then (none, filter)
    else (none, { filter with sentSeen := filter.sentSeen.add hashes request.bytes })

/-- The bitmaps of a Redis server: the offsets of the set bits by key. -/
abbrev RedisBitmaps := String → Finset Nat

/-- `SETBIT key index 1` for each index. -/
def setbits (bitmaps : RedisBitmaps) (key : String) (indices : List Nat) : RedisBitmaps :=
  Function.update bitmaps key (bitmaps key ∪ indices.toFinset)

/-- A loop of the script over the indices: `is_new` is 1 at the first clear bit, and 0 after
a set one. -/
def probe (bits : Finset Nat) (isNew : Bool) : List Nat → Bool
  | [] => isNew
  | index :: indices => if index ∉ bits then true else probe bits false indices

/-- The script of `do_bloom_filter`: whether the value is new. -/
def doBloomFilter (bitmaps : RedisBitmaps) (keys : DedupKeys) (indices : List Nat) :
    Bool × RedisBitmaps :=
  let isNew := probe (bitmaps keys.newSeen) true indices
  let isNew := if isNew then probe (bitmaps keys.sentSeen) true indices else false
  (isNew, if isNew then setbits bitmaps keys.newSeen indices else bitmaps)

/-- `RedisBloomDupeFilter` as a service; its router takes the list of indices. -/
def redisBloom (hashes : Hashes β) (getNode : List String → List Nat → String)
    (router : DedupKeyRouter) (filter : PythonBloomFilter) :
    Service RedisBitmaps (Operation β) (Option Bool)
  | bitmaps, .requestSeen request =>
    if request.dontFilter then (some false, bitmaps)
    else
      let indexList := filter.getIndices hashes request.bytes
      let (isNew, next) :=
        doBloomFilter bitmaps (router.forFingerprint getNode indexList) indexList
      (some !isNew, next)
  | bitmaps, .markSent request =>
    if request.dontFilter then (none, bitmaps)
    else
      let indexList := filter.getIndices hashes request.bytes
      (none, setbits bitmaps (router.forFingerprint getNode indexList).sentSeen indexList)

/-! ### The portable filter -/

namespace PythonBloomFilter

variable {hashes : Hashes β} {filter : PythonBloomFilter} {data other : β} {index : Nat}

/-- A positive size gives a filter. -/
theorem create_ok (derived : Int → Int → Int) (info : BloomInfo) :
    ∃ filter, create derived info.size info.expected info.hashCount = .ok filter := by
  have hsize := info.size_pos
  have hexpected := info.expected_pos
  have hcount : ∃ count, Dupefilter.hashCount derived (((info.size : Int) + 7) / 8 * 8)
      info.expected info.hashCount = .ok count := by
    unfold Dupefilter.hashCount
    rw [if_neg (by omega), if_neg (by omega), if_neg (by omega)]
    split <;> exact ⟨_, rfl⟩
  obtain ⟨count, hcount⟩ := hcount
  unfold create
  split
  · next error he => cases he.symm.trans hcount
  · exact ⟨_, rfl⟩

/-- Every index lies in the bitmap. -/
theorem lt_of_mem_getIndices (h : index ∈ filter.getIndices hashes data) :
    index < 8 * filter.bitArray.length := by
  rw [filter.length_bitArray]
  obtain ⟨i, -, rfl⟩ := List.mem_map.mp h
  split
  · exact Nat.mod_lt _ filter.size_pos
  · exact Nat.mod_lt _ filter.size_pos

/-- Every value has an index. -/
theorem getIndices_ne_nil (hashes : Hashes β) (filter : PythonBloomFilter) (data : β) :
    filter.getIndices hashes data ≠ [] := by
  have := filter.hashCount_pos
  simp only [getIndices, bloomIndices, ne_eq, List.map_eq_nil_iff, List.range_eq_nil]
  omega

/-- Adding a value clears no bit. -/
theorem getBit_add (h : Bitmap.getBit filter.bitArray index = true) :
    Bitmap.getBit (filter.add hashes data).bitArray index = true :=
  Bitmap.getBit_setBits_of_getBit h

/-- A value that may be present stays so. -/
theorem contains_add (h : filter.contains hashes data = true) :
    (filter.add hashes other).contains hashes data = true := by
  simp only [contains, List.all_eq_true] at h ⊢
  exact fun index hi ↦ getBit_add (h index hi)

/-- An added value may be present. -/
theorem contains_add_self : (filter.add hashes data).contains hashes data = true := by
  simp only [contains, List.all_eq_true]
  exact fun index hi ↦ Bitmap.getBit_setBits_of_mem hi (lt_of_mem_getIndices hi)

end PythonBloomFilter

end ScrapyCffi.Dupefilter
