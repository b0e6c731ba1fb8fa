import ScrapyCffi.Base.Bitmap
import ScrapyCffi.Base.Service

/-!
# The Bloom filters of the bloom extension

`BloomFilterPy` of `scrapy_cffi/cpy/cpy_resources/bloom/fallback.py` and the C code that
`wrapper.py` loads in its place, `examples/c_bloom/bloom.c`. No answer is an exception in Python and
undefined behaviour in C. What `round(size / expected * log 2)` gives is a parameter of each.
-/

namespace ScrapyCffi.Cpy

open ScrapyCffi.Base

abbrev Bytes := List UInt8

/-- The methods of a filter; a text is given by its UTF-8 bytes. -/
inductive Operation
  | add (data : Bytes)
  | contains (data : Bytes)
  | clear
  | getHashCount
  | getIndices (data : Bytes)

inductive Answer
  | done
  | present (found : Bool)
  | hashCount (count : Nat)
  | indices (indices : List Nat)
  deriving DecidableEq

/-! ### Python -/

/-- `fnv1a_hash`, `fallback.py:4–11`. -/
def fnv1aHash (data : Bytes) (seed : Nat) : Nat :=
  data.foldl (fun hash b ↦ (hash ^^^ b.toNat) * 16777619 &&& 0xFFFFFFFF) (2166136261 ^^^ seed)

/-- `set_bit`, `fallback.py:13–14`, which may raise an `IndexError`. -/
def setBit (array : Bitmap.Bytes) (index : Nat) : Option Bitmap.Bytes :=
  if index / 8 < array.length then some (Bitmap.setBit array index) else none

/-- `get_bit`, `fallback.py:16–17`. -/
def getBit (array : Bitmap.Bytes) (index : Nat) : Option Bool :=
  if index / 8 < array.length then some (Bitmap.getBit array index) else none

structure BloomFilterPy where
  size : Nat
  bytes : Nat
  bitArray : Bitmap.Bytes
  inserted : Nat
  hashCount : Nat

namespace BloomFilterPy

/-- `__init__`, `fallback.py:20–28`. -/
def create (derived : Nat → Nat → Nat) (size expected hashCount : Nat) : Option BloomFilterPy :=
  if hashCount = 0 ∧ expected = 0 then none
  else some
    { size := size
      bytes := (size + 7) / 8
      bitArray := List.replicate ((size + 7) / 8) 0#8
      inserted := 0
      hashCount := if hashCount = 0 then max 1 (derived size expected) else hashCount }

variable (filter : BloomFilterPy)

/-- `fnv1a_hash(data, i) % self.size`, which may raise a `ZeroDivisionError`. -/
def index (data : Bytes) (i : Nat) : Option Nat :=
  if filter.size = 0 then none else some (fnv1aHash data i % filter.size)

/-- `add`, `fallback.py:30–35`. -/
def add (data : Bytes) : Option BloomFilterPy := do
  let bitArray ← (List.range filter.hashCount).foldlM
    (fun array i ↦ filter.index data i >>= setBit array) filter.bitArray
  return { filter with bitArray := bitArray, inserted := filter.inserted + 1 }

/-- The loop of `exists`, `fallback.py:38–42`. -/
def containsFrom (data : Bytes) : List Nat → Option Bool
  | [] => some true
  | i :: rest => do
    let index ← filter.index data i
    let found ← getBit filter.bitArray index
    if found then containsFrom data rest else some false

/-- `exists`, `fallback.py:37–43`. -/
def contains (data : Bytes) : Option Bool := filter.containsFrom data (List.range filter.hashCount)

/-- `clear`, `fallback.py:55–57`. -/
def clear : BloomFilterPy :=
  { filter with bitArray := List.replicate filter.bytes 0#8, inserted := 0 }

/-- `get_indices`, `fallback.py:70–75`. -/
def getIndices (data : Bytes) : Option (List Nat) :=
  (List.range filter.hashCount).mapM (filter.index data)

/-- The filter as a service. -/
def service : Service BloomFilterPy Operation (Option Answer)
  | filter, .add data =>
    match filter.add data with
    | some next => (some .done, next)
    | none => (none, filter)
  | filter, .contains data => ((filter.contains data).map .present, filter)
  | filter, .clear => (some .done, filter.clear)
  | filter, .getHashCount => (some (.hashCount filter.hashCount), filter)
  | filter, .getIndices data => ((filter.getIndices data).map .indices, filter)

end BloomFilterPy

/-! ### C -/

/-- `fnv1a_hash_bytes`, `bloom.c:8–15`. -/
def fnv1aHashBytes (data : Bytes) (seed : UInt64) : UInt32 :=
  data.foldl (fun hash b ↦ (hash ^^^ b.toUInt32) * 16777619) (2166136261 ^^^ seed.toUInt32)

/-- `BloomFilter`, `bloom.h:17–24`, where `size_t` has 64 bits. Nothing reads `distributed`. -/
structure BloomFilter where
  size : UInt64
  bytes : UInt64
  hashCount : UInt64
  inserted : UInt64
  bitArray : Bitmap.Bytes

namespace BloomFilter

/-- `bloom_init`, `bloom.c:30–41`, where memory is allocated. A division by zero expected elements
has no value that a `size_t` can hold. -/
def init (optimalK : UInt64 → UInt64 → UInt64) (size expected hashCount : UInt64) :
    Option BloomFilter :=
  if hashCount = 0 ∧ expected = 0 then none
  else
    let hashCount := if hashCount ≠ 0 then hashCount else optimalK size expected
    some
      { size := size
        bytes := (size + 7) / 8
        bitArray := List.replicate ((size + 7) / 8).toNat 0#8
        inserted := 0
        hashCount := if hashCount < 1 then 1 else hashCount }

/-- `BloomFilter.__init__` of `wrapper.py:73–74`; ctypes takes an integer modulo 2^64. -/
def create (optimalK : UInt64 → UInt64 → UInt64) (size expected hashCount : Nat) :
    Option BloomFilter :=
  init optimalK (.ofNat size) (.ofNat expected) (.ofNat hashCount)

/-- `set_bit`, `bloom.c:17–19`, within the array. -/
def setBit (array : Bitmap.Bytes) (index : UInt64) : Option Bitmap.Bytes :=
  if (index / 8).toNat < array.length then
    some (array.modify (index / 8).toNat (· ||| 1#8 <<< (index % 8).toNat))
  else none

/-- `get_bit`, `bloom.c:21–23`, within the array. -/
def getBit (array : Bitmap.Bytes) (index : UInt64) : Option Bool :=
  if (index / 8).toNat < array.length then
    some (array.getD (index / 8).toNat 0#8 >>> (index % 8).toNat &&& 1#8 != 0#8)
  else none

variable (filter : BloomFilter)

/-- `fnv1a_hash_bytes(buf, len, i) % filter->size`. -/
def index (data : Bytes) (i : UInt64) : Option UInt64 :=
  if filter.size = 0 then none else some ((fnv1aHashBytes data i).toUInt64 % filter.size)

/-- The values of `i` in `for (size_t i = 0; i < filter->hash_count; i++)`. -/
def rounds : List UInt64 := (List.range filter.hashCount.toNat).map UInt64.ofNat

/-- `bloom_add`, `bloom.c:49–56`. -/
def add (data : Bytes) : Option BloomFilter := do
  let bitArray ← filter.rounds.foldlM
    (fun array i ↦ filter.index data i >>= setBit array) filter.bitArray
  return { filter with bitArray := bitArray, inserted := filter.inserted + 1 }

/-- The loop of `bloom_exists`, `bloom.c:60–63`. -/
def containsFrom (data : Bytes) : List UInt64 → Option Bool
  | [] => some true
  | i :: rest => do
    let index ← filter.index data i
    let found ← getBit filter.bitArray index
    if !found then some false else containsFrom data rest

/-- `bloom_exists`, `bloom.c:58–65`. -/
def contains (data : Bytes) : Option Bool := filter.containsFrom data filter.rounds

/-- `bloom_clear`, `bloom.c:67–70`. -/
def clear : BloomFilter :=
  { filter with
    bitArray := List.replicate filter.bytes.toNat 0#8 ++ filter.bitArray.drop filter.bytes.toNat
    inserted := 0 }

/-- `bloom_get_indices`, `bloom.c:84–90`. -/
def getIndices (data : Bytes) : Option (List UInt64) := filter.rounds.mapM (filter.index data)

/-- The filter behind `BloomFilter` of `wrapper.py:72–99`, as a service. -/
def service : Service BloomFilter Operation (Option Answer)
  | filter, .add data =>
    match filter.add data with
    | some next => (some .done, next)
    | none => (none, filter)
  | filter, .contains data => ((filter.contains data).map .present, filter)
  | filter, .clear => (some .done, filter.clear)
  | filter, .getHashCount => (some (.hashCount filter.hashCount.toNat), filter)
  | filter, .getIndices data =>
    ((filter.getIndices data).map fun indices ↦ .indices (indices.map UInt64.toNat), filter)

end BloomFilter

/-! ### What a filter is for -/

/-- The indices of a value in a filter of some size. -/
def indicesOf (size hashCount : Nat) (data : Bytes) : List Nat :=
  (List.range hashCount).map fun i ↦ fnv1aHash data i % size

/-- A value may be among those that were added: each of its indices is one of theirs. -/
def MayContain (size hashCount : Nat) (added : List Bytes) (data : Bytes) : Prop :=
  ∀ index ∈ indicesOf size hashCount data, ∃ value ∈ added, index ∈ indicesOf size hashCount value

instance (size hashCount : Nat) (added : List Bytes) (data : Bytes) :
    Decidable (MayContain size hashCount added data) :=
  inferInstanceAs (Decidable (∀ index ∈ _, ∃ value ∈ _, _))

/-- A filter without bits: the values that were added since it was last cleared. -/
def added (size hashCount : Nat) : Service (List Bytes) Operation (Option Answer)
  | values, .add data => (some .done, data :: values)
  | values, .contains data => (some (.present (MayContain size hashCount values data)), values)
  | _, .clear => (some .done, [])
  | values, .getHashCount => (some (.hashCount hashCount), values)
  | values, .getIndices data => (some (.indices (indicesOf size hashCount data)), values)

end ScrapyCffi.Cpy
