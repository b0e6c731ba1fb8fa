import ScrapyCffi.Dupefilter.Bloom

/-!
# Bloom filters reject what the memory filter rejects

A fingerprint in the memory filter's sets has all its bits set: in the bitmap of the same name
of `BloomDupeFilter`, and in one of its two bitmaps on Redis, where a value found in the second
bitmap is not added to the first. `RedisBloomDupeFilter` never looks up a request with
`dont_filter`, which the memory filter records.
-/

namespace ScrapyCffi.Dupefilter

open ScrapyCffi.Base

universe u

variable {β δ : Type u} [DecidableEq δ] {digest : β → δ} {hashes : Hashes β}
  {getNode : List String → List Nat → String} {router : DedupKeyRouter}
  {bloomFilter : PythonBloomFilter} {bitmaps : RedisBitmaps} {filter : MemoryDupeFilter δ}
  {keys : DedupKeys} {indices : List Nat} {index : Nat}

/-- An answer that rejects, given also by the other filter. -/
def RejectsToo (answer other : Option Bool) : Prop := answer = some true → other = some true

instance (answer other : Option Bool) : Decidable (RejectsToo answer other) :=
  inferInstanceAs (Decidable (_ → _))

/-- A check is on a request that is filtered. -/
def Operation.ChecksFiltered : Operation β → Prop
  | .requestSeen request => request.dontFilter = false
  | .markSent _ => True

/-! ### The portable filter -/

/-- The memory filter's sets have their bits set. -/
def Covered (digest : β → δ) (hashes : Hashes β) (filter : MemoryDupeFilter δ)
    (bloomDupeFilter : BloomDupeFilter) : Prop :=
  ∀ data, (digest data ∈ filter.newSeen → bloomDupeFilter.newSeen.contains hashes data = true) ∧
    (digest data ∈ filter.sentSeen → bloomDupeFilter.sentSeen.contains hashes data = true)

/-- Every operation keeps the bits and rejects what the memory filter rejects. -/
theorem Covered.step (hdigest : Function.Injective digest) {bloomDupeFilter : BloomDupeFilter}
    (h : Covered digest hashes filter bloomDupeFilter) (op : Operation β) :
    RejectsToo (memory digest filter op).1 (bloom hashes bloomDupeFilter op).1 ∧
      Covered digest hashes (memory digest filter op).2 (bloom hashes bloomDupeFilter op).2 := by
  cases op with
  | requestSeen request =>
    obtain ⟨hnew, hsent⟩ := h request.bytes
    simp only [memory, bloom]
    split
    · next hcontains =>
      refine ⟨fun _ ↦ rfl, fun data ↦ ⟨fun hm ↦ ?_, fun hm ↦ (h data).2 (by simpa using hm)⟩⟩
      rcases MemoryDupeFilter.mem_newSeen_requestSeen.mp hm with he | hm
      · exact hdigest he ▸ hcontains
      · exact (h data).1 hm
    · next hcontains =>
      constructor
      · intro hseen
        rcases MemoryDupeFilter.requestSeen_fst.mp (Option.some.inj hseen) with hm | hm
        · exact absurd (hnew hm) hcontains
        · exact congrArg some (hsent hm)
      · refine fun data ↦ ⟨fun hm ↦ ?_, fun hm ↦ (h data).2 (by simpa using hm)⟩
        rcases MemoryDupeFilter.mem_newSeen_requestSeen.mp hm with he | hm
        · exact hdigest he ▸ PythonBloomFilter.contains_add_self
        · exact PythonBloomFilter.contains_add ((h data).1 hm)
  | markSent request =>
    simp only [memory, bloom]
    cases hf : request.dontFilter with
    | true =>
      refine ⟨nofun, fun data ↦ ⟨fun hm ↦ (h data).1 (by simpa using hm), fun hm ↦ ?_⟩⟩
      exact (h data).2 (by simpa [hf] using hm)
    | false =>
      refine ⟨nofun, fun data ↦ ⟨fun hm ↦ (h data).1 (by simpa using hm), fun hm ↦ ?_⟩⟩
      rcases MemoryDupeFilter.mem_sentSeen_markSent.mp hm with ⟨-, he⟩ | hm
      · exact hdigest he ▸ PythonBloomFilter.contains_add_self
      · exact PythonBloomFilter.contains_add ((h data).2 hm)

/-- No operation clears a bit of the portable filters. -/
theorem getBit_bloom (bloomDupeFilter : BloomDupeFilter) (op : Operation β) :
    (Bitmap.getBit bloomDupeFilter.newSeen.bitArray index = true →
      Bitmap.getBit (bloom hashes bloomDupeFilter op).2.newSeen.bitArray index = true) ∧
    (Bitmap.getBit bloomDupeFilter.sentSeen.bitArray index = true →
      Bitmap.getBit (bloom hashes bloomDupeFilter op).2.sentSeen.bitArray index = true) := by
  cases op with
  | requestSeen request =>
    simp only [bloom]
    split
    · exact ⟨id, id⟩
    · exact ⟨PythonBloomFilter.getBit_add, id⟩
  | markSent request =>
    simp only [bloom]
    split
    · exact ⟨id, id⟩
    · exact ⟨id, PythonBloomFilter.getBit_add⟩

/-! ### The Redis bitmaps -/

/-- All indices are set under the key. -/
def AllSet (bitmaps : RedisBitmaps) (key : String) (indices : List Nat) : Prop :=
  ∀ index ∈ indices, index ∈ bitmaps key

/-- `SETBIT` sets its indices under its key and clears none. -/
theorem mem_setbits {key found : String} : index ∈ setbits bitmaps key indices found ↔
    index ∈ bitmaps found ∨ (found = key ∧ index ∈ indices) := by
  rw [setbits, Function.update_apply]
  split
  · next h =>
    subst h
    simp
  · next h => simp [h]

/-- A loop over some indices finds a clear bit or none. -/
theorem probe_eq_false {bits : Finset Nat} {isNew : Bool} :
    probe bits isNew indices = false ↔
      (∀ index ∈ indices, index ∈ bits) ∧ (indices = [] → isNew = false) := by
  induction indices generalizing isNew with
  | nil => simp [probe]
  | cons index indices ih =>
    rw [probe]
    split
    · next h => simp [h]
    · next h =>
      rw [ih]
      simp [not_not.mp h]

/-- The script rejects a value when one bitmap has all its bits. -/
theorem doBloomFilter_fst (hindices : indices ≠ []) :
    (doBloomFilter bitmaps keys indices).1 = false ↔
      AllSet bitmaps keys.newSeen indices ∨ AllSet bitmaps keys.sentSeen indices := by
  have hprobe : ∀ bits, probe bits true indices = false ↔ ∀ index ∈ indices, index ∈ bits :=
    fun bits ↦ probe_eq_false.trans (and_iff_left fun he ↦ absurd he hindices)
  simp only [doBloomFilter]
  split
  · next h =>
    rw [hprobe, or_iff_right]
    · rfl
    · intro hset
      simp [(hprobe _).mpr hset] at h
  · next h => exact iff_of_true rfl (.inl ((hprobe _).mp (by simpa using h)))

/-- The script sets the bits of a new value in the first bitmap. -/
theorem doBloomFilter_snd (bitmaps : RedisBitmaps) (keys : DedupKeys) (indices : List Nat) :
    (doBloomFilter bitmaps keys indices).2 = if (doBloomFilter bitmaps keys indices).1
      then setbits bitmaps keys.newSeen indices else bitmaps := rfl

/-- The script clears no bit. -/
theorem subset_doBloomFilter (key : String) (h : index ∈ bitmaps key) :
    index ∈ (doBloomFilter bitmaps keys indices).2 key := by
  rw [doBloomFilter_snd]
  split
  · exact mem_setbits.mpr (.inl h)
  · exact h

/-- After the script one bitmap has all bits of the value. -/
theorem allSet_doBloomFilter (hindices : indices ≠ []) :
    AllSet (doBloomFilter bitmaps keys indices).2 keys.newSeen indices ∨
      AllSet (doBloomFilter bitmaps keys indices).2 keys.sentSeen indices := by
  cases h : (doBloomFilter bitmaps keys indices).1 with
  | false =>
    refine ((doBloomFilter_fst hindices).mp h).imp (fun hset ↦ ?_) fun hset ↦ ?_
    all_goals exact fun index hi ↦ subset_doBloomFilter _ (hset index hi)
  | true =>
    refine .inl fun index hi ↦ ?_
    rw [doBloomFilter_snd, if_pos h]
    exact mem_setbits.mpr (.inr ⟨rfl, hi⟩)

/-- No operation clears a bit on Redis. -/
theorem subset_redisBloom (op : Operation β) (key : String) (h : index ∈ bitmaps key) :
    index ∈ (redisBloom hashes getNode router bloomFilter bitmaps op).2 key := by
  cases op with
  | requestSeen request =>
    simp only [redisBloom]
    split
    · exact h
    · exact subset_doBloomFilter key h
  | markSent request =>
    simp only [redisBloom]
    split
    · exact h
    · exact mem_setbits.mpr (.inl h)

/-- The memory filter's sets have their bits set under the keys of the value, those of checked
requests in one of the two bitmaps. -/
def RedisCovered (digest : β → δ) (hashes : Hashes β) (getNode : List String → List Nat → String)
    (router : DedupKeyRouter) (bloomFilter : PythonBloomFilter) (filter : MemoryDupeFilter δ)
    (bitmaps : RedisBitmaps) : Prop :=
  ∀ data,
    let indices := bloomFilter.getIndices hashes data
    let keys := router.forFingerprint getNode indices
    (digest data ∈ filter.newSeen →
      AllSet bitmaps keys.newSeen indices ∨ AllSet bitmaps keys.sentSeen indices) ∧
    (digest data ∈ filter.sentSeen → AllSet bitmaps keys.sentSeen indices)

/-- Every operation keeps the bits and rejects what the memory filter rejects. -/
theorem RedisCovered.step (hdigest : Function.Injective digest)
    (h : RedisCovered digest hashes getNode router bloomFilter filter bitmaps)
    (op : Operation β) (hop : op.ChecksFiltered) :
    RejectsToo (memory digest filter op).1
        (redisBloom hashes getNode router bloomFilter bitmaps op).1 ∧
      RedisCovered digest hashes getNode router bloomFilter (memory digest filter op).2
        (redisBloom hashes getNode router bloomFilter bitmaps op).2 := by
  have hkeep : ∀ {key indices}, AllSet bitmaps key indices →
      AllSet (redisBloom hashes getNode router bloomFilter bitmaps op).2 key indices :=
    fun hset index hi ↦ subset_redisBloom op _ (hset index hi)
  cases op with
  | requestSeen request =>
    have hindices := bloomFilter.getIndices_ne_nil hashes request.bytes
    replace hop : request.dontFilter = false := hop
    have hrun : redisBloom hashes getNode router bloomFilter bitmaps (.requestSeen request) =
        (some !(doBloomFilter bitmaps
            (router.forFingerprint getNode (bloomFilter.getIndices hashes request.bytes))
            (bloomFilter.getIndices hashes request.bytes)).1,
          (doBloomFilter bitmaps
            (router.forFingerprint getNode (bloomFilter.getIndices hashes request.bytes))
            (bloomFilter.getIndices hashes request.bytes)).2) := by
      simp [redisBloom, hop]
    constructor
    · intro hseen
      have hset := MemoryDupeFilter.requestSeen_fst.mp (Option.some.inj hseen)
      have hcovered := hset.elim (h request.bytes).1 fun hm ↦ .inr ((h request.bytes).2 hm)
      rw [hrun, (doBloomFilter_fst hindices).mpr hcovered]
      rfl
    · refine fun data ↦ ⟨fun hm ↦ ?_, fun hm ↦ ?_⟩
      · rcases MemoryDupeFilter.mem_newSeen_requestSeen.mp hm with he | hm
        · rw [hdigest he, hrun]
          exact allSet_doBloomFilter hindices
        · exact ((h data).1 hm).imp hkeep hkeep
      · exact hkeep ((h data).2 (by simpa [memory] using hm))
  | markSent request =>
    refine ⟨nofun, fun data ↦ ⟨fun hm ↦ ?_, fun hm ↦ ?_⟩⟩
    · exact ((h data).1 (by simpa [memory] using hm)).imp hkeep hkeep
    · rcases MemoryDupeFilter.mem_sentSeen_markSent.mp hm with ⟨hf, he⟩ | hm
      · intro index hi
        obtain rfl := hdigest he
        simp only [redisBloom, hf]
        exact mem_setbits.mpr (.inr ⟨rfl, hi⟩)
      · exact hkeep ((h data).2 hm)

/-! ### No false negatives -/

/-- For every configuration, hashes, injective digest and key routing, the portable filter
rejects what the memory filter rejects on every sequence of operations, and the Redis filter on
every sequence whose checks are on filtered requests. Every index lies in the bitmap, and no
operation clears a bit. -/
theorem bloom_rejects (info : BloomInfo) (derived : Int → Int → Int) (hashes : Hashes β)
    (getNode : List String → List Nat → String) (router : DedupKeyRouter)
    (hdigest : Function.Injective digest) :
    ∃ created, PythonBloomFilter.create derived info.size info.expected info.hashCount =
        .ok created ∧
      (∀ ops, List.Forall₂ RejectsToo ((memory digest).answers .empty ops)
        ((bloom hashes).answers ⟨created, created⟩ ops)) ∧
      (∀ ops, (∀ op ∈ ops, op.ChecksFiltered) →
        List.Forall₂ RejectsToo ((memory digest).answers .empty ops)
          ((redisBloom hashes getNode router created).answers (fun _ ↦ ∅) ops)) ∧
      (∀ (filter : PythonBloomFilter) (data : β), ∀ index ∈ filter.getIndices hashes data,
        index < 8 * filter.bitArray.length) ∧
      (∀ bloomDupeFilter op index,
        (Bitmap.getBit bloomDupeFilter.newSeen.bitArray index = true →
          Bitmap.getBit (bloom hashes bloomDupeFilter op).2.newSeen.bitArray index = true) ∧
        (Bitmap.getBit bloomDupeFilter.sentSeen.bitArray index = true →
          Bitmap.getBit (bloom hashes bloomDupeFilter op).2.sentSeen.bitArray index = true)) ∧
      (∀ bitmaps op key, bitmaps key ⊆
        (redisBloom hashes getNode router created bitmaps op).2 key) := by
  obtain ⟨created, hcreated⟩ := PythonBloomFilter.create_ok derived info
  refine ⟨created, hcreated, fun ops ↦ ?_, fun ops hops ↦ ?_,
    fun _ _ _ ↦ PythonBloomFilter.lt_of_mem_getIndices, fun _ op _ ↦ getBit_bloom _ op,
    fun _ op key _ ↦ subset_redisBloom op key⟩
  · refine Service.answers_forall₂ (R := Covered digest hashes) (Q := RejectsToo)
      (fun _ _ op _ h ↦ h.step hdigest op) fun data ↦ ⟨fun hm ↦ ?_, fun hm ↦ ?_⟩
    all_goals exact absurd hm (Finset.notMem_empty _)
  · refine Service.answers_forall₂
      (R := RedisCovered digest hashes getNode router created) (Q := RejectsToo)
      (fun _ _ op ho h ↦ h.step hdigest op (hops op ho)) fun data ↦ ⟨fun hm ↦ ?_, fun hm ↦ ?_⟩
    all_goals exact absurd hm (Finset.notMem_empty _)

/-- Eight bits with one probe for values that are numbers. -/
theorem bloom_rejects_numbers :
    ∃ created, PythonBloomFilter.create (fun _ _ ↦ 0) 8 1 1 = .ok created ∧
      List.Forall₂ RejectsToo
        ((memory (id : Nat → Nat)).answers .empty
          [.markSent ⟨3, false⟩, .requestSeen ⟨3, false⟩, .requestSeen ⟨3, false⟩])
        ((redisBloom ⟨id, id⟩ (fun _ _ ↦ "") ⟨"cffiFilter", "", "", false, []⟩ created).answers
          (fun _ ↦ ∅) [.markSent ⟨3, false⟩, .requestSeen ⟨3, false⟩, .requestSeen ⟨3, false⟩]) := by
  obtain ⟨created, hcreated, -, hredis, -⟩ := bloom_rejects (β := Nat) (δ := Nat)
    ⟨8, 1, 1, by decide, by decide⟩ (fun _ _ ↦ 0) ⟨id, id⟩ (fun _ _ ↦ "")
    ⟨"cffiFilter", "", "", false, []⟩ Function.injective_id
  refine ⟨created, hcreated, hredis _ fun op ho ↦ ?_⟩
  simp only [List.mem_cons, List.not_mem_nil, or_false] at ho
  rcases ho with rfl | rfl | rfl <;> simp [Operation.ChecksFiltered]

/-- The memory filter rejects a second check of a request with `dont_filter`, the Redis Bloom
filter does not. -/
theorem dont_filter_rejected_by_memory_only :
    ∃ created, PythonBloomFilter.create (fun _ _ ↦ 0) 8 1 1 = .ok created ∧
      ¬ List.Forall₂ RejectsToo
        ((memory (id : Nat → Nat)).answers .empty
          [.requestSeen ⟨3, true⟩, .requestSeen ⟨3, true⟩])
        ((redisBloom ⟨id, id⟩ (fun _ _ ↦ "") ⟨"cffiFilter", "", "", false, []⟩ created).answers
          (fun _ ↦ ∅) [.requestSeen ⟨3, true⟩, .requestSeen ⟨3, true⟩]) :=
  ⟨_, rfl, by decide⟩

end ScrapyCffi.Dupefilter
