import Mathlib.Data.Finset.Basic
import Mathlib.Logic.Function.Basic
import ScrapyCffi.Base.Service
import ScrapyCffi.Dupefilter.Memory

/-!
# The Redis duplicate filter

`DedupKeyRouter` (`scrapy_cffi/dupefilter/routing.py`), the script of
`RedisRepository.do_filter` (`scrapy_cffi/repo/redis.py:132–154`) and `RedisDupeFilter`
(`scrapy_cffi/dupefilter/redis.py:13–56`) with `DEDUP_TTL = 0`. A script runs at the server in
one step and no reply is lost. The node that `get_node` picks for a fingerprint is a
parameter: every result holds for any choice.
-/

namespace ScrapyCffi.Dupefilter

open ScrapyCffi.Base

universe u

variable {β δ : Type u} [DecidableEq δ]

/-- The sets of a Redis server by key. -/
abbrev RedisSets (δ : Type u) := String → Finset δ

/-- `SADD` of one member: whether it was added. -/
def sadd (sets : RedisSets δ) (key : String) (member : δ) : Bool × RedisSets δ :=
  (decide (member ∉ sets key), Function.update sets key (insert member (sets key)))

/-- `SREM` of one member. -/
def srem (sets : RedisSets δ) (key : String) (member : δ) : RedisSets δ :=
  Function.update sets key ((sets key).erase member)

/-- The two keys of a fingerprint. -/
structure DedupKeys where
  newSeen : String
  sentSeen : String
  deriving DecidableEq, Repr

/-- A router: `FILTER_KEY`, the spider's namespace, the Bloom algorithm, whether
`redis_mode` is `"cluster"`, and the startup nodes. -/
structure DedupKeyRouter where
  filterKey : String
  nameSpace : String
  algorithm : String
  clusterMode : Bool
  clusterNodes : List String
  deriving DecidableEq, Repr

namespace DedupKeyRouter

/-- The suffix of both base keys. -/
def suffix (router : DedupKeyRouter) : String :=
  let parts := [router.nameSpace, router.algorithm].filter (· ≠ "")
  if parts = [] then "" else ":" ++ ":".intercalate parts

/-- `_base_new`. -/
def baseNew (router : DedupKeyRouter) : String :=
  router.filterKey ++ "_new_seen" ++ router.suffix

/-- `_base_sent`. -/
def baseSent (router : DedupKeyRouter) : String :=
  router.filterKey ++ "_sent_seen" ++ router.suffix

/-- `is_cluster`. -/
def isCluster (router : DedupKeyRouter) : Bool :=
  router.clusterMode && !router.clusterNodes.isEmpty

/-- `_cluster_hash_tag`. -/
def clusterHashTag (router : DedupKeyRouter) (node : String) : String :=
  "scrapy-cffi-dedup:" ++ router.baseNew ++ ":" ++ node

/-- `for_fingerprint`; both keys of a cluster carry the same hash tag. -/
def forFingerprint (getNode : List String → δ → String) (router : DedupKeyRouter)
    (fingerprint : δ) : DedupKeys :=
  if router.isCluster then
    let hashTag := router.clusterHashTag (getNode router.clusterNodes fingerprint)
    ⟨router.baseNew ++ (":\x7b" ++ hashTag ++ "\x7d"), router.baseSent ++ (":\x7b" ++ hashTag ++ "\x7d")⟩
  else ⟨router.baseNew, router.baseSent⟩

/-- A key under the first base is none under the second. -/
private theorem base_ne (router : DedupKeyRouter) (first second : String) :
    router.baseNew ++ first ≠ router.baseSent ++ second := by
  intro h
  have h := congrArg String.toList h
  simp [baseNew, baseSent] at h

omit [DecidableEq δ] in
/-- No fingerprint's key of seen requests is another one's key of sent requests. -/
theorem newSeen_ne_sentSeen (getNode : List String → δ → String) (router : DedupKeyRouter)
    (fingerprint other : δ) : (router.forFingerprint getNode fingerprint).newSeen ≠
      (router.forFingerprint getNode other).sentSeen := by
  unfold forFingerprint
  split
  · exact router.base_ne _ _
  · simpa using router.base_ne "" ""

end DedupKeyRouter

/-- The script of `do_filter`: whether the fingerprint is new. -/
def doFilter (sets : RedisSets δ) (fingerprint : δ) (keys : DedupKeys) : Bool × RedisSets δ :=
  let (added, sets) := sadd sets keys.newSeen fingerprint
  if added then
    let (unsent, sets) := sadd sets keys.sentSeen fingerprint
    if unsent then (true, srem sets keys.sentSeen fingerprint) else (false, sets)
  else (false, sets)

/-- `RedisDupeFilter` as a service. -/
def redis (getNode : List String → δ → String) (router : DedupKeyRouter) (digest : β → δ) :
    Service (RedisSets δ) (Operation β) (Option Bool)
  | sets, .requestSeen request =>
    if request.dontFilter then (some false, sets)
    else
      let fingerprint := digest request.bytes
      let (isNew, next) := doFilter sets fingerprint (router.forFingerprint getNode fingerprint)
      (some !isNew, next)
  | sets, .markSent request =>
    if request.dontFilter then (none, sets)
    else
      let fingerprint := digest request.bytes
      (none, (sadd sets (router.forFingerprint getNode fingerprint).sentSeen fingerprint).2)

/-! ### The script -/

variable {sets : RedisSets δ} {fingerprint other member : δ} {key found : String}
  {keys : DedupKeys}

/-- `SADD` adds its member to its key. -/
theorem mem_sadd : member ∈ (sadd sets key fingerprint).2 found ↔
    (found = key ∧ member = fingerprint) ∨ member ∈ sets found := by
  show member ∈ Function.update sets key (insert fingerprint (sets key)) found ↔ _
  rw [Function.update_apply]
  split
  · next h =>
    subst h
    simp
  · next h => simp [h]

/-- `SREM` removes its member from its key. -/
theorem mem_srem : member ∈ srem sets key fingerprint found ↔
    ¬ (found = key ∧ member = fingerprint) ∧ member ∈ sets found := by
  rw [srem, Function.update_apply]
  split
  · next h =>
    subst h
    simp
  · next h => simp [h]

/-- The fingerprint is new when neither set has it. -/
theorem doFilter_fst (hkeys : keys.newSeen ≠ keys.sentSeen) :
    (doFilter sets fingerprint keys).1 = true ↔
      fingerprint ∉ sets keys.newSeen ∧ fingerprint ∉ sets keys.sentSeen := by
  have hsent : (sadd (sadd sets keys.newSeen fingerprint).2 keys.sentSeen fingerprint).1 = true ↔
      fingerprint ∉ sets keys.sentSeen := by
    simp [sadd, Function.update_of_ne hkeys.symm]
  have hnew : (sadd sets keys.newSeen fingerprint).1 = true ↔
      fingerprint ∉ sets keys.newSeen := by
    simp [sadd]
  unfold doFilter
  dsimp only
  split
  · next h =>
    split
    · next hs => simp [hnew.mp h, hsent.mp hs]
    · next hs => simpa using fun _ ↦ not_not.mp (mt hsent.mpr hs)
  · next h => simpa using fun hn ↦ absurd (hnew.mpr hn) h

/-- The script adds the fingerprint to the first set and leaves every other membership: the
probe of the second set is undone. -/
theorem mem_doFilter (hkeys : keys.newSeen ≠ keys.sentSeen) :
    member ∈ (doFilter sets fingerprint keys).2 found ↔
      (found = keys.newSeen ∧ member = fingerprint) ∨ member ∈ sets found := by
  unfold doFilter
  dsimp only
  split
  · split
    · next hs =>
      have hunsent : fingerprint ∉ sets keys.sentSeen := by
        simpa [sadd, Function.update_of_ne hkeys.symm] using hs
      rw [mem_srem, mem_sadd, mem_sadd]
      constructor
      · tauto
      · rintro (⟨rfl, rfl⟩ | hm)
        · exact ⟨fun h ↦ hkeys h.1, .inr (.inl ⟨rfl, rfl⟩)⟩
        · refine ⟨?_, .inr (.inr hm)⟩
          rintro ⟨rfl, rfl⟩
          exact hunsent hm
    · next hs =>
      have hsent : fingerprint ∈ sets keys.sentSeen := by
        simpa [sadd, Function.update_of_ne hkeys.symm] using hs
      rw [mem_sadd, mem_sadd]
      constructor
      · rintro (⟨rfl, rfl⟩ | hm)
        · exact .inr hsent
        · exact hm
      · exact .inr
  · exact mem_sadd

end ScrapyCffi.Dupefilter
