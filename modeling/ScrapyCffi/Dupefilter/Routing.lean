import ScrapyCffi.Base.JumpHash
import ScrapyCffi.Base.Separator
import ScrapyCffi.Dupefilter.Redis
import ScrapyCffi.Requests.State

/-!
# Routing of the deduplication keys

`get_node` (`utils/algorithm.py:31–49`) and `DedupKeyRouter` (`dupefilter/routing.py:27–104`).
`hashlib.md5` is a parameter; the division of the loop is exact and rounds down.
-/

namespace ScrapyCffi.Dupefilter

open ScrapyCffi.Base ScrapyCffi.Requests

/-! ## Jump consistent hash -/

/-- The state of the loop after one more turn. -/
def nextKey (key : Nat) : Nat := (key * 2862933555777941757 + 1) % 2 ^ 64

/-- The candidate after a bucket, for the next state. -/
def nextCandidate (bucket key : Nat) : Nat := (bucket + 1) * 2 ^ 31 / (key / 2 ^ 33 + 1)

/-- A state has at most 31 bits above the lowest 33, so that the candidate grows. -/
theorem lt_nextCandidate (bucket key : Nat) : bucket < nextCandidate bucket (nextKey key) := by
  have hkey : nextKey key < 2 ^ 64 := Nat.mod_lt _ (by decide)
  have hdivisor : nextKey key / 2 ^ 33 + 1 ≤ 2 ^ 31 := by omega
  rw [nextCandidate, Nat.lt_iff_add_one_le, Nat.le_div_iff_mul_le (Nat.succ_pos _)]
  exact Nat.mul_le_mul_left _ hdivisor

/-- One turn of the loop. -/
def jumps : Jumps Nat where
  next bucket key := (nextCandidate bucket (nextKey key), nextKey key)
  increasing := lt_nextCandidate

/-- A fingerprint, `Union[str, bytes]`. -/
inductive RawFingerprint
  | str (text : String)
  | bytes (data : List UInt8)

/-- `fingerprint.encode("utf-8")` of a string. -/
def RawFingerprint.encode : RawFingerprint → List UInt8
  | .str text => utf8Encode text.toList
  | .bytes data => data

/-- `int.from_bytes(data, "big")`. -/
def fromBytesBig (data : List UInt8) : Nat := data.foldl (fun n byte ↦ 256 * n + byte.toNat) 0

/-- `nodes[bucket]`, which counts from the end below zero. -/
def index (nodes : List String) (bucket : Int) : Except PyError String :=
  let position := if bucket < 0 then bucket + nodes.length else bucket
  if position < 0 then .error .indexError
  else (nodes[position.toNat]?).elim (.error .indexError) .ok

/-- The node for a starting key: `get_node` from its loop on. -/
def nodeOf (nodes : List String) (key : Nat) : Except PyError String :=
  if nodes = [] then .error (.valueError "nodes cannot be empty")
  else index nodes (jumps.loop nodes.length (-1) 0 key)

/-- `get_node`. -/
def getNode (md5 : List UInt8 → List UInt8) (nodes : List String) (fingerprint : RawFingerprint) :
    Except PyError String :=
  nodeOf nodes (fromBytesBig ((md5 fingerprint.encode).take 8))

/-- A choice of nodes takes one of a list that has any, and with one node more at its end the same
one or the new one. -/
def ConsistentChoice (choose : List String → Except PyError String) : Prop :=
  (∀ nodes, nodes ≠ [] → ∃ node ∈ nodes, choose nodes = .ok node) ∧
  ∀ nodes x, choose (nodes ++ [x]) = choose nodes ∨ choose (nodes ++ [x]) = .ok x

/-- A bucket of the list has its node. -/
theorem index_of_lt {nodes : List String} {bucket : Nat} (h : bucket < nodes.length) :
    index nodes bucket = .ok nodes[bucket] := by
  have hpos : ¬ (bucket : Int) < 0 := by omega
  simp only [index, if_neg hpos, Int.toNat_natCast]
  rw [List.getElem?_eq_getElem h]
  rfl

/-- The loop ends in a bucket of a list that is not empty. -/
theorem exists_bucket {n : Nat} (hn : 0 < n) (key : Nat) :
    ∃ bucket < n, jumps.loop n (-1) 0 key = (bucket : Nat) := by
  obtain ⟨hle, hlt⟩ := jumps.loop_bounds (-1) key (.inl hn)
  exact ⟨(jumps.loop n (-1) 0 key).toNat, by omega, by omega⟩

/-- The loop chooses consistently for every starting key. -/
theorem consistentChoice_nodeOf (key : Nat) : ConsistentChoice fun nodes ↦ nodeOf nodes key := by
  constructor
  · intro nodes hne
    obtain ⟨bucket, hlt, hbucket⟩ := exists_bucket (List.length_pos_iff.mpr hne) key
    refine ⟨nodes[bucket], List.getElem_mem hlt, ?_⟩
    dsimp only
    rw [nodeOf, if_neg hne, hbucket, index_of_lt hlt]
  · intro nodes x
    dsimp only
    have hlast : index (nodes ++ [x]) nodes.length = .ok x := by
      rw [index_of_lt (by simp)]
      simp
    rw [nodeOf, if_neg (by simp), List.length_append, List.length_singleton]
    rcases jumps.loop_succ nodes.length (-1) 0 key with hsame | hnew
    · by_cases hne : nodes = []
      · right
        subst hne
        rw [hsame]
        simp [Jumps.loop, index]
      · left
        obtain ⟨bucket, hlt, hbucket⟩ := exists_bucket (List.length_pos_iff.mpr hne) key
        rw [hsame, nodeOf, if_neg hne, hbucket, index_of_lt hlt,
          index_of_lt (by rw [List.length_append]; omega), List.getElem_append_left hlt]
    · right
      rw [hnew, hlast]

/-- A list with nodes has the one that is chosen. -/
theorem exists_getNode (md5 : List UInt8 → List UInt8) {nodes : List String} (hne : nodes ≠ [])
    (fingerprint : RawFingerprint) : ∃ node ∈ nodes, getNode md5 nodes fingerprint = .ok node :=
  (consistentChoice_nodeOf _).1 nodes hne

/-- Growing the cluster moves keys to the new node only: for every starting key, and so for every
fingerprint, the loop of `get_node` ends in a bucket of the list, and appending a node keeps the
choice or makes it the new node. -/
theorem getNode_consistent :
    (∀ key, ConsistentChoice fun nodes ↦ nodeOf nodes key) ∧
    ∀ md5 fingerprint, ConsistentChoice fun nodes ↦ getNode md5 nodes fingerprint :=
  ⟨consistentChoice_nodeOf, fun _ _ ↦ consistentChoice_nodeOf _⟩

/-! ## Keys -/

/-- `DedupKeyRouter` for any two base names; those of `from_redis_repository` come from one
`FILTER_KEY`. -/
structure KeyRouter where
  baseNewSeen : String
  baseSentSeen : String
  redisMode : String
  clusterNodes : List String
  nameSpace : String
  algorithm : String
  deriving DecidableEq

namespace KeyRouter

/-- The suffix of both base keys. -/
def suffix (r : KeyRouter) : String :=
  let parts := [r.nameSpace, r.algorithm].filter (· ≠ "")
  if parts = [] then "" else ":" ++ ":".intercalate parts

/-- `_base_new`. -/
def baseNew (r : KeyRouter) : String := r.baseNewSeen ++ r.suffix

/-- `_base_sent`. -/
def baseSent (r : KeyRouter) : String := r.baseSentSeen ++ r.suffix

/-- `is_cluster`. -/
def isCluster (r : KeyRouter) : Bool := r.redisMode = "cluster" && !r.clusterNodes.isEmpty

/-- `_cluster_hash_tag`. -/
def clusterHashTag (r : KeyRouter) (node : String) : String :=
  "scrapy-cffi-dedup:" ++ r.baseNew ++ ":" ++ node

/-- `for_fingerprint`, `routing.py:84–98`. -/
def forFingerprint (md5 : List UInt8 → List UInt8) (r : KeyRouter) (fingerprint : RawFingerprint) :
    Except PyError DedupKeys :=
  if r.isCluster then
    match getNode md5 r.clusterNodes fingerprint with
    | .error e => .error e
    | .ok node =>
      let hashTag := r.clusterHashTag node
      .ok ⟨r.baseNew ++ (":\x7b" ++ hashTag ++ "\x7d"), r.baseSent ++ (":\x7b" ++ hashTag ++ "\x7d")⟩
  else .ok ⟨r.baseNew, r.baseSent⟩

/-- `cleanup_keys`, `routing.py:103–112`. -/
def cleanupKeys (r : KeyRouter) : List String :=
  if r.isCluster then
    r.clusterNodes.flatMap fun node ↦
      let hashTag := r.clusterHashTag node
      [r.baseNew ++ (":\x7b" ++ hashTag ++ "\x7d"), r.baseSent ++ (":\x7b" ++ hashTag ++ "\x7d")]
  else [r.baseNew, r.baseSent]

end KeyRouter

/-- The hash tag of a key in a Redis Cluster: what stands between the first opening brace and the
next closing one, if that is anything. -/
def hashTag (key : String) : Option (List Char) :=
  match key.toList.dropWhile (· ≠ '\x7b') with
  | [] => none
  | _ :: rest =>
    let tag := rest.takeWhile (· ≠ '\x7d')
    if tag = [] ∨ '\x7d' ∉ rest then none else some tag

/-- Every fingerprint has keys; in a cluster they have one hash tag; and all are cleaned up. -/
structure KeepsKeys (md5 : List UInt8 → List UInt8) (r : KeyRouter) : Prop where
  returns : ∀ fingerprint, ∃ keys, r.forFingerprint md5 fingerprint = .ok keys
  oneSlot : r.isCluster → ∀ fingerprint keys, r.forFingerprint md5 fingerprint = .ok keys →
    ∃ tag ≠ [], hashTag keys.newSeen = some tag ∧ hashTag keys.sentSeen = some tag
  cleanedUp : ∀ fingerprint keys, r.forFingerprint md5 fingerprint = .ok keys →
    keys.newSeen ∈ r.cleanupKeys ∧ keys.sentSeen ∈ r.cleanupKeys

/-- No key of seen requests is one of sent requests. -/
def KeysApart (md5 : List UInt8 → List UInt8) (r : KeyRouter) : Prop :=
  ∀ fingerprint other keys keys', r.forFingerprint md5 fingerprint = .ok keys →
    r.forFingerprint md5 other = .ok keys' → keys.newSeen ≠ keys'.sentSeen

/-- The names that a router is built of have no opening brace. -/
structure KeyRouter.Plain (r : KeyRouter) : Prop where
  newSeen : '\x7b' ∉ r.baseNewSeen.toList
  sentSeen : '\x7b' ∉ r.baseSentSeen.toList
  space : '\x7b' ∉ r.nameSpace.toList
  algorithm : '\x7b' ∉ r.algorithm.toList

/-- The tag of a key with a plain base. -/
theorem hashTag_eq {base tag : String} (hbase : '\x7b' ∉ base.toList) :
    hashTag (base ++ (":\x7b" ++ ("s" ++ tag) ++ "\x7d")) =
      some ('s' :: tag.toList.takeWhile (· ≠ '\x7d')) := by
  have hkey : (base ++ (":\x7b" ++ ("s" ++ tag) ++ "\x7d")).toList =
      (base.toList ++ [':']) ++ '\x7b' :: ('s' :: tag.toList ++ ['\x7d']) := by
    simp
  have hdrop : ∀ c ∈ base.toList ++ [':'], decide (c ≠ '\x7b') = true := by
    intro c hc
    rcases List.mem_append.mp hc with hc | hc
    · exact decide_eq_true fun h ↦ hbase (h ▸ hc)
    · rw [List.mem_singleton.mp hc]
      decide
  have htake : ∀ l : List Char, (l ++ ['\x7d']).takeWhile (· ≠ '\x7d') =
      l.takeWhile (· ≠ '\x7d') := by
    intro l
    induction l with
    | nil => rfl
    | cons c l ih => simp only [List.cons_append, List.takeWhile_cons, ih]
  rw [hashTag, hkey, List.dropWhile_append_of_pos hdrop]
  simpa using htake tag.toList

/-- Keys under two plain bases differ. -/
theorem key_ne {base other first second : String} (hbase : '\x7b' ∉ base.toList)
    (hother : '\x7b' ∉ other.toList) (hne : base ≠ other) :
    base ++ (":\x7b" ++ first ++ "\x7d") ≠ other ++ (":\x7b" ++ second ++ "\x7d") := by
  intro h
  have hkeys : (base.toList ++ [':']) ++ '\x7b' :: (first.toList ++ ['\x7d']) =
      (other.toList ++ [':']) ++ '\x7b' :: (second.toList ++ ['\x7d']) := by
    simpa using congrArg String.toList h
  have hplain {name : String} (hname : '\x7b' ∉ name.toList) : '\x7b' ∉ name.toList ++ [':'] := by
    simpa using hname
  rcases separated_eq_iff.mp hkeys with ⟨heq, -⟩ | hruns | hruns
  · exact hne (String.toList_inj.mp (List.append_cancel_right heq))
  · exact hplain hother hruns.mem
  · exact hplain hbase hruns.mem

namespace KeyRouter

variable {r : KeyRouter}

/-- The suffix of plain names is plain. -/
theorem Plain.suffix (h : r.Plain) : '\x7b' ∉ r.suffix.toList := by
  have hpair : ":".intercalate [r.nameSpace, r.algorithm] = r.nameSpace ++ ":" ++ r.algorithm := rfl
  rw [KeyRouter.suffix]
  by_cases hspace : r.nameSpace = "" <;> by_cases halgorithm : r.algorithm = "" <;>
    simp [hspace, halgorithm, h.space, h.algorithm, hpair]

/-- The base of plain names is plain. -/
theorem Plain.bases (h : r.Plain) :
    '\x7b' ∉ r.baseNew.toList ∧ '\x7b' ∉ r.baseSent.toList := by
  rw [baseNew, baseSent, String.toList_append, String.toList_append]
  exact ⟨by simp [h.newSeen, h.suffix], by simp [h.sentSeen, h.suffix]⟩

/-- Different base names give different bases. -/
theorem baseNew_ne (h : r.baseNewSeen ≠ r.baseSentSeen) : r.baseNew ≠ r.baseSent := by
  intro heq
  apply h
  have hlists := congrArg String.toList heq
  rw [baseNew, baseSent, String.toList_append, String.toList_append] at hlists
  exact String.toList_inj.mp (List.append_cancel_right hlists)

/-- In a cluster the keys of a fingerprint are those of one of its nodes. -/
theorem forFingerprint_cluster (md5 : List UInt8 → List UInt8) (hcluster : r.isCluster = true)
    (fingerprint : RawFingerprint) :
    ∃ node ∈ r.clusterNodes, r.forFingerprint md5 fingerprint =
      .ok ⟨r.baseNew ++ (":\x7b" ++ r.clusterHashTag node ++ "\x7d"),
        r.baseSent ++ (":\x7b" ++ r.clusterHashTag node ++ "\x7d")⟩ := by
  have hnodes : r.clusterNodes ≠ [] := by
    rw [isCluster, Bool.and_eq_true] at hcluster
    simpa using hcluster.2
  obtain ⟨node, hmem, hnode⟩ := exists_getNode md5 hnodes fingerprint
  refine ⟨node, hmem, ?_⟩
  rw [forFingerprint, if_pos hcluster, hnode]

/-- A hash tag starts with a letter. -/
theorem clusterHashTag_eq (r : KeyRouter) (node : String) :
    r.clusterHashTag node = "s" ++ ("crapy-cffi-dedup:" ++ r.baseNew ++ ":" ++ node) := by
  unfold KeyRouter.clusterHashTag
  apply String.toList_inj.mp
  simp

/-- The keys of a router of plain names are kept together and cleaned up. -/
theorem keepsKeys (md5 : List UInt8 → List UInt8) (hplain : r.Plain) : KeepsKeys md5 r := by
  obtain ⟨hnew, hsent⟩ := hplain.bases
  by_cases hcluster : r.isCluster = true
  · constructor
    case returns =>
      intro fingerprint
      obtain ⟨node, -, hkeys⟩ := forFingerprint_cluster md5 hcluster fingerprint
      exact ⟨_, hkeys⟩
    case oneSlot =>
      intro _ fingerprint keys hkeys
      obtain ⟨node, -, hnode⟩ := forFingerprint_cluster md5 hcluster fingerprint
      cases hkeys.symm.trans hnode
      rw [clusterHashTag_eq]
      exact ⟨_, List.cons_ne_nil _ _, hashTag_eq hnew, hashTag_eq hsent⟩
    case cleanedUp =>
      intro fingerprint keys hkeys
      obtain ⟨node, hmem, hnode⟩ := forFingerprint_cluster md5 hcluster fingerprint
      cases hkeys.symm.trans hnode
      rw [cleanupKeys, if_pos hcluster]
      exact ⟨List.mem_flatMap.mpr ⟨node, hmem, by simp⟩, List.mem_flatMap.mpr ⟨node, hmem, by simp⟩⟩
  · have hkeys (fingerprint : RawFingerprint) :
        r.forFingerprint md5 fingerprint = .ok ⟨r.baseNew, r.baseSent⟩ := by
      rw [forFingerprint, if_neg hcluster]
    constructor
    case returns => exact fun fingerprint ↦ ⟨_, hkeys fingerprint⟩
    case oneSlot => exact fun h ↦ absurd h hcluster
    case cleanedUp =>
      intro fingerprint keys hfirst
      cases (hkeys fingerprint).symm.trans hfirst
      rw [cleanupKeys, if_neg hcluster]
      simp

/-- Keys under different plain base names are apart. -/
theorem keysApart_of_ne (md5 : List UInt8 → List UInt8) (hplain : r.Plain)
    (hne : r.baseNewSeen ≠ r.baseSentSeen) : KeysApart md5 r := by
  obtain ⟨hnew, hsent⟩ := hplain.bases
  intro fingerprint other keys keys' hkeys hkeys'
  by_cases hcluster : r.isCluster = true
  · obtain ⟨node, -, hnode⟩ := forFingerprint_cluster md5 hcluster fingerprint
    obtain ⟨node', -, hnode'⟩ := forFingerprint_cluster md5 hcluster other
    cases hkeys.symm.trans hnode
    cases hkeys'.symm.trans hnode'
    exact key_ne hnew hsent (baseNew_ne hne)
  · rw [forFingerprint, if_neg hcluster] at hkeys hkeys'
    cases hkeys
    cases hkeys'
    exact baseNew_ne hne

/-- One name for both bases gives a fingerprint one key twice. -/
theorem not_keysApart_of_eq (md5 : List UInt8 → List UInt8) (hplain : r.Plain)
    (heq : r.baseNewSeen = r.baseSentSeen) : ¬ KeysApart md5 r := by
  intro h
  obtain ⟨keys, hkeys⟩ := (keepsKeys md5 hplain).returns (.str "")
  apply h _ _ keys keys hkeys hkeys
  have hbases : r.baseNew = r.baseSent := by rw [baseNew, baseSent, heq]
  rw [forFingerprint] at hkeys
  split at hkeys
  · split at hkeys
    · cases hkeys
    · cases hkeys
      rw [hbases]
  · cases hkeys
    exact hbases

/-- For names without an opening brace every fingerprint has two keys, which share their hash tag
in a cluster and are all cleaned up; keys of seen and of sent requests are apart if and only if
the base names differ. -/
theorem keys_routed (md5 : List UInt8 → List UInt8) (r : KeyRouter) (hplain : r.Plain) :
    KeepsKeys md5 r ∧ (KeysApart md5 r ↔ r.baseNewSeen ≠ r.baseSentSeen) :=
  ⟨keepsKeys md5 hplain, fun h heq ↦ not_keysApart_of_eq md5 hplain heq h,
    keysApart_of_ne md5 hplain⟩

/-- Three nodes and the base names of the settings. -/
theorem keys_routed_cluster :
    KeysApart (fun _ ↦ [12, 193, 117, 185, 192, 241, 182, 168, 49, 195, 153, 226, 105, 119, 38, 97])
      ⟨"dupe_new_seen", "dupe_sent_seen", "cluster", ["a:1", "b:2", "c:3"], "spider", "bloom"⟩ :=
  (keys_routed _ _ ⟨by decide, by decide, by decide, by decide⟩).2.mpr (by decide)

/-- With one name for both bases the two keys are the same. -/
theorem not_keysApart_same_base :
    ¬ ∀ (md5 : List UInt8 → List UInt8) (r : KeyRouter), r.Plain →
      KeepsKeys md5 r ∧ KeysApart md5 r := by
  intro h
  have hapart := (h id ⟨"seen", "seen", "single", [], "", ""⟩
    ⟨by decide, by decide, by decide, by decide⟩).2
  exact hapart (.str "") (.str "") _ _ rfl rfl rfl

end KeyRouter

/-! ## The router of the settings -/

namespace DedupKeyRouter

/-- The router that `from_redis_repository` builds. -/
def keyRouter (router : DedupKeyRouter) : KeyRouter where
  baseNewSeen := router.filterKey ++ "_new_seen"
  baseSentSeen := router.filterKey ++ "_sent_seen"
  redisMode := if router.clusterMode then "cluster" else "single"
  clusterNodes := router.clusterNodes
  nameSpace := router.nameSpace
  algorithm := router.algorithm

/-- Its base names differ. -/
theorem baseNewSeen_ne (router : DedupKeyRouter) :
    router.keyRouter.baseNewSeen ≠ router.keyRouter.baseSentSeen := by
  intro h
  have hlists := congrArg String.toList h
  simp [keyRouter] at hlists

/-- It is in cluster mode when the settings are. -/
theorem isCluster_keyRouter (router : DedupKeyRouter) :
    router.keyRouter.isCluster = router.isCluster := by
  cases hmode : router.clusterMode <;> simp [keyRouter, KeyRouter.isCluster, isCluster, hmode]

/-- It gives the keys of the duplicate filter, which works for any choice of nodes, for the choice
that `get_node` makes. -/
theorem forFingerprint_keyRouter (md5 : List UInt8 → List UInt8) (router : DedupKeyRouter)
    (fingerprint : RawFingerprint) {choose : List String → RawFingerprint → String}
    (hchoose : ∀ node, getNode md5 router.clusterNodes fingerprint = .ok node →
      choose router.clusterNodes fingerprint = node) :
    router.keyRouter.forFingerprint md5 fingerprint =
      .ok (router.forFingerprint choose fingerprint) := by
  by_cases hcluster : router.isCluster = true
  · have hnodes : router.clusterNodes ≠ [] := by
      rw [isCluster, Bool.and_eq_true] at hcluster
      simpa using hcluster.2
    obtain ⟨node, -, hnode⟩ := exists_getNode md5 hnodes fingerprint
    rw [KeyRouter.forFingerprint, isCluster_keyRouter, if_pos hcluster, forFingerprint,
      if_pos hcluster, hchoose node hnode]
    show (match getNode md5 router.clusterNodes fingerprint with
      | .error e => _
      | .ok node => _) = _
    rw [hnode]
    rfl
  · rw [KeyRouter.forFingerprint, isCluster_keyRouter, if_neg hcluster, forFingerprint,
      if_neg hcluster]
    rfl

end DedupKeyRouter

end ScrapyCffi.Dupefilter
