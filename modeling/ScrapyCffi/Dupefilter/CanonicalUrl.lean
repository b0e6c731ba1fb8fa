import Mathlib.Data.List.Sort
import Mathlib.Data.String.Basic
import ScrapyCffi.Base.Query
import ScrapyCffi.Base.Url.RoundTrip
import ScrapyCffi.Dupefilter.Fingerprint

/-!
# Canonical URLs

`canonical_request_url`, `dupefilter/fingerprint.py:25–31`, of a string: its canonical form is one,
and tells the pairs of the query and nothing of their order.
-/

namespace ScrapyCffi.Dupefilter

open ScrapyCffi.Base ScrapyCffi.Base.Url ScrapyCffi.Requests

variable {φ : Type} [PyFloat φ]

/-- `urllib.parse` on strings, and on other values as given. -/
def urllib (platform : Platform) (others : Urllib φ) : Urllib φ where
  Parsed := ParseResult ⊕ others.Parsed
  urlparse
    | .str url => ((urlparse platform url.toList).mapError .valueError).map .inl
    | value => (others.urlparse value).map .inr
  query
    | .inl p => .str (String.ofList p.query)
    | .inr p => others.query p
  parseQsl
    | .str query => .ok (parseQsl query.toList)
    | value => others.parseQsl value
  urlencode pairs := String.ofList (urlencode pairs)
  replaceQuery
    | .inl p, query => .inl { p with query := query.toList }
    | .inr p, query => .inr (others.replaceQuery p query)
  urlunparse
    | .inl p => .ok (String.ofList (urlunparse platform.emptyNetloc p))
    | .inr p => others.urlunparse p

/-! ## Sorted pairs -/

/-- The order of pairs of strings, as a relation. -/
abbrev PairLe (p q : String × String) : Prop := pairLe p q = true

theorem pairLe_iff {p q : String × String} : PairLe p q ↔ p.1 < q.1 ∨ p.1 = q.1 ∧ p.2 ≤ q.2 := by
  rw [PairLe, pairLe, decide_eq_true_eq]

instance : Std.Total PairLe where
  total p q := by
    rw [pairLe_iff, pairLe_iff]
    rcases lt_trichotomy p.1 q.1 with h | h | h
    · exact .inl (.inl h)
    · exact (le_total p.2 q.2).imp (fun hle ↦ .inr ⟨h, hle⟩) fun hle ↦ .inr ⟨h.symm, hle⟩
    · exact .inr (.inl h)

instance : IsTrans (String × String) PairLe where
  trans p q r hpq hqr := by
    rw [pairLe_iff] at *
    rcases hpq with hpq | ⟨hpq, hle⟩ <;> rcases hqr with hqr | ⟨hqr, hle'⟩
    · exact .inl (hpq.trans hqr)
    · exact .inl (hqr ▸ hpq)
    · exact .inl (hpq ▸ hqr)
    · exact .inr ⟨hpq.trans hqr, hle.trans hle'⟩

instance : Std.Antisymm PairLe where
  antisymm p q hpq hqp := by
    rw [pairLe_iff] at *
    rcases hpq with hpq | ⟨hpq, hle⟩ <;> rcases hqp with hqp | ⟨hqp, hle'⟩
    · exact absurd hpq hqp.asymm
    · exact absurd hpq (hqp ▸ lt_irrefl _)
    · exact absurd hqp (hpq ▸ lt_irrefl _)
    · exact Prod.ext hpq (hle.antisymm hle')

/-- `sorted(pairs)`. -/
def sortPairs (pairs : List (String × String)) : List (String × String) :=
  pairs.insertionSort PairLe

/-- Pairs that are sorted stay as they are. -/
@[simp] theorem sortPairs_sortPairs (pairs : List (String × String)) :
    sortPairs (sortPairs pairs) = sortPairs pairs :=
  (List.pairwise_insertionSort PairLe pairs).insertionSort_eq

/-- Pairs are the same when sorted exactly if they are the same in some order. -/
theorem sortPairs_eq_iff {pairs more : List (String × String)} :
    sortPairs pairs = sortPairs more ↔ pairs.Perm more := by
  constructor
  · intro h
    have hmore := List.perm_insertionSort PairLe more
    exact (List.perm_insertionSort PairLe pairs).symm.trans ((List.Perm.of_eq h).trans hmore)
  · intro h
    apply List.Perm.eq_of_pairwise' (List.pairwise_insertionSort PairLe pairs)
      (List.pairwise_insertionSort PairLe more)
    exact (List.perm_insertionSort PairLe pairs).trans
      (h.trans (List.perm_insertionSort PairLe more).symm)

/-! ## The canonical form -/

variable {platform : Platform} {others : Urllib φ} {p : ParseResult}

/-- The query of the canonical form. -/
def canonicalQuery (query : List Char) : List Char := urlencode (sortPairs (parseQsl query))

/-- The canonical form of a URL that is parsed to `p`. -/
def canonicalForm (platform : Platform) (url : String) (p : ParseResult) : String :=
  if p.query = [] then url
  else String.ofList
    (urlunparse platform.emptyNetloc { p with query := canonicalQuery p.query })

/-- The canonical query is canonical. -/
@[simp] theorem canonicalQuery_canonicalQuery (query : List Char) :
    canonicalQuery (canonicalQuery query) = canonicalQuery query := by
  rw [canonicalQuery, canonicalQuery, parseQsl_urlencode, sortPairs_sortPairs]

/-- Queries with the same pairs have one canonical form. -/
theorem canonicalQuery_eq_iff {query other : List Char} :
    canonicalQuery query = canonicalQuery other ↔ (parseQsl query).Perm (parseQsl other) := by
  rw [← sortPairs_eq_iff]
  exact ⟨urlencode_injective, congrArg urlencode⟩

/-- A canonical query can be the query of a URL. -/
theorem isQuery_canonicalQuery (query : List Char) : IsQuery (canonicalQuery query) := by
  intro c hc
  rcases mem_urlencode hc with hquoted | rfl | rfl
  · constructor
    · rintro rfl
      exact absurd hquoted (by decide)
    · rw [Bool.eq_false_iff]
      intro hremoved
      simp only [isRemoved, Bool.or_eq_true, beq_iff_eq] at hremoved
      rcases hremoved with (rfl | rfl) | rfl <;> exact absurd hquoted (by decide)
  · decide
  · decide

omit [PyFloat φ] in
/-- `urlparse` of a string. -/
theorem urllib_urlparse (url : String) : (urllib platform others).urlparse (.str url) =
    ((urlparse platform url.toList).mapError PyError.valueError).map .inl := by
  simp only [urllib]

/-- The query of a URL is true where it is not empty. -/
theorem truthy_query (p : ParseResult) :
    ((urllib platform others).query (.inl p)).truthy = decide (p.query ≠ []) := by
  show decide (String.ofList p.query ≠ "") = decide (p.query ≠ [])
  simp

/-- The canonical form of a string that is a URL; another string is refused. -/
theorem canonicalRequestUrl_str (platform : Platform) (others : Urllib φ) (url : String) :
    canonicalRequestUrl (urllib platform others) (.str url) =
      ((urlparse platform url.toList).mapError PyError.valueError).map
        fun p ↦ .str (canonicalForm platform url p) := by
  rw [canonicalRequestUrl, urllib_urlparse]
  cases urlparse platform url.toList with
  | error message => rfl
  | ok p =>
    show (if ((urllib platform others).query (.inl p)).truthy = false then
      (pure (.str url) : Except PyError (Value φ)) else _) =
        .ok (.str (canonicalForm platform url p))
    rw [truthy_query, canonicalForm]
    by_cases hquery : p.query = []
    · rw [if_pos (decide_eq_false (not_not_intro hquery)), if_pos hquery]
      rfl
    · have htrue : decide (p.query ≠ []) ≠ false := by simp [hquery]
      rw [if_neg htrue, if_neg hquery]
      show Except.ok (Value.str (String.ofList (urlunparse platform.emptyNetloc { p with
        query := (String.ofList (canonicalQuery (String.ofList p.query).toList)).toList }))) = _
      rw [String.toList_ofList, String.toList_ofList]

/-! ## Normal form -/

/-- A URL with these pieces of a query between separators. -/
def urlOfPieces (front : List Char) (pieces : List (List Char)) (fragment : List Char) : String :=
  String.ofList (front ++ '?' :: ['&'].intercalate pieces ++ fragment)

/-- What is kept of joined pieces is what is kept of each. -/
theorem filter_intercalate (pieces : List (List Char)) :
    (['&'].intercalate pieces).filter (fun c ↦ !isRemoved c) =
      ['&'].intercalate (pieces.map fun piece ↦ piece.filter fun c ↦ !isRemoved c) := by
  induction pieces with
  | nil => rfl
  | cons piece rest ih =>
    cases rest with
    | nil => simp only [List.map_cons, List.map_nil, List.intercalate_singleton]
    | cons next rest =>
      rw [List.intercalate_cons_cons, List.filter_append, List.filter_append, ih]
      simp only [List.map_cons, List.intercalate_cons_cons]
      rfl

/-- Where nothing separates pieces there is no other order of them. -/
theorem eq_of_perm {pieces permuted : List (List Char)} (hperm : pieces.Perm permuted)
    (hnone : '&' ∉ ['&'].intercalate pieces) : permuted = pieces := by
  match pieces with
  | [] => exact hperm.nil_eq.symm
  | [piece] => exact List.perm_singleton.mp hperm.symm
  | piece :: next :: rest =>
    rw [List.intercalate_cons_cons] at hnone
    simp at hnone

/-- The pieces of a query may stand in any order. -/
theorem canonicalRequestUrl_perm {front fragment : List Char} {pieces permuted : List (List Char)}
    (hfront : ∀ c ∈ front, c ≠ '?' ∧ c ≠ '#') (hfragment : ∀ d ∈ fragment.head?, d = '#')
    (hpieces : ∀ piece ∈ pieces, '#' ∉ piece) (hperm : pieces.Perm permuted) :
    canonicalRequestUrl (urllib platform others) (.str (urlOfPieces front permuted fragment)) =
      canonicalRequestUrl (urllib platform others) (.str (urlOfPieces front pieces fragment)) := by
  obtain ⟨outcome, houtcome⟩ := urlparse_query platform hfront hfragment
  have hsharp {some : List (List Char)} (hsome : ∀ piece ∈ some, '#' ∉ piece) :
      '#' ∉ ['&'].intercalate some := by
    intro hmem
    rcases mem_intercalate hmem with h | ⟨piece, hpiece, h⟩
    · cases h
    · exact hsome piece hpiece h
  by_cases hsame : permuted = pieces
  · rw [hsame]
  · -- With two pieces or more there is a separator, which is kept.
    have hkept {some : List (List Char)} (hmem : '&' ∈ ['&'].intercalate some) :
        (['&'].intercalate some).filter (fun c ↦ !isRemoved c) ≠ [] :=
      List.ne_nil_of_mem (List.mem_filter.mpr ⟨hmem, rfl⟩)
    have hquery := hkept (Decidable.not_not.mp fun h ↦ hsame (eq_of_perm hperm h))
    have hquery' := hkept
      (Decidable.not_not.mp fun h ↦ hsame (eq_of_perm hperm.symm h).symm)
    have hpairs : canonicalQuery ((['&'].intercalate permuted).filter fun c ↦ !isRemoved c) =
        canonicalQuery ((['&'].intercalate pieces).filter fun c ↦ !isRemoved c) := by
      rw [canonicalQuery_eq_iff, filter_intercalate, filter_intercalate, parseQsl_intercalate,
        parseQsl_intercalate]
      exact (hperm.symm.map _).flatMap_right parseQsl
    rw [canonicalRequestUrl_str, canonicalRequestUrl_str, urlOfPieces, urlOfPieces,
      String.toList_ofList, String.toList_ofList, houtcome _ (hsharp hpieces),
      houtcome _ (hsharp fun piece hpiece ↦ hpieces piece (hperm.mem_iff.mpr hpiece))]
    cases outcome with
    | error message => rfl
    | ok p =>
      show Except.ok (Value.str (canonicalForm platform _ { p with query := _ })) =
        Except.ok (Value.str (canonicalForm platform _ { p with query := _ }))
      rw [canonicalForm, if_neg hquery', canonicalForm, if_neg hquery, hpairs]

/-- The canonical form of a URL is its own canonical form. -/
theorem canonicalRequestUrl_idempotent {url : String} (h : urlparse platform url.toList = .ok p) :
    ∃ form, canonicalRequestUrl (urllib platform others) (.str url) = .ok (.str form) ∧
      canonicalRequestUrl (urllib platform others) (.str form) = .ok (.str form) := by
  have hform := canonicalRequestUrl_str platform others url
  rw [h] at hform
  refine ⟨canonicalForm platform url p, hform, ?_⟩
  by_cases hquery : p.query = []
  · have hsame : canonicalForm platform url p = url := if_pos hquery
    rw [hsame, hform]
    show Except.ok (Value.str (canonicalForm platform url p)) = Except.ok (Value.str url)
    rw [hsame]
  · obtain ⟨hparsed, -⟩ := isParsed_of_urlparse h
    obtain ⟨path, hparse, hunparse⟩ := hparsed.urlparse_urlunparse platform.emptyNetloc
      (isQuery_canonicalQuery p.query)
    rw [canonicalRequestUrl_str, canonicalForm, if_neg hquery, String.toList_ofList, hparse]
    show Except.ok (Value.str (canonicalForm platform _
      { p with path, query := canonicalQuery p.query })) = _
    rw [canonicalForm, canonicalQuery_canonicalQuery, hunparse, ite_self]

/-- URLs that differ in the query only have one canonical form exactly if the queries have the same
pairs. -/
theorem canonicalRequestUrl_eq_iff {url other : String} {query : List Char}
    (h : urlparse platform url.toList = .ok p)
    (hother : urlparse platform other.toList = .ok { p with query }) (hquery : p.query ≠ [])
    (hquery' : query ≠ []) :
    canonicalRequestUrl (urllib platform others) (.str url) =
        canonicalRequestUrl (urllib platform others) (.str other) ↔
      (parseQsl p.query).Perm (parseQsl query) := by
  rw [canonicalRequestUrl_str, canonicalRequestUrl_str, h, hother, ← canonicalQuery_eq_iff]
  show Except.ok (Value.str (canonicalForm platform url p)) =
    Except.ok (Value.str (canonicalForm platform other { p with query })) ↔ _
  rw [canonicalForm, if_neg hquery, canonicalForm, if_neg hquery', Except.ok.injEq, Value.str.injEq, String.ofList_inj]
  constructor
  · exact query_of_urlunparse
  · intro hpairs
    rw [hpairs]

/-- `canonical` is a normal form of URLs: it is idempotent, does not depend on the order of the
pieces of a query, and tells two queries apart exactly if they have other pairs. -/
structure NormalForm (platform : Platform) (canonical : Value φ → Except PyError (Value φ)) :
    Prop where
  idempotent : ∀ (url : String) p, urlparse platform url.toList = .ok p →
    ∃ form, canonical (.str url) = .ok (.str form) ∧ canonical (.str form) = .ok (.str form)
  permuted : ∀ front pieces permuted fragment, (∀ c ∈ front, c ≠ '?' ∧ c ≠ '#') →
    (∀ d ∈ fragment.head?, d = '#') → (∀ piece ∈ pieces, '#' ∉ piece) → pieces.Perm permuted →
    canonical (.str (urlOfPieces front permuted fragment)) =
      canonical (.str (urlOfPieces front pieces fragment))
  pairs : ∀ (url other : String) p query, urlparse platform url.toList = .ok p →
    urlparse platform other.toList = .ok { p with query } → p.query ≠ [] → query ≠ [] →
    (canonical (.str url) = canonical (.str other) ↔ (parseQsl p.query).Perm (parseQsl query))

/-- The canonical URL is a normal form. -/
theorem canonicalRequestUrl_normalForm (platform : Platform) (others : Urllib φ) :
    NormalForm platform (canonicalRequestUrl (urllib platform others)) where
  idempotent _ _ h := canonicalRequestUrl_idempotent h
  permuted _ _ _ _ hfront hfragment hpieces hperm :=
    canonicalRequestUrl_perm hfront hfragment hpieces hperm
  pairs _ _ _ _ h hother hquery hquery' := canonicalRequestUrl_eq_iff h hother hquery hquery'

example : canonicalForm ⟨id, fun _ ↦ .ok false, .always⟩ "http://x/a?b=2&a=1"
    ⟨['h', 't', 't', 'p'], ['x'], ['/', 'a'], [], ['b', '=', '2', '&', 'a', '=', '1'], []⟩ =
      "http://x/a?a=1&b=2" := by
  decide

end ScrapyCffi.Dupefilter
