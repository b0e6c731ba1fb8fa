import ScrapyCffi.Base.Url

/-!
# What is unparsed is parsed

The parts of a parsed URL are read back from what `urlunparse` makes of them, with another query or
without one. `urlunparse` may make the path absolute; it does so once.
-/

namespace ScrapyCffi.Base.Url

variable {rule : EmptyNetloc} {platform : Platform} {c : Char} {scheme netloc url text : List Char}

/-! ## Cuts and marks -/

theorem eq_of_mem_head_cons {rest : List Char} : ∀ d ∈ (c :: rest).head?, d = c :=
  fun _ hd ↦ (Option.some.inj hd).symm

/-- A part is cut off at the character in front of it. -/
theorem cut_append {rest : List Char} (h : c ∉ text) (hrest : ∀ d ∈ rest.head?, d = c) :
    cut c (text ++ rest) = (text, rest.tail) := by
  have hkeep : ∀ d ∈ text, decide (d ≠ c) = true := by
    intro d hd
    apply decide_eq_true
    rintro rfl
    exact h hd
  rw [cut, List.takeWhile_append_of_pos hkeep, List.dropWhile_append_of_pos hkeep]
  cases rest with
  | nil => simp
  | cons d rest =>
    obtain rfl := hrest d rfl
    simp

/-- A marked part begins with its mark. -/
theorem head_mark {part : List Char} : ∀ d ∈ (mark c part).head?, d = c := by
  intro d hd
  rw [mark] at hd
  split at hd
  · cases hd
  · exact (Option.some.inj hd).symm

@[simp] theorem tail_mark (part : List Char) : (mark c part).tail = part := by
  rw [mark]
  split
  · next h => exact h.symm
  · rfl

/-- A part is told by its marked form. -/
theorem mark_injective {part other : List Char} (h : mark c part = mark c other) : part = other := by
  rw [← tail_mark (c := c) part, h, tail_mark]

/-- What is in a marked part. -/
theorem mem_mark {d : Char} {part : List Char} (h : d ∈ mark c part) : d = c ∨ d ∈ part := by
  rw [mark] at h
  split at h
  · cases h
  · exact List.mem_cons.mp h

/-- A text ends in front of the first mark, or goes on with it. -/
theorem exists_cut (c : Char) (text : List Char) :
    ∃ front rest, text = front ++ rest ∧ c ∉ front ∧ ∀ d ∈ rest.head?, d = c := by
  refine ⟨text.takeWhile (· ≠ c), text.dropWhile (· ≠ c), List.takeWhile_append_dropWhile.symm,
    fun h ↦ ?_, fun d hd ↦ ?_⟩
  · have hne := List.mem_takeWhile_imp h
    simp at hne
  · have hstop := List.head?_dropWhile_not (fun d ↦ decide (d ≠ c)) text
    rw [Option.mem_def.mp hd] at hstop
    simpa using hstop

/-! ## Schemes -/

/-- A character of a scheme is one of ASCII. -/
theorem toNat_lt_of_schemeChar (h : schemeChar c = true) : c.toNat < 128 := by
  rw [schemeChar, Bool.or_eq_true, Bool.or_eq_true, Bool.or_eq_true, beq_iff_eq, beq_iff_eq,
    beq_iff_eq] at h
  rcases h with ((halphanum | rfl) | rfl) | rfl
  · have hcases : ((decide (c.val ≥ 65 ∧ c.val ≤ 90) || (c.val ≥ 97 && c.val ≤ 122)) ||
        (c.val ≥ 48 && c.val ≤ 57)) = true := halphanum
    simp only [Bool.or_eq_true, Bool.and_eq_true, decide_eq_true_eq, ge_iff_le,
      UInt32.le_iff_toNat_le, UInt32.reduceToNat] at hcases
    show c.val.toNat < 128
    omega
  · decide
  · decide
  · decide

/-- What holds of the characters of schemes in ASCII holds of every one. -/
theorem forall_schemeChar (P : Char → Prop)
    (hascii : ∀ n < 128, schemeChar (Char.ofNat n) = true → P (Char.ofNat n))
    (h : schemeChar c = true) : P c := by
  have hchar := hascii c.toNat (toNat_lt_of_schemeChar h)
  rw [Char.ofNat_toNat] at hchar
  exact hchar h

/-- A character of a scheme has no meaning of its own in a URL. -/
theorem plain_of_schemeChar : schemeChar c = true → c ≠ ':' ∧ isDelimiter c = false ∧
    isStripped c = false ∧ isRemoved c = false :=
  forall_schemeChar (fun c ↦ c ≠ ':' ∧ isDelimiter c = false ∧ isStripped c = false ∧
    isRemoved c = false) (by decide)

/-- A character of a scheme in lower case. -/
theorem toLower_of_schemeChar : schemeChar c = true → schemeChar c.toLower = true ∧
    c.toLower.toLower = c.toLower ∧ (c.isAlpha = true → c.toLower.isAlpha = true) :=
  forall_schemeChar (fun c ↦ schemeChar c.toLower = true ∧ c.toLower.toLower = c.toLower ∧
    (c.isAlpha = true → c.toLower.isAlpha = true)) (by decide)

/-- A scheme as `urlsplit` returns it. -/
structure IsScheme (scheme : List Char) : Prop where
  head : scheme.head?.any Char.isAlpha = true
  chars : ∀ c ∈ scheme, schemeChar c = true
  lower : scheme.map Char.toLower = scheme

/-- A scheme is not empty. -/
theorem IsScheme.ne_nil (h : IsScheme scheme) : scheme ≠ [] := by
  rintro rfl
  exact absurd h.head (by decide)

/-- A scheme has no colon. -/
theorem IsScheme.colon_notMem (h : IsScheme scheme) : ':' ∉ scheme :=
  fun hmem ↦ (plain_of_schemeChar (h.chars _ hmem)).1 rfl

/-- A scheme is read back. -/
theorem splitScheme_colon (h : IsScheme scheme) (rest : List Char) :
    splitScheme (scheme ++ ':' :: rest) = (scheme, rest) := by
  have hcut : cut ':' (scheme ++ ':' :: rest) = (scheme, rest) :=
    cut_append h.colon_notMem eq_of_mem_head_cons
  have htake : (scheme ++ ':' :: rest).takeWhile (· ≠ ':') = scheme := congrArg Prod.fst hcut
  have hhas : hasScheme (scheme ++ ':' :: rest) = true := by
    rw [hasScheme, htake, List.head?_append_of_ne_nil _ h.ne_nil, h.head,
      List.all_eq_true.mpr h.chars]
    simp
  rw [splitScheme, if_pos hhas, hcut, h.lower]

/-- What `splitScheme` finds: a scheme, perhaps in capitals, or none. -/
theorem splitScheme_cases (url : List Char) :
    (∃ name, url = name ++ ':' :: (splitScheme url).2 ∧ IsScheme (splitScheme url).1) ∨
      hasScheme url = false ∧ splitScheme url = ([], url) := by
  cases hhas : hasScheme url with
  | false =>
    right
    rw [splitScheme, hhas]
    exact ⟨rfl, rfl⟩
  | true =>
    left
    rw [splitScheme, if_pos hhas]
    simp only [hasScheme, Bool.and_eq_true, List.contains_iff_mem] at hhas
    obtain ⟨⟨hcolon, hhead⟩, hchars⟩ := hhas
    obtain ⟨name, rest, rfl, hname⟩ := List.eq_append_cons_of_mem hcolon
    have hcut : cut ':' (name ++ ':' :: rest) = (name, rest) :=
      cut_append hname eq_of_mem_head_cons
    have htake : (name ++ ':' :: rest).takeWhile (· ≠ ':') = name := congrArg Prod.fst hcut
    rw [htake, List.all_eq_true] at hchars
    rw [hcut]
    refine ⟨name, rfl, ?_, ?_, ?_⟩
    · cases name with
      | nil => exact absurd hhead Bool.false_ne_true
      | cons first more =>
        exact (toLower_of_schemeChar (hchars first List.mem_cons_self)).2.2 hhead
    · intro c hc
      obtain ⟨d, hd, rfl⟩ := List.mem_map.mp hc
      exact (toLower_of_schemeChar (hchars d hd)).1
    · rw [List.map_map]
      apply List.map_congr_left
      intro c hc
      exact (toLower_of_schemeChar (hchars c hc)).2.1

/-- What begins with neither a character of a scheme nor a colon makes and hides no scheme. -/
theorem hasScheme_append {tail : List Char}
    (htail : ∀ d ∈ tail.head?, d ≠ ':' ∧ schemeChar d = false) :
    hasScheme (url ++ tail) = hasScheme url := by
  by_cases hcolon : ':' ∈ url
  · obtain ⟨name, rest, rfl, hname⟩ := List.eq_append_cons_of_mem hcolon
    have htake (more : List Char) : (name ++ ':' :: more).takeWhile (· ≠ ':') = name := by
      have hcut : cut ':' (name ++ ':' :: more) = (name, more) :=
        cut_append hname eq_of_mem_head_cons
      exact congrArg Prod.fst hcut
    rw [List.append_assoc, List.cons_append, hasScheme, hasScheme, htake, htake]
    cases name <;> simp
  · have hnone : hasScheme url = false := by simp [hasScheme, hcolon]
    rw [hnone, Bool.eq_false_iff]
    intro hhas
    simp only [hasScheme, Bool.and_eq_true, List.contains_iff_mem, List.all_eq_true] at hhas
    obtain ⟨⟨hmem, -⟩, hchars⟩ := hhas
    cases tail with
    | nil =>
      rw [List.append_nil] at hmem
      exact hcolon hmem
    | cons d more =>
      obtain ⟨hd, hscheme⟩ := htail d rfl
      have htaken : d ∈ (url ++ d :: more).takeWhile (· ≠ ':') := by
        rw [List.takeWhile_append_of_pos]
        · simp [hd]
        · intro c hc
          apply decide_eq_true
          rintro rfl
          exact hcolon hc
      rw [hchars d htaken] at hscheme
      cases hscheme

/-! ## What stands behind a path -/

/-- A query or a fragment with its mark, or nothing. -/
def IsTail (tail : List Char) : Prop := ∀ d ∈ tail.head?, d = '?' ∨ d = '#'

/-- A query and a fragment, each with its mark if there is one. -/
theorem isTail_append {query fragment : List Char} (hquery : ∀ d ∈ query.head?, d = '?')
    (hfragment : ∀ d ∈ fragment.head?, d = '#') : IsTail (query ++ fragment) := by
  cases query with
  | nil => exact fun d hd ↦ .inr (hfragment d hd)
  | cons c rest => exact fun d hd ↦ .inl (hquery d hd)

/-- A span ends in front of what does not belong to it. -/
theorem span_append {p : Char → Bool} {tail : List Char} (htail : ∀ d ∈ tail.head?, p d = false)
    (text : List Char) : (text ++ tail).takeWhile p = text.takeWhile p ∧
      (text ++ tail).dropWhile p = text.dropWhile p ++ tail := by
  induction text with
  | nil =>
    cases tail with
    | nil => exact ⟨rfl, rfl⟩
    | cons d rest => simp [htail d rfl]
  | cons c rest ih =>
    cases hc : p c with
    | false => simp [hc]
    | true => simp [hc, ih.1, ih.2]

/-- The scheme is found in front of the query. -/
theorem splitScheme_append {tail : List Char} (htail : IsTail tail) (url : List Char) :
    splitScheme (url ++ tail) = ((splitScheme url).1, (splitScheme url).2 ++ tail) := by
  have hstart : ∀ d ∈ tail.head?, d ≠ ':' ∧ schemeChar d = false := by
    intro d hd
    rcases htail d hd with rfl | rfl <;> decide
  rw [splitScheme, splitScheme, hasScheme_append hstart]
  split
  · next hhas =>
    have hcolon : ':' ∈ url := by
      simp only [hasScheme, Bool.and_eq_true, List.contains_iff_mem] at hhas
      exact hhas.1.1
    obtain ⟨name, rest, rfl, hname⟩ := List.eq_append_cons_of_mem hcolon
    have hcut (more : List Char) : cut ':' (name ++ ':' :: more) = (name, more) :=
      cut_append hname eq_of_mem_head_cons
    rw [List.append_assoc, List.cons_append, hcut, hcut]
  · rfl

/-- Two slashes at the beginning are found in front of the query. -/
theorem slashes_append {tail : List Char} (htail : IsTail tail) (url : List Char) :
    ['/', '/'] <+: url ++ tail ↔ ['/', '/'] <+: url := by
  match url with
  | [] =>
    cases tail with
    | nil => simp
    | cons d rest =>
      have hd : '/' ≠ d := by
        rintro rfl
        rcases htail '/' rfl with h | h <;> cases h
      simp [hd]
  | [c] =>
    cases tail with
    | nil => simp
    | cons d rest =>
      have hd : '/' ≠ d := by
        rintro rfl
        rcases htail '/' rfl with h | h <;> cases h
      simp [hd]
  | c :: d :: rest => simp

/-- The network location is found in front of the query. -/
theorem splitNetloc_append {tail : List Char} (htail : IsTail tail) (url : List Char) :
    splitNetloc (url ++ tail) = ((splitNetloc url).1, (splitNetloc url).2 ++ tail) := by
  rw [splitNetloc, splitNetloc]
  by_cases hslashes : ['/', '/'] <+: url
  · rw [if_pos ((slashes_append htail url).mpr hslashes), if_pos hslashes]
    obtain ⟨rest, rfl⟩ := hslashes
    have hstop : ∀ d ∈ tail.head?, (!isDelimiter d) = false := by
      intro d hd
      rcases htail d hd with rfl | rfl <;> rfl
    have hspan := span_append hstop rest
    show ((rest ++ tail).takeWhile _, (rest ++ tail).dropWhile _) = _
    rw [hspan.1, hspan.2]
    rfl
  · rw [if_neg fun h ↦ hslashes ((slashes_append htail url).mp h), if_neg hslashes]

/-- What `splitNetloc` finds. -/
theorem splitNetloc_cases (url : List Char) :
    url = '/' :: '/' :: ((splitNetloc url).1 ++ (splitNetloc url).2) ∧
        (∀ d ∈ (splitNetloc url).1, isDelimiter d = false) ∧
        (∀ d ∈ (splitNetloc url).2.head?, isDelimiter d = true) ∨
      ¬ ['/', '/'] <+: url ∧ splitNetloc url = ([], url) := by
  by_cases hslashes : ['/', '/'] <+: url
  · left
    rw [splitNetloc, if_pos hslashes]
    obtain ⟨rest, rfl⟩ := hslashes
    refine ⟨?_, fun d hd ↦ ?_, fun d hd ↦ ?_⟩
    · show '/' :: '/' :: rest = '/' :: '/' :: (rest.takeWhile _ ++ rest.dropWhile _)
      rw [List.takeWhile_append_dropWhile]
    · simpa using List.mem_takeWhile_imp hd
    · have hstop := List.head?_dropWhile_not (fun d ↦ !isDelimiter d) rest
      have hd : (rest.dropWhile fun d ↦ !isDelimiter d).head? = some d := hd
      rw [hd] at hstop
      simpa using hstop
  · right
    rw [splitNetloc, if_neg hslashes]
    exact ⟨hslashes, rfl⟩

/-- The rest behind a scheme is part of the URL. -/
theorem mem_splitScheme (h : c ∈ (splitScheme url).2) : c ∈ url := by
  rcases splitScheme_cases url with ⟨name, hurl, -⟩ | ⟨-, hsplit⟩
  · rw [hurl]
    exact List.mem_append_right name (.tail ':' h)
  · rwa [hsplit] at h

/-- A network location and the rest behind it are parts of the URL. -/
theorem mem_splitNetloc (h : c ∈ (splitNetloc url).1 ∨ c ∈ (splitNetloc url).2) : c ∈ url := by
  rcases splitNetloc_cases url with ⟨hurl, -⟩ | ⟨-, hsplit⟩
  · rw [hurl]
    exact .tail '/' (.tail '/' (List.mem_append.mpr h))
  · rw [hsplit] at h
    exact h.resolve_left List.not_mem_nil

/-- `urlsplit` of a URL in front of the query, the query and the fragment. -/
theorem urlsplit_eq (platform : Platform) {front query fragment : List Char}
    (hclean : clean text = front ++ (query ++ fragment)) (hfront : ∀ c ∈ front, c ≠ '?' ∧ c ≠ '#')
    (hquery : ∀ d ∈ query.head?, d = '?') (hsharp : '#' ∉ query)
    (hfragment : ∀ d ∈ fragment.head?, d = '#') :
    urlsplit platform text = (checkNetloc platform (splitNetloc (splitScheme front).2).1).map
      fun _ ↦ {
        scheme := (splitScheme front).1
        netloc := (splitNetloc (splitScheme front).2).1
        path := (splitNetloc (splitScheme front).2).2
        params := []
        query := query.tail
        fragment := fragment.tail } := by
  have htail := isTail_append hquery hfragment
  have hpath : ∀ c ∈ (splitNetloc (splitScheme front).2).2, c ≠ '?' ∧ c ≠ '#' :=
    fun c hc ↦ hfront c (mem_splitScheme (mem_splitNetloc (.inr hc)))
  have hsharps : '#' ∉ (splitNetloc (splitScheme front).2).2 ++ query := by
    rw [List.mem_append, not_or]
    exact ⟨fun h ↦ (hpath _ h).2 rfl, hsharp⟩
  rw [urlsplit, hclean]
  simp only [splitScheme_append htail, splitNetloc_append htail]
  rw [← List.append_assoc, cut_append hsharps hfragment]
  simp only [cut_append (fun h ↦ (hpath _ h).1 rfl) hquery]
  cases checkNetloc platform (splitNetloc (splitScheme front).2).1 <;> rfl

/-! ## Cleaning -/

/-- What a cleaned URL is made of. -/
theorem mem_clean (h : c ∈ clean text) : isRemoved c = false := by
  simpa using (List.mem_filter.mp h).2

/-- A cleaned URL begins with no control character and no space. -/
theorem head_clean (text : List Char) : ∀ d ∈ (clean text).head?, isStripped d = false := by
  intro d hd
  have hstop := List.head?_dropWhile_not isStripped text
  rw [clean] at hd
  cases hrest : text.dropWhile isStripped with
  | nil =>
    rw [hrest] at hd
    cases hd
  | cons first rest =>
    rw [hrest] at hd hstop
    have hfirst : isStripped first = false := by simpa using hstop
    have hkept : (!isRemoved first) = true := by
      rw [Bool.not_eq_true', Bool.eq_false_iff]
      intro hremoved
      simp only [isRemoved, Bool.or_eq_true, beq_iff_eq] at hremoved
      rcases hremoved with (rfl | rfl) | rfl <;> exact absurd hfirst (by decide)
    rw [List.filter_cons, if_pos hkept] at hd
    exact Option.some.inj hd ▸ hfirst

/-- Nothing is to be cleaned. -/
theorem clean_eq_self (hchars : ∀ c ∈ text, isRemoved c = false)
    (hhead : ∀ d ∈ text.head?, isStripped d = false) : clean text = text := by
  have hdrop : text.dropWhile isStripped = text := by
    cases text with
    | nil => rfl
    | cons c rest => rw [List.dropWhile_cons_of_neg (by rw [hhead c rfl]; exact Bool.false_ne_true)]
  rw [clean, hdrop, List.filter_eq_self]
  intro c hc
  rw [hchars c hc]
  rfl

/-! ## The front of a URL -/

/-- A scheme, a network location and a path with its parameters as `urlsplit` returns them. -/
structure IsFront (scheme netloc url : List Char) : Prop where
  named : scheme = [] ∨ IsScheme scheme
  located : ∀ c ∈ netloc, isDelimiter c = false ∧ isRemoved c = false
  plain : ∀ c ∈ url, c ≠ '?' ∧ c ≠ '#' ∧ isRemoved c = false
  rooted : netloc ≠ [] → ∀ c ∈ url.head?, c = '/'
  bare : scheme = [] → netloc = [] → hasScheme url = false ∧ ∀ c ∈ url.head?, isStripped c = false

/-- A slash begins no scheme and is not stripped. -/
theorem bare_slash (hslash : ∀ c ∈ url.head?, c = '/') :
    hasScheme url = false ∧ ∀ c ∈ url.head?, isStripped c = false := by
  constructor
  · cases url with
    | nil => rfl
    | cons c rest =>
      obtain rfl := hslash c rfl
      show (_ && false && _) = false
      rw [Bool.and_false, Bool.false_and]
  · intro c hc
    obtain rfl := hslash c hc
    rfl

/-- What is split off a cleaned URL. -/
theorem isFront_split (hchars : ∀ c ∈ text, c ≠ '?' ∧ c ≠ '#' ∧ isRemoved c = false)
    (hhead : ∀ c ∈ text.head?, isStripped c = false) :
    IsFront (splitScheme text).1 (splitNetloc (splitScheme text).2).1
      (splitNetloc (splitScheme text).2).2 := by
  have hrest : ∀ c ∈ (splitScheme text).2, c ≠ '?' ∧ c ≠ '#' ∧ isRemoved c = false :=
    fun c hc ↦ hchars c (mem_splitScheme hc)
  have hpath : ∀ c ∈ (splitNetloc (splitScheme text).2).2,
      c ≠ '?' ∧ c ≠ '#' ∧ isRemoved c = false :=
    fun c hc ↦ hrest c (mem_splitNetloc (.inr hc))
  have hscheme : (splitScheme text).1 = [] ∧ (splitScheme text).2 = text ∧ hasScheme text = false ∨
      IsScheme (splitScheme text).1 := by
    rcases splitScheme_cases text with ⟨name, -, hscheme⟩ | ⟨hnone, hsplit⟩
    · exact .inr hscheme
    · rw [hsplit]
      exact .inl ⟨rfl, rfl, hnone⟩
  have hnetloc : (∀ c ∈ (splitNetloc (splitScheme text).2).1, isDelimiter c = false) ∧
      ((∀ c ∈ (splitNetloc (splitScheme text).2).2.head?, c = '/') ∨
        splitNetloc (splitScheme text).2 = ([], (splitScheme text).2)) := by
    rcases splitNetloc_cases (splitScheme text).2 with ⟨-, hnetloc, hdelimiter⟩ | ⟨-, hsplit⟩
    · refine ⟨hnetloc, .inl fun c hc ↦ ?_⟩
      have hplain := hpath c (List.mem_of_mem_head? hc)
      simpa [isDelimiter, hplain.1, hplain.2.1] using hdelimiter c hc
    · rw [hsplit]
      exact ⟨fun c hc ↦ absurd hc List.not_mem_nil, .inr rfl⟩
  constructor
  · exact hscheme.imp_left And.left
  · exact fun c hc ↦ ⟨hnetloc.1 c hc, (hrest c (mem_splitNetloc (.inl hc))).2.2⟩
  · exact hpath
  · intro hne
    rcases hnetloc.2 with hslash | hsplit
    · exact hslash
    · rw [hsplit] at hne
      exact absurd rfl hne
  · intro hempty _
    rcases hnetloc.2 with hslash | hsplit
    · exact bare_slash hslash
    · rcases hscheme with ⟨-, hall, hnone⟩ | hscheme
      · rw [hsplit, hall]
        exact ⟨hnone, hhead⟩
      · exact absurd hempty hscheme.ne_nil

/-- A semicolon at the end of the path is left out. -/
theorem IsFront.dropLast {url : List Char} (h : IsFront scheme netloc (url ++ [';'])) :
    IsFront scheme netloc url := by
  have hhead : ∀ c ∈ url.head?, c ∈ (url ++ [';']).head? := by
    intro c hc
    cases url with
    | nil => cases hc
    | cons d rest => exact hc
  refine ⟨h.named, h.located, fun c hc ↦ h.plain c (List.mem_append_left _ hc),
    fun hne c hc ↦ h.rooted hne c (hhead c hc), fun hscheme hnetloc ↦ ?_⟩
  obtain ⟨hnone, hstripped⟩ := h.bare hscheme hnetloc
  have hstart : ∀ d ∈ [';'].head?, d ≠ ':' ∧ schemeChar d = false := by
    intro d hd
    obtain rfl := eq_of_mem_head_cons d hd
    decide
  rw [hasScheme_append hstart] at hnone
  exact ⟨hnone, fun c hc ↦ hstripped c (hhead c hc)⟩

/-! ## Unsplitting -/

/-- The path that is read back. -/
def settle (rule : EmptyNetloc) (scheme netloc url : List Char) : List Char :=
  if hasNetloc rule scheme netloc url then slash url else url

/-- A path made absolute begins with a slash, if with anything. -/
theorem head_slash : ∀ c ∈ (slash url).head?, c = '/' := by
  intro c hc
  rw [slash] at hc
  split at hc
  · exact (Option.some.inj hc).symm
  · next h =>
    rw [not_and, not_not] at h
    cases url with
    | nil => cases hc
    | cons d rest =>
      rw [h (List.cons_ne_nil d rest)] at hc
      exact (Option.some.inj hc).symm

/-- What is in a path made absolute. -/
theorem mem_slash (h : c ∈ slash url) : c = '/' ∨ c ∈ url := by
  rw [slash] at h
  split at h
  · exact List.mem_cons.mp h
  · exact .inr h

/-- The scheme is read back. -/
theorem IsFront.splitScheme_unsplitFront (h : IsFront scheme netloc url) :
    splitScheme (unsplitFront rule scheme netloc url) =
      (scheme, unsplitNetloc rule scheme netloc url) := by
  rw [unsplitFront]
  split
  · next hempty =>
    have hnone : hasScheme (unsplitNetloc rule scheme netloc url) = false := by
      rw [unsplitNetloc]
      split
      · exact (bare_slash eq_of_mem_head_cons).1
      · next hnot =>
        rw [hasNetloc, not_or, not_not] at hnot
        exact (h.bare hempty hnot.1).1
    rw [splitScheme, hnone, hempty]
    rfl
  · next hne => exact splitScheme_colon (h.named.resolve_left hne) _

/-- The network location is read back. -/
theorem IsFront.splitNetloc_unsplitNetloc (h : IsFront scheme netloc url) :
    splitNetloc (unsplitNetloc rule scheme netloc url) = (netloc, settle rule scheme netloc url) := by
  rw [unsplitNetloc, settle]
  split
  · have hstop : ∀ d ∈ (slash url).head?, (!isDelimiter d) = false := by
      intro d hd
      rw [head_slash d hd]
      rfl
    have hall : ∀ d ∈ netloc, (!isDelimiter d) = true := by
      intro d hd
      rw [(h.located d hd).1]
      rfl
    have hspan := span_append hstop netloc
    have hslashes : ['/', '/'] <+: '/' :: '/' :: (netloc ++ slash url) :=
      List.prefix_append ['/', '/'] (netloc ++ slash url)
    rw [splitNetloc, if_pos hslashes]
    show ((netloc ++ slash url).takeWhile _, (netloc ++ slash url).dropWhile _) = _
    rw [hspan.1, hspan.2, List.takeWhile_eq_self_iff.mpr hall, List.dropWhile_eq_nil_iff.mpr hall]
    rfl
  · next hnot =>
    rw [hasNetloc, not_or, not_or, not_not] at hnot
    rw [splitNetloc, if_neg hnot.2.1, hnot.1]

/-- The characters of what is unsplit. -/
theorem IsFront.mem_unsplitFront (h : IsFront scheme netloc url)
    (hc : c ∈ unsplitFront rule scheme netloc url) : c ≠ '?' ∧ c ≠ '#' ∧ isRemoved c = false := by
  have hnetloc : ∀ d ∈ unsplitNetloc rule scheme netloc url,
      d ≠ '?' ∧ d ≠ '#' ∧ isRemoved d = false := by
    intro d hd
    rw [unsplitNetloc] at hd
    split at hd
    · rw [List.mem_cons, List.mem_cons, List.mem_append] at hd
      rcases hd with rfl | rfl | hd | hd
      · decide
      · decide
      · obtain ⟨hdelimiter, hremoved⟩ := h.located d hd
        refine ⟨?_, ?_, hremoved⟩ <;> rintro rfl <;> cases hdelimiter
      · rcases mem_slash hd with rfl | hd
        · decide
        · exact h.plain d hd
    · exact h.plain d hd
  rw [unsplitFront] at hc
  split at hc
  · exact hnetloc c hc
  · next hne =>
    rw [List.mem_append, List.mem_cons] at hc
    rcases hc with hc | rfl | hc
    · obtain ⟨-, hdelimiter, -, hremoved⟩ :=
        plain_of_schemeChar ((h.named.resolve_left hne).chars c hc)
      refine ⟨?_, ?_, hremoved⟩ <;> rintro rfl <;> cases hdelimiter
    · decide
    · exact hnetloc c hc

/-- What is unsplit begins with no control character and no space. -/
theorem IsFront.head_unsplitFront (h : IsFront scheme netloc url) (rule : EmptyNetloc) :
    ∀ c ∈ (unsplitFront rule scheme netloc url).head?, isStripped c = false := by
  rw [unsplitFront]
  split
  · next hempty =>
    rw [unsplitNetloc]
    split
    · exact (bare_slash eq_of_mem_head_cons).2
    · next hnot =>
      rw [hasNetloc, not_or, not_not] at hnot
      exact (h.bare hempty hnot.1).2
  · next hne =>
    intro c hc
    have hscheme := h.named.resolve_left hne
    rw [List.head?_append_of_ne_nil _ hscheme.ne_nil] at hc
    exact (plain_of_schemeChar (hscheme.chars c (List.mem_of_mem_head? hc))).2.2.1

/-- What is unsplit in front of a query and a fragment is split again. -/
theorem IsFront.urlsplit_unsplitFront (h : IsFront scheme netloc url) (platform : Platform)
    (rule : EmptyNetloc) {query fragment : List Char}
    (hquery : ∀ c ∈ query, c ≠ '#' ∧ isRemoved c = false)
    (hfragment : ∀ c ∈ fragment, isRemoved c = false) :
    urlsplit platform
        (unsplitFront rule scheme netloc url ++ mark '?' query ++ mark '#' fragment) =
      (checkNetloc platform netloc).map fun _ ↦ {
        scheme, netloc
        path := settle rule scheme netloc url
        params := []
        query, fragment } := by
  have htail : IsTail (mark '?' query ++ mark '#' fragment) := isTail_append head_mark head_mark
  have hclean : clean (unsplitFront rule scheme netloc url ++ mark '?' query ++ mark '#' fragment) =
      unsplitFront rule scheme netloc url ++ (mark '?' query ++ mark '#' fragment) := by
    rw [List.append_assoc]
    apply clean_eq_self
    · intro c hc
      rw [List.mem_append, List.mem_append] at hc
      rcases hc with hc | hc | hc
      · exact (h.mem_unsplitFront hc).2.2
      · rcases mem_mark hc with rfl | hc
        · rfl
        · exact (hquery c hc).2
      · rcases mem_mark hc with rfl | hc
        · rfl
        · exact hfragment c hc
    · intro c hc
      cases hfront : unsplitFront rule scheme netloc url with
      | nil =>
        rw [hfront] at hc
        rcases htail c hc with rfl | rfl <;> rfl
      | cons d rest =>
        have hhead := h.head_unsplitFront rule
        rw [hfront] at hc hhead
        exact hhead c hc
  have hsharp : '#' ∉ mark '?' query := by
    intro hmem
    rcases mem_mark hmem with hmark | hmem
    · cases hmark
    · exact (hquery _ hmem).1 rfl
  rw [urlsplit_eq platform hclean (fun c hc ↦ ⟨(h.mem_unsplitFront hc).1, (h.mem_unsplitFront hc).2.1⟩)
    head_mark hsharp head_mark, h.splitScheme_unsplitFront, h.splitNetloc_unsplitNetloc, tail_mark,
    tail_mark]

/-- A path is made absolute by a slash in front of it or is left. -/
theorem settle_eq (rule : EmptyNetloc) (scheme netloc url : List Char) :
    ∃ root, (root = [] ∨ root = ['/']) ∧ settle rule scheme netloc url = root ++ url := by
  rw [settle, slash]
  split
  · split
    · exact ⟨['/'], .inr rfl, rfl⟩
    · exact ⟨[], .inl rfl, rfl⟩
  · exact ⟨[], .inl rfl, rfl⟩

/-- A path that begins with a slash, or is empty, is absolute. -/
theorem slash_eq_self (h : ∀ c ∈ url.head?, c = '/') : slash url = url := by
  rw [slash, if_neg]
  rintro ⟨hne, hhead⟩
  cases url with
  | nil => exact hne rfl
  | cons c rest =>
    obtain rfl := h c rfl
    exact hhead rfl

/-- A path is made absolute once. -/
theorem unsplitNetloc_settle (rule : EmptyNetloc) (scheme netloc url : List Char) :
    unsplitNetloc rule scheme netloc (settle rule scheme netloc url) =
      unsplitNetloc rule scheme netloc url := by
  by_cases h : hasNetloc rule scheme netloc url
  · have hslash : hasNetloc rule scheme netloc (slash url) := by
      rcases h with h | h | ⟨hne, huses, h⟩
      · exact .inl h
      · right; left
        obtain ⟨rest, rfl⟩ := h
        have habsolute : slash (['/', '/'] ++ rest) = ['/', '/'] ++ rest :=
          slash_eq_self eq_of_mem_head_cons
        rw [habsolute]
        exact List.prefix_append _ _
      · right; right
        refine ⟨hne, huses, ?_⟩
        rcases h with h | rfl | h
        · exact .inl h
        · exact .inr (.inl rfl)
        · right; right
          rwa [slash_eq_self]
          intro c hc
          rw [h] at hc
          exact (Option.some.inj hc).symm
    have hsettle : settle rule scheme netloc url = slash url := if_pos h
    rw [hsettle, unsplitNetloc, if_pos hslash, unsplitNetloc, if_pos h, slash_eq_self head_slash]
  · have hsettle : settle rule scheme netloc url = url := if_neg h
    rw [hsettle]

/-! ## Parameters -/

/-- A path with the parameters of its last segment, as `splitParams` returns them. -/
def IsParams (scheme path params : List Char) : Prop :=
  ¬ usesParams.contains scheme ∧ params = [] ∨
    usesParams.contains scheme ∧ ∃ head segment, path = head ++ segment ∧ (∀ c ∈ head.getLast?, c = '/') ∧
      '/' ∉ segment ∧ ';' ∉ segment ∧ '/' ∉ params

/-- The last segment of a path. -/
theorem lastSegment_append {head segment : List Char} (hhead : ∀ c ∈ head.getLast?, c = '/')
    (hsegment : '/' ∉ segment) : (head ++ segment).rdropWhile (· ≠ '/') = head ∧
      (head ++ segment).rtakeWhile (· ≠ '/') = segment := by
  have hkeep : ∀ c ∈ segment.reverse, decide (c ≠ '/') = true := by
    intro c hc
    apply decide_eq_true
    rintro rfl
    exact hsegment (List.mem_reverse.mp hc)
  have hstop : ∀ c ∈ head.reverse.head?, decide (c ≠ '/') = false := by
    intro c hc
    rw [List.head?_reverse] at hc
    obtain rfl := hhead c hc
    rfl
  have hspan := span_append hstop segment.reverse
  rw [List.rdropWhile, List.rtakeWhile, List.reverse_append, hspan.1, hspan.2,
    List.takeWhile_eq_self_iff.mpr hkeep, List.dropWhile_eq_nil_iff.mpr hkeep]
  simp

/-- A path is its last segment behind a slash or behind nothing. -/
theorem exists_lastSegment (path : List Char) :
    ∃ head segment, path = head ++ segment ∧ (∀ c ∈ head.getLast?, c = '/') ∧ '/' ∉ segment := by
  obtain ⟨segment, head, hpath, hsegment, hhead⟩ := exists_cut '/' path.reverse
  refine ⟨head.reverse, segment.reverse, ?_, ?_, ?_⟩
  · rw [← List.reverse_append, ← hpath, List.reverse_reverse]
  · rwa [List.getLast?_reverse]
  · rwa [List.mem_reverse]

/-- `splitParams` of a path by its last segment. -/
theorem splitParams_append {head segment : List Char} (huses : usesParams.contains scheme)
    (hhead : ∀ c ∈ head.getLast?, c = '/') (hsegment : '/' ∉ segment) :
    splitParams scheme (head ++ segment) = (head ++ (cut ';' segment).1, (cut ';' segment).2) := by
  obtain ⟨hdrop, htake⟩ := lastSegment_append hhead hsegment
  rw [splitParams, hdrop, htake]
  split
  · rfl
  · next hnone =>
    have hsemicolon : ';' ∉ segment := fun h ↦ hnone ⟨huses, List.mem_append_right head h⟩
    have hcut : cut ';' (segment ++ []) = (segment, [].tail) :=
      cut_append hsemicolon fun d hd ↦ nomatch hd
    rw [List.append_nil] at hcut
    rw [hcut]
    rfl

/-- A path with parameters is split again, be it made absolute or not. -/
theorem IsParams.splitParams_mark {path params root : List Char} (h : IsParams scheme path params)
    (hroot : root = [] ∨ root = ['/']) :
    splitParams scheme (root ++ (path ++ mark ';' params)) = (root ++ path, params) := by
  rcases h with ⟨hnot, rfl⟩ | ⟨huses, head, segment, rfl, hhead, hsegment, hsemicolon, hparams⟩
  · rw [splitParams, if_neg fun h ↦ hnot h.1]
    simp [mark]
  · have hroots : ∀ c ∈ (root ++ head).getLast?, c = '/' := by
      intro c hc
      rcases hroot with rfl | rfl
      · exact hhead c hc
      · cases head with
        | nil => exact (Option.some.inj hc).symm
        | cons d rest => exact hhead c (List.getLast?_cons_cons ▸ hc)
    have hmarked : '/' ∉ segment ++ mark ';' params := by
      rw [List.mem_append, not_or]
      refine ⟨hsegment, fun hmem ↦ ?_⟩
      rcases mem_mark hmem with hmark | hmem
      · cases hmark
      · exact hparams hmem
    have hshape : root ++ (head ++ segment ++ mark ';' params) =
        root ++ head ++ (segment ++ mark ';' params) := by simp
    rw [hshape, splitParams_append huses hroots hmarked, cut_append hsemicolon head_mark, tail_mark,
      List.append_assoc]

/-- What `splitParams` returns; it leaves out a semicolon without parameters. -/
theorem splitParams_spec (scheme url : List Char) :
    IsParams scheme (splitParams scheme url).1 (splitParams scheme url).2 ∧
      (url = (splitParams scheme url).1 ++ mark ';' (splitParams scheme url).2 ∨
        url = (splitParams scheme url).1 ++ mark ';' (splitParams scheme url).2 ++ [';']) := by
  by_cases huses : usesParams.contains scheme
  · obtain ⟨head, last, rfl, hhead, hlast⟩ := exists_lastSegment url
    obtain ⟨segment, rest, rfl, hsegment, hrest⟩ := exists_cut ';' last
    rw [List.mem_append, not_or] at hlast
    rw [splitParams_append huses hhead (by rw [List.mem_append, not_or]; exact hlast),
      cut_append hsegment hrest]
    refine ⟨.inr ⟨huses, head, segment, rfl, hhead, hlast.1, hsegment, ?_⟩, ?_⟩
    · exact fun h ↦ hlast.2 (List.mem_of_mem_tail h)
    · match rest with
      | [] => simp [mark]
      | [d] =>
        obtain rfl := hrest d rfl
        simp [mark]
      | d :: e :: rest =>
        obtain rfl := hrest d rfl
        simp [mark]
  · rw [splitParams, if_neg fun h ↦ huses h.1]
    exact ⟨.inl ⟨huses, rfl⟩, .inl (by simp [mark])⟩

/-! ## Round trip -/

/-- A result of `urlparse`, its query apart. -/
structure ParseResult.IsParsed (platform : Platform) (p : ParseResult) : Prop where
  front : IsFront p.scheme p.netloc (p.path ++ mark ';' p.params)
  params : IsParams p.scheme p.path p.params
  fragment : ∀ c ∈ p.fragment, isRemoved c = false
  accepted : checkNetloc platform p.netloc = .ok ()

/-- What can be the query of a result of `urlparse`. -/
def IsQuery (query : List Char) : Prop := ∀ c ∈ query, c ≠ '#' ∧ isRemoved c = false

/-- A URL that is parsed in terms of what `urlsplit` makes of it. -/
theorem urlparse_eq {p : ParseResult} (h : urlsplit platform text = .ok p) :
    urlparse platform text = .ok { p with
      path := (splitParams p.scheme p.path).1
      params := (splitParams p.scheme p.path).2 } := by
  rw [urlparse, h]
  rfl

/-- What `urlparse` returns. -/
theorem isParsed_of_urlparse {p : ParseResult} (h : urlparse platform text = .ok p) :
    p.IsParsed platform ∧ IsQuery p.query := by
  obtain ⟨rest, fragment, htext, hsharp, hfragment⟩ := exists_cut '#' (clean text)
  obtain ⟨front, query, rfl, hquestion, hquery⟩ := exists_cut '?' rest
  rw [List.append_assoc] at htext
  rw [List.mem_append, not_or] at hsharp
  have hfront : ∀ c ∈ front, c ≠ '?' ∧ c ≠ '#' := by
    intro c hc
    constructor <;> rintro rfl
    · exact hquestion hc
    · exact hsharp.1 hc
  have hclean : ∀ c ∈ front ++ (query ++ fragment), isRemoved c = false :=
    fun c hc ↦ mem_clean (htext ▸ hc)
  have hhead : ∀ c ∈ front.head?, isStripped c = false := by
    intro c hc
    cases front with
    | nil => cases hc
    | cons d more => exact head_clean text c (htext ▸ hc)
  have hsplit := urlsplit_eq platform htext hfront hquery hsharp.2 hfragment
  have hfronts := isFront_split (fun c hc ↦ ⟨(hfront c hc).1, (hfront c hc).2,
    hclean c (List.mem_append_left _ hc)⟩) hhead
  cases hcheck : checkNetloc platform (splitNetloc (splitScheme front).2).1 with
  | error e =>
    rw [hcheck] at hsplit
    rw [urlparse, hsplit] at h
    cases h
  | ok =>
    rw [hcheck] at hsplit
    rw [urlparse_eq hsplit, Except.ok.injEq] at h
    subst h
    obtain ⟨hparams, hpath⟩ := splitParams_spec (splitScheme front).1
      (splitNetloc (splitScheme front).2).2
    refine ⟨⟨?_, hparams, fun c hc ↦ ?_, hcheck⟩, fun c hc ↦ ⟨?_, ?_⟩⟩
    · rcases hpath with hpath | hpath
      · exact hpath ▸ hfronts
      · exact IsFront.dropLast (hpath ▸ hfronts)
    · exact hclean c (List.mem_append_right _ (List.mem_append_right _ (List.mem_of_mem_tail hc)))
    · rintro rfl
      exact hsharp.2 (List.mem_of_mem_tail hc)
    · exact hclean c (List.mem_append_right _ (List.mem_append_left _ (List.mem_of_mem_tail hc)))

/-- The parts of a URL with any query are read back from the unparsed URL, with a path that may
have been made absolute; that is unparsed to the same URL. -/
theorem ParseResult.IsParsed.urlparse_urlunparse {p : ParseResult} (h : p.IsParsed platform)
    (rule : EmptyNetloc) {query : List Char} (hquery : IsQuery query) :
    ∃ path, urlparse platform (urlunparse rule { p with query }) = .ok { p with path, query } ∧
      urlunparse rule { p with path, query } = urlunparse rule { p with query } := by
  obtain ⟨root, hroot, hsettle⟩ :=
    settle_eq rule p.scheme p.netloc (p.path ++ mark ';' p.params)
  refine ⟨root ++ p.path, ?_, ?_⟩
  · have hsplit := h.front.urlsplit_unsplitFront platform rule hquery h.fragment
    rw [h.accepted] at hsplit
    have hparse := urlparse_eq hsplit
    rw [hsettle, h.params.splitParams_mark hroot] at hparse
    exact hparse
  · have hnetloc := unsplitNetloc_settle rule p.scheme p.netloc (p.path ++ mark ';' p.params)
    rw [hsettle, ← List.append_assoc] at hnetloc
    rw [urlunparse, urlunparse, unsplitFront, unsplitFront, hnetloc]

/-- Unparsed URLs that differ in the query only tell the query. -/
theorem query_of_urlunparse {p : ParseResult} {query other : List Char}
    (h : urlunparse rule { p with query } = urlunparse rule { p with query := other }) :
    query = other :=
  mark_injective (List.append_cancel_left (List.append_cancel_right h))

/-- What begins with a mark is cleaned by itself. -/
theorem clean_append {tail : List Char} (htail : IsTail tail) (front : List Char) :
    clean (front ++ tail) = clean front ++ tail.filter fun c ↦ !isRemoved c := by
  have hstop : ∀ d ∈ tail.head?, isStripped d = false := by
    intro d hd
    rcases htail d hd with rfl | rfl <;> rfl
  rw [clean, (span_append hstop front).2, List.filter_append]
  rfl

/-- The query of a URL is what stands between its first question mark and the fragment, without the
characters that are removed; the other parts do not depend on it. -/
theorem urlparse_query (platform : Platform) {front fragment : List Char}
    (hfront : ∀ c ∈ front, c ≠ '?' ∧ c ≠ '#') (hfragment : ∀ d ∈ fragment.head?, d = '#') :
    ∃ outcome : Except String ParseResult, ∀ query, '#' ∉ query →
      urlparse platform (front ++ '?' :: query ++ fragment) =
        outcome.map fun p ↦ { p with query := query.filter fun c ↦ !isRemoved c } := by
  refine ⟨urlparse platform (front ++ '?' :: [] ++ fragment), fun query hquery ↦ ?_⟩
  have hcleaned : ∀ c ∈ clean front, c ≠ '?' ∧ c ≠ '#' :=
    fun c hc ↦ hfront c (List.dropWhile_subset _ (List.mem_filter.mp hc).1)
  have hmarked : ∀ d ∈ (fragment.filter fun c ↦ !isRemoved c).head?, d = '#' := by
    intro d hd
    cases fragment with
    | nil => cases hd
    | cons c rest =>
      obtain rfl := hfragment c rfl
      exact (Option.some.inj hd).symm
  have hsplit (query : List Char) (hquery : '#' ∉ query) := by
    have hclean : clean (front ++ '?' :: query ++ fragment) = clean front ++
        ('?' :: (query.filter fun c ↦ !isRemoved c) ++ fragment.filter fun c ↦ !isRemoved c) := by
      have htail : IsTail ('?' :: query ++ fragment) := fun d hd ↦ .inl (Option.some.inj hd).symm
      rw [List.append_assoc, clean_append htail]
      simp [isRemoved]
    have hsharp : '#' ∉ '?' :: query.filter fun c ↦ !isRemoved c := by
      rw [List.mem_cons, not_or]
      exact ⟨by decide, fun hmem ↦ hquery (List.mem_filter.mp hmem).1⟩
    exact urlsplit_eq platform hclean hcleaned eq_of_mem_head_cons hsharp hmarked
  rw [urlparse, urlparse, hsplit query hquery, hsplit [] List.not_mem_nil]
  cases checkNetloc platform (splitNetloc (splitScheme (clean front)).2).1 <;> rfl

end ScrapyCffi.Base.Url
