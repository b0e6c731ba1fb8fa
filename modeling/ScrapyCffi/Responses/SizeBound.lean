import ScrapyCffi.Responses.Decoding

/-!
# The size bound of server-sent events

`event_size` of `StreamResponse.aiter_sse` (`core/downloader/internet/response.py:134–181`) counts
the values of an event's lines, and not the newlines that join its data.
-/

namespace ScrapyCffi.Responses

variable (digits : Digits) (longest : Option Nat) (maxEventSize : Nat)

/-- One turn of the loop over the lines. -/
def Parser.step (s : Parser) (line : Text) : Except SseError Parser :=
  if stripCr line = [] then .ok s.reset else s.line digits longest maxEventSize (stripCr line)

/-- The variables after some lines, unless one of them raises. -/
def Parser.read (s : Parser) (lines : List Text) : Except SseError Parser :=
  lines.foldlM (Parser.step digits longest maxEventSize) s

/-- The joined data of every yielded event and of the event under construction, after any of the
lines, keep the bound. -/
def SizeBounded (lines : List Text) : Prop :=
  (∀ e ∈ (aiterSse digits longest maxEventSize lines).events, utf8Length e.data ≤ maxEventSize) ∧
  ∀ p s, p <+: lines → Parser.initial.read digits longest maxEventSize p = .ok s →
    utf8Length (joinLines s.dataLines) ≤ maxEventSize

/-- The lines of the event under construction: those behind the last blank one. -/
def openBlock (lines : List Text) : List Text := lines.rtakeWhile fun line ↦ stripCr line ≠ []

/-- The data of a line. -/
def lineData (line : Text) : Option Text :=
  if fieldName (stripCr line) = "data".toList then some (fieldValue (stripCr line)) else none

/-- The bytes of the data lines, and one for each newline between two of them. -/
def joinedSize (lines : List Text) : Nat :=
  ((lines.filterMap lineData).map utf8Length).sum + ((lines.filterMap lineData).length - 1)

/-- Nothing stops the parser before the end of the lines: the values of each event fit so far as
they have come, and `int` reads every retry. -/
def Admitted (lines : List Text) : Prop :=
  (∀ p, p <+: lines → linesSize (openBlock p) ≤ maxEventSize) ∧
  ∀ line ∈ lines, ReadsRetry digits longest line

/-! ## Sizes -/

theorem utf8Length_append (a b : Text) : utf8Length (a ++ b) = utf8Length a + utf8Length b := by
  rw [utf8Length, List.map_append, List.sum_append]
  rfl

/-- Joining adds one byte between every two lines. -/
theorem utf8Length_joinLines (lines : List Text) :
    utf8Length (joinLines lines) = (lines.map utf8Length).sum + (lines.length - 1) := by
  induction lines with
  | nil => rfl
  | cons line lines ih =>
    cases lines with
    | nil => simp [joinLines, List.intercalate]
    | cons next rest =>
      have hjoin : joinLines (line :: next :: rest) = line ++ '\n' :: joinLines (next :: rest) := by
        simp [joinLines, List.intercalate]
      have hnewline : utf8Length ('\n' :: joinLines (next :: rest)) =
          1 + utf8Length (joinLines (next :: rest)) := rfl
      rw [hjoin, utf8Length_append, hnewline, ih]
      simp only [List.map_cons, List.sum_cons, List.length_cons]
      omega

/-- A blank line opens an empty block, another one joins the block. -/
theorem openBlock_concat (lines : List Text) (line : Text) :
    openBlock (lines ++ [line]) = if stripCr line = [] then [] else openBlock lines ++ [line] := by
  rw [openBlock, List.rtakeWhile_concat]
  by_cases h : stripCr line = [] <;> simp [h, openBlock]

theorem linesSize_concat (lines : List Text) (line : Text) :
    linesSize (lines ++ [line]) = linesSize lines + lineSize line := by
  simp [linesSize]

variable {digits longest maxEventSize}

/-- One more line is admitted when it fits and `int` reads its retry. -/
theorem admitted_concat {lines : List Text} {line : Text} :
    Admitted digits longest maxEventSize (lines ++ [line]) ↔
      Admitted digits longest maxEventSize lines ∧
        linesSize (openBlock (lines ++ [line])) ≤ maxEventSize ∧
        ReadsRetry digits longest line := by
  constructor
  · intro h
    refine ⟨⟨fun p hp ↦ h.1 p (hp.trans (List.prefix_append _ _)), fun l hl ↦ ?_⟩, ?_, ?_⟩
    · exact h.2 l (List.mem_append_left _ hl)
    · exact h.1 _ (List.prefix_refl _)
    · exact h.2 line (List.mem_append_right _ (List.mem_singleton_self _))
  · rintro ⟨⟨hfits, hreads⟩, hline, hretry⟩
    refine ⟨fun p hp ↦ ?_, fun l hl ↦ ?_⟩
    · rcases List.prefix_concat_iff.mp hp with rfl | hp
      · exact hline
      · exact hfits p hp
    · rcases List.mem_append.mp hl with hl | hl
      · exact hreads l hl
      · rwa [List.mem_singleton.mp hl]

/-! ## Lines -/

/-- A comment has no field name. -/
theorem fieldName_of_comment {line : Text} (h : line.head? = some ':') : fieldName line = [] := by
  cases line with
  | nil => rfl
  | cons c line =>
    cases h
    simp [fieldName]

/-- A line without a field name has no data and no retry. -/
theorem line_of_no_name (digits : Digits) (longest : Option Nat) {line : Text}
    (h : fieldName (stripCr line) = []) :
    lineData line = none ∧ ReadsRetry digits longest line := by
  constructor
  · rw [lineData, h, if_neg (by decide)]
  · intro value hvalue
    rw [digitRetry, h, if_neg fun hand ↦ absurd hand.1 (by decide)] at hvalue
    cases hvalue

/-- What the fields of a line do to the data and the size, and that they raise only for a retry
which `int` does not read. -/
theorem Parser.field_spec (digits : Digits) (longest : Option Nat) (s : Parser) (line : Text) :
    (ReadsRetry digits longest line → ∃ t, Parser.field digits longest s (fieldName (stripCr line))
      (fieldValue (stripCr line)) = .ok t) ∧
    ∀ t, Parser.field digits longest s (fieldName (stripCr line)) (fieldValue (stripCr line)) =
        .ok t →
      ReadsRetry digits longest line ∧ t.dataLines = s.dataLines ++ (lineData line).toList ∧
        t.eventSize = s.eventSize := by
  have hreads (h : ¬ (fieldName (stripCr line) = "retry".toList ∧
      digits.isDigits (fieldValue (stripCr line)))) : ReadsRetry digits longest line := by
    intro value hvalue
    rw [digitRetry, if_neg h] at hvalue
    cases hvalue
  unfold Parser.field lineData
  split
  · next hdata =>
    refine ⟨fun _ ↦ ⟨_, rfl⟩, fun t ht ↦ ?_⟩
    cases ht
    exact ⟨hreads fun h ↦ absurd (hdata.symm.trans h.1) (by decide), rfl, rfl⟩
  · next hdata =>
    simp only [Option.toList_none, List.append_nil]
    split
    · next hevent =>
      refine ⟨fun _ ↦ ⟨_, rfl⟩, fun t ht ↦ ?_⟩
      cases ht
      exact ⟨hreads fun h ↦ absurd (hevent.symm.trans h.1) (by decide), rfl, rfl⟩
    · split
      · next hid =>
        refine ⟨fun _ ↦ ⟨_, rfl⟩, fun t ht ↦ ?_⟩
        cases ht
        exact ⟨hreads fun h ↦ absurd (hid.1.symm.trans h.1) (by decide), rfl, rfl⟩
      · split
        · next hretry =>
          have hvalue : digitRetry digits line = some (fieldValue (stripCr line)) :=
            if_pos hretry
          split
          · next n hint =>
            refine ⟨fun _ ↦ ⟨_, rfl⟩, fun t ht ↦ ?_⟩
            cases ht
            refine ⟨fun value h ↦ ?_, rfl, rfl⟩
            cases hvalue.symm.trans h
            rw [hint]
            rfl
          · next hint =>
            refine ⟨fun h ↦ ?_, fun t ht ↦ by cases ht⟩
            have hsome := h _ hvalue
            rw [hint] at hsome
            cases hsome
        · next hretry =>
          refine ⟨fun _ ↦ ⟨_, rfl⟩, fun t ht ↦ ?_⟩
          cases ht
          exact ⟨hreads hretry, rfl, rfl⟩

/-- A line that is not blank is read when it fits and `int` reads its retry; it adds its data and
its size. -/
theorem Parser.line_spec (digits : Digits) (longest : Option Nat) (s : Parser) (line : Text)
    (hs : s.eventSize ≤ maxEventSize) :
    (s.eventSize + lineSize line ≤ maxEventSize → ReadsRetry digits longest line →
      ∃ t, s.line digits longest maxEventSize (stripCr line) = .ok t) ∧
    ∀ t, s.line digits longest maxEventSize (stripCr line) = .ok t →
      ReadsRetry digits longest line ∧ t.dataLines = s.dataLines ++ (lineData line).toList ∧
        t.eventSize = s.eventSize + lineSize line ∧ t.eventSize ≤ maxEventSize := by
  by_cases hcomment : (stripCr line).head? = some ':'
  · obtain ⟨hdata, hretry⟩ := line_of_no_name digits longest (fieldName_of_comment hcomment)
    have hline : s.line digits longest maxEventSize (stripCr line) = .ok s := by
      rw [Parser.line, if_pos hcomment]
    have hsize : lineSize line = 0 := if_pos hcomment
    rw [hline, hdata, hsize]
    refine ⟨fun _ _ ↦ ⟨s, rfl⟩, fun t ht ↦ ?_⟩
    cases ht
    exact ⟨hretry, (List.append_nil _).symm, rfl, hs⟩
  · have hsize : lineSize line = utf8Length (fieldValue (stripCr line)) := if_neg hcomment
    rw [Parser.line_of_parts digits longest maxEventSize s hcomment, ← hsize]
    obtain ⟨hread, hspec⟩ := Parser.field_spec digits longest
      { s with eventSize := s.eventSize + lineSize line } line
    constructor
    · intro hfits hretry
      rw [if_neg (not_lt.mpr hfits)]
      exact hread hretry
    · intro t ht
      split at ht
      · cases ht
      · next hfits =>
        obtain ⟨hretry, hdata, heventSize⟩ := hspec t ht
        refine ⟨hretry, hdata, heventSize, ?_⟩
        rw [heventSize]
        exact not_lt.mp hfits

/-! ## Runs -/

/-- What the parser has of the event under construction after some lines. -/
structure Parser.Tracks (s : Parser) (lines : List Text) : Prop where
  data : s.dataLines = (openBlock lines).filterMap lineData
  size : s.eventSize = linesSize (openBlock lines)

/-- One line more: the parser takes it if and only if it is admitted, and still tracks the event. -/
theorem Parser.Tracks.concat {s : Parser} {lines : List Text} (h : s.Tracks lines)
    (hadmitted : Admitted digits longest maxEventSize lines) (line : Text) :
    (Admitted digits longest maxEventSize (lines ++ [line]) →
      ∃ t, s.step digits longest maxEventSize line = .ok t) ∧
    ∀ t, s.step digits longest maxEventSize line = .ok t →
      Admitted digits longest maxEventSize (lines ++ [line]) ∧ t.Tracks (lines ++ [line]) := by
  have hs : s.eventSize ≤ maxEventSize := by
    rw [h.size]
    exact hadmitted.1 lines (List.prefix_refl _)
  by_cases hblank : stripCr line = []
  · have hname : fieldName (stripCr line) = [] := by
      rw [hblank]
      rfl
    have hopen : openBlock (lines ++ [line]) = [] := by rw [openBlock_concat, if_pos hblank]
    rw [Parser.step, if_pos hblank]
    refine ⟨fun _ ↦ ⟨_, rfl⟩, fun t ht ↦ ?_⟩
    cases ht
    refine ⟨admitted_concat.mpr ⟨hadmitted, ?_, (line_of_no_name digits longest hname).2⟩, ?_, ?_⟩
    · rw [hopen]
      exact Nat.zero_le _
    · rw [hopen]
      rfl
    · rw [hopen]
      rfl
  · have hopen : openBlock (lines ++ [line]) = openBlock lines ++ [line] := by
      rw [openBlock_concat, if_neg hblank]
    have hsize : linesSize (openBlock (lines ++ [line])) = s.eventSize + lineSize line := by
      rw [hopen, linesSize_concat, h.size]
    obtain ⟨hread, hspec⟩ := s.line_spec digits longest line hs
    rw [Parser.step, if_neg hblank]
    constructor
    · intro hnext
      obtain ⟨-, hfits, hretry⟩ := admitted_concat.mp hnext
      rw [hsize] at hfits
      exact hread hfits hretry
    · intro t ht
      obtain ⟨hretry, hdata, heventSize, hfits⟩ := hspec t ht
      refine ⟨admitted_concat.mpr ⟨hadmitted, ?_, hretry⟩, ?_, ?_⟩
      · rwa [hsize, ← heventSize]
      · rw [hdata, h.data, hopen, List.filterMap_append]
        cases hvalue : lineData line <;> simp [hvalue]
      · rw [heventSize, hsize]

/-- The last line is read after the others. -/
theorem Parser.read_concat (s : Parser) (lines : List Text) (line : Text) :
    s.read digits longest maxEventSize (lines ++ [line]) =
      (s.read digits longest maxEventSize lines).bind fun t ↦
        t.step digits longest maxEventSize line := by
  rw [Parser.read, List.foldlM_append]
  show Except.bind _ _ = _
  congr 1
  funext t
  exact bind_pure (t.step digits longest maxEventSize line)

/-- The parser reads exactly the lines that are admitted, and tracks their event. -/
theorem Parser.read_spec (lines : List Text) :
    (Admitted digits longest maxEventSize lines →
      ∃ s, Parser.initial.read digits longest maxEventSize lines = .ok s) ∧
    ∀ s, Parser.initial.read digits longest maxEventSize lines = .ok s →
      Admitted digits longest maxEventSize lines ∧ s.Tracks lines := by
  induction lines using List.reverseRecOn with
  | nil =>
    refine ⟨fun _ ↦ ⟨_, rfl⟩, fun s hs ↦ ?_⟩
    cases hs
    refine ⟨⟨fun p hp ↦ ?_, by simp⟩, rfl, rfl⟩
    rw [List.prefix_nil.mp hp]
    exact Nat.zero_le _
  | append_singleton lines line ih =>
    rw [Parser.read_concat]
    constructor
    · intro hadmitted
      obtain ⟨hlines, -⟩ := admitted_concat.mp hadmitted
      obtain ⟨s, hs⟩ := ih.1 hlines
      obtain ⟨t, ht⟩ := ((ih.2 s hs).2.concat hlines line).1 hadmitted
      refine ⟨t, ?_⟩
      rw [hs]
      exact ht
    · intro t ht
      cases hs : Parser.initial.read digits longest maxEventSize lines with
      | error e =>
        rw [hs] at ht
        cases ht
      | ok s =>
        obtain ⟨hlines, htracks⟩ := ih.2 s hs
        rw [hs] at ht
        exact (htracks.concat hlines line).2 t ht

/-- A yielded event is that of the variables after some lines. -/
theorem Parser.exists_of_mem_run {s : Parser} {lines : List Text} {e : SSEEvent}
    (h : e ∈ (s.run digits longest maxEventSize lines).events) :
    ∃ p t, p <+: lines ∧ s.read digits longest maxEventSize p = .ok t ∧ t.event = some e := by
  induction lines generalizing s with
  | nil => exact ⟨[], s, List.prefix_refl _, rfl, Option.mem_toList.mp h⟩
  | cons line lines ih =>
    have hlater {t : Parser} (hstep : s.step digits longest maxEventSize line = .ok t)
        (ht : e ∈ (t.run digits longest maxEventSize lines).events) :
        ∃ p u, p <+: line :: lines ∧ s.read digits longest maxEventSize p = .ok u ∧
          u.event = some e := by
      obtain ⟨p, u, hp, hread, hevent⟩ := ih ht
      refine ⟨line :: p, u, List.cons_prefix_cons.mpr ⟨rfl, hp⟩, ?_, hevent⟩
      rw [Parser.read, List.foldlM_cons, hstep]
      exact hread
    rw [Parser.run] at h
    split at h
    · next hblank =>
      rcases List.mem_append.mp h with h | h
      · exact ⟨[], s, List.nil_prefix, rfl, Option.mem_toList.mp h⟩
      · exact hlater (by rw [Parser.step, if_pos hblank]) h
    · next hblank =>
      split at h
      · next t hline => exact hlater (by rw [Parser.step, if_neg hblank, hline]) h
      · cases h

end ScrapyCffi.Responses
