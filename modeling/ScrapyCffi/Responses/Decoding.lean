import ScrapyCffi.Responses.EventStream

/-!
# Decoding of server-sent events

What `StreamResponse.aiter_sse`, `core/downloader/internet/response.py:134–181`, makes of the
lines that encode a list of events, with comments, unknown fields and ignorable lines between them.
-/

namespace ScrapyCffi.Responses

/-! ## Encoded events -/

/-- A line with a field and its value: `field: value`, `field:value` or `field` alone. -/
inductive FieldLine (field : Text) : Text → Text → Prop
  | spaced (value : Text) : FieldLine field value (field ++ ':' :: ' ' :: value)
  | tight {value : Text} : value.head? ≠ some ' ' → FieldLine field value (field ++ ':' :: value)
  | bare : FieldLine field [] field

/-- The fields an event stream knows. -/
def knownFields : List Text := ["data".toList, "event".toList, "id".toList, "retry".toList]

/-- ASCII digits. -/
def IsAsciiDigits (value : Text) : Prop := value ≠ [] ∧ ∀ c ∈ value, c.isDigit = true

/-- The number of ASCII digits. -/
def decimalValue (value : Text) : Nat := value.foldl (fun n c ↦ 10 * n + (c.toNat - 48)) 0

/-- A line without its carriage returns that says nothing: a comment, an unknown field, a retry
that is not ASCII digits, an id with a NUL. -/
inductive Ignorable : Text → Prop
  | comment (text : Text) : Ignorable (':' :: text)
  | unknown {field value line : Text} : field ≠ [] → ':' ∉ field → field ∉ knownFields →
      FieldLine field value line → Ignorable line
  | retry {value line : Text} : ¬ IsAsciiDigits value → FieldLine "retry".toList value line →
      Ignorable line
  | id {value line : Text} : Char.ofNat 0 ∈ value → FieldLine "id".toList value line →
      Ignorable line

/-- What the lines of a block say, field by field. -/
@[ext]
structure Fields where
  data : List Text
  names : List Text
  ids : List Text
  retries : List Text

/-- The fields of no line. -/
def Fields.none : Fields := ⟨[], [], [], []⟩

/-- The fields of two runs of lines. -/
def Fields.append (f g : Fields) : Fields :=
  ⟨f.data ++ g.data, f.names ++ g.names, f.ids ++ g.ids, f.retries ++ g.retries⟩

/-- What one line says. -/
inductive LineFields : Fields → Text → Prop
  | data {value line : Text} : FieldLine "data".toList value (stripCr line) →
      LineFields ⟨[value], [], [], []⟩ line
  | event {value line : Text} : FieldLine "event".toList value (stripCr line) →
      LineFields ⟨[], [value], [], []⟩ line
  | id {value line : Text} : Char.ofNat 0 ∉ value →
      FieldLine "id".toList value (stripCr line) → LineFields ⟨[], [], [value], []⟩ line
  | retry {value line : Text} : IsAsciiDigits value →
      FieldLine "retry".toList value (stripCr line) → LineFields ⟨[], [], [], [value]⟩ line
  | ignorable {line : Text} : Ignorable (stripCr line) → LineFields Fields.none line

/-- What lines say, in their order. -/
inductive Encodes : Fields → List Text → Prop
  | nil : Encodes Fields.none []
  | cons {f g : Fields} {line : Text} {lines : List Text} : LineFields f line → Encodes g lines →
      Encodes (f.append g) (line :: lines)

/-- An event as a server means it; a field it leaves out is `none`. -/
structure ServerEvent where
  data : Text
  event : Option Text
  id : Option Text
  retry : Option Text

/-- The fields of an event, its data split at newlines. -/
def ServerEvent.fields (e : ServerEvent) : Fields where
  data := e.data.splitOn '\n'
  names := e.event.toList
  ids := e.id.toList
  retries := e.retry.toList

/-- The event a reader gets, where `lastId` is the last id seen before. -/
def ServerEvent.decoded (e : ServerEvent) (lastId : Option Text) : SSEEvent where
  data := e.data
  event := if e.event.getD [] = [] then "message".toList else e.event.getD []
  id := e.id.or lastId
  retry := e.retry.map decimalValue

/-- The lines up to a blank one: those of an event, or only ignorable ones. -/
structure Block where
  event : Option ServerEvent
  lines : List Text
  blank : Text
  encodes : Encodes (event.elim Fields.none ServerEvent.fields) lines
  isBlank : stripCr blank = []

/-- Blocks, and ignorable lines behind the last of them. -/
structure EncodedStream where
  blocks : List Block
  tail : List Text
  encodes : Encodes Fields.none tail

/-- The lines of a block and the blank one. -/
def Block.text (b : Block) : List Text := b.lines ++ [b.blank]

/-- The lines of a stream. -/
def EncodedStream.lines (stream : EncodedStream) : List Text :=
  stream.blocks.flatMap Block.text ++ stream.tail

/-- What a line counts for the size bound. -/
def lineSize (line : Text) : Nat :=
  if (stripCr line).head? = some ':' then 0 else utf8Length (fieldValue (stripCr line))

/-- What lines count for the size bound. -/
def linesSize (lines : List Text) : Nat := (lines.map lineSize).sum

/-- The last id seen after a block. -/
def Block.lastId (b : Block) (lastId : Option Text) : Option Text :=
  (b.event.bind ServerEvent.id).or lastId

/-- What blocks and ignorable lines behind them are to yield: the events, up to the first block
whose values are over the size bound. -/
def decodedBlocks (maxEventSize : Nat) (tail : List Text) : Option Text → List Block → Yielded
  | _, [] =>
    { events := [], error := if maxEventSize < linesSize tail then some .eventSize else none }
  | lastId, b :: rest =>
    if maxEventSize < linesSize b.lines then { events := [], error := some .eventSize }
    else
      let yielded := decodedBlocks maxEventSize tail (b.lastId lastId) rest
      { yielded with
        events := (b.event.map fun e ↦ e.decoded lastId).toList ++ yielded.events }

/-- What a stream is to yield. -/
def EncodedStream.decoded (stream : EncodedStream) (maxEventSize : Nat) : Yielded :=
  decodedBlocks maxEventSize stream.tail none stream.blocks

/-! ## Retries -/

variable (digits : Digits) (longest : Option Nat) (maxEventSize : Nat)

/-- The value of a line `aiter_sse` takes for a retry. -/
def digitRetry (line : Text) : Option Text :=
  if fieldName (stripCr line) = "retry".toList ∧ digits.isDigits (fieldValue (stripCr line)) then
    some (fieldValue (stripCr line))
  else none

/-- The retries of lines, as numbers. -/
def readRetries (lines : List Text) : List Nat :=
  (lines.filterMap (digitRetry digits)).filterMap (digits.int longest)

/-- `int` reads what the line has for a retry, if it has one. -/
def ReadsRetry (line : Text) : Prop :=
  ∀ value, digitRetry digits line = some value → (digits.int longest value).isSome

/-- `int` reads the retries of the lines within the size bound, of which `size` is used up. -/
def ReadsRetries (size : Nat) (lines : List Text) : Prop :=
  ∀ before line, before ++ [line] <+: lines →
    size + linesSize (before ++ [line]) ≤ maxEventSize → ReadsRetry digits longest line

/-- In blocks that are read, `int` reads every retry, and the last retry of an event's lines is
its own. -/
def RetriesAgree (tail : List Text) : List Block → Prop
  | [] => ReadsRetries digits longest maxEventSize 0 tail
  | b :: rest =>
    ReadsRetries digits longest maxEventSize 0 b.lines ∧
      (linesSize b.lines ≤ maxEventSize →
        (∀ e, b.event = some e →
          (readRetries digits longest b.lines).getLast? = e.retry.map decimalValue) ∧
        RetriesAgree tail rest)

variable {digits longest maxEventSize}

/-! ## Lines -/

/-- A line of a field is taken apart as it was put together. -/
theorem FieldLine.parts {field value line : Text} (h : FieldLine field value line)
    (hne : field ≠ []) (hcolon : ':' ∉ field) :
    line ≠ [] ∧ line.head? ≠ some ':' ∧ fieldName line = field ∧ fieldValue line = value := by
  have hall : ∀ c ∈ field, (decide (c ≠ ':')) = true := by
    intro c hc
    rw [decide_eq_true_eq]
    rintro rfl
    exact hcolon hc
  have hhead : ∀ rest, (field ++ rest).head? ≠ some ':' := by
    intro rest
    obtain ⟨c, cs, rfl⟩ := List.exists_cons_of_ne_nil hne
    rintro ⟨rfl⟩
    exact hcolon List.mem_cons_self
  have hname : ∀ rest, fieldName (field ++ ':' :: rest) = field := by
    intro rest
    rw [fieldName, List.takeWhile_append_of_pos hall]
    simp
  have hvalue : ∀ rest, (field ++ ':' :: rest).dropWhile (· ≠ ':') = ':' :: rest := by
    intro rest
    rw [List.dropWhile_append_of_pos hall]
    simp
  cases h with
  | spaced value =>
    refine ⟨by simp, hhead _, hname _, ?_⟩
    rw [fieldValue, hvalue]
    rfl
  | @tight value hspace =>
    refine ⟨by simp, hhead _, hname _, ?_⟩
    rw [fieldValue, hvalue]
    split
    · next h => cases h; exact absurd rfl hspace
    · next h => cases h; rfl
    · next h => cases h
  | bare =>
    refine ⟨hne, by simpa using hhead [], ?_, ?_⟩
    · rw [fieldName, List.takeWhile_eq_self_iff.mpr hall]
    · rw [fieldValue, List.dropWhile_eq_nil_iff.mpr hall]

/-- ASCII digits are digits. -/
theorem IsAsciiDigits.isDigits {value : Text} (h : IsAsciiDigits value) :
    digits.isDigits value = true := by
  rw [Digits.isDigits, Bool.and_eq_true, List.all_eq_true]
  refine ⟨by simpa using h.1, fun c hc ↦ ?_⟩
  have hdigit := h.2 c hc
  rw [(digits.ascii c _).1]
  · exact hdigit
  · rw [Char.isDigit, Bool.and_eq_true, decide_eq_true_eq, decide_eq_true_eq] at hdigit
    exact Nat.lt_of_le_of_lt hdigit.2 (by decide)

/-- The parser after lines that say `f`, when none of them stopped it. -/
def Parser.after (digits : Digits) (longest : Option Nat) (s : Parser) (f : Fields)
    (lines : List Text) : Parser where
  dataLines := s.dataLines ++ f.data
  eventName := f.names.foldl (fun _ name ↦ if name = [] then "message".toList else name) s.eventName
  eventId := f.ids.foldl (fun _ id ↦ some id) s.eventId
  retry := (readRetries digits longest lines).foldl (fun _ n ↦ some n) s.retry
  eventSize := s.eventSize + linesSize lines

/-- What the parser does with the parts of a line once they fit. -/
def Parser.field (digits : Digits) (longest : Option Nat) (s : Parser) (field value : Text) :
    Except SseError Parser :=
  if field = "data".toList then .ok { s with dataLines := s.dataLines ++ [value] }
  else if field = "event".toList then
    .ok { s with eventName := if value = [] then "message".toList else value }
  else if field = "id".toList ∧ Char.ofNat 0 ∉ value then .ok { s with eventId := some value }
  else if field = "retry".toList ∧ digits.isDigits value then
    match digits.int longest value with
    | some n => .ok { s with retry := some n }
    | none => .error .int
  else .ok s

theorem Parser.field_data (s : Parser) (value : Text) :
    Parser.field digits longest s "data".toList value =
      .ok (s.after digits longest ⟨[value], [], [], []⟩ []) := by
  rw [Parser.field, if_pos rfl]
  rfl

theorem Parser.field_event (s : Parser) (value : Text) :
    Parser.field digits longest s "event".toList value =
      .ok (s.after digits longest ⟨[], [value], [], []⟩ []) := by
  rw [Parser.field, if_neg (by decide), if_pos rfl]
  exact congrArg _ (Parser.ext (List.append_nil _).symm rfl rfl rfl rfl)

theorem Parser.field_id (s : Parser) {value : Text} (h : Char.ofNat 0 ∉ value) :
    Parser.field digits longest s "id".toList value =
      .ok (s.after digits longest ⟨[], [], [value], []⟩ []) := by
  rw [Parser.field, if_neg (by decide), if_neg (by decide), if_pos ⟨rfl, h⟩]
  exact congrArg _ (Parser.ext (List.append_nil _).symm rfl rfl rfl rfl)

/-- An unknown field, an id with a NUL and a retry without digits change nothing. -/
theorem Parser.field_ignored (s : Parser) {field value : Text} (hdata : field ≠ "data".toList)
    (hevent : field ≠ "event".toList) (hid : field = "id".toList → Char.ofNat 0 ∈ value)
    (hretry : field = "retry".toList → ¬ digits.isDigits value) :
    Parser.field digits longest s field value = .ok (s.after digits longest Fields.none []) := by
  rw [Parser.field, if_neg hdata, if_neg hevent, if_neg fun h ↦ h.2 (hid h.1),
    if_neg fun h ↦ hretry h.1 h.2]
  exact congrArg _ (Parser.ext (List.append_nil _).symm rfl rfl rfl rfl)

/-- A line without a retry adds to the size. -/
theorem Parser.after_of_not_retry (s : Parser) (f : Fields) {line : Text}
    (h : digitRetry digits line = none) :
    Parser.after digits longest { s with eventSize := s.eventSize + lineSize line } f [] =
      s.after digits longest f [line] := by
  have hretries : readRetries digits longest [line] = [] := by
    rw [readRetries, List.filterMap_cons_none h]
    rfl
  rw [Parser.after, Parser.after, hretries]
  rfl

/-- Lines are read one after the other. -/
theorem Parser.after_append (s : Parser) (f g : Fields) (line : Text) (lines : List Text) :
    (s.after digits longest f [line]).after digits longest g lines =
      s.after digits longest (f.append g) (line :: lines) := by
  have hretries : readRetries digits longest (line :: lines) =
      readRetries digits longest [line] ++ readRetries digits longest lines := by
    rw [readRetries, readRetries, readRetries, ← List.filterMap_append, ← List.filterMap_append]
    rfl
  have hsize : linesSize (line :: lines) = linesSize [line] + linesSize lines := by
    simp [linesSize]
  refine Parser.ext (List.append_assoc _ _ _) ?_ ?_ ?_ ?_
  · exact List.foldl_append.symm
  · exact List.foldl_append.symm
  · show List.foldl _ (List.foldl _ _ _) _ = List.foldl _ _ _
    rw [hretries, List.foldl_append]
  · show s.eventSize + linesSize [line] + linesSize lines = s.eventSize + linesSize (line :: lines)
    rw [hsize, Nat.add_assoc]

/-- What the parser does with one line. -/
inductive Parser.LineCases (digits : Digits) (longest : Option Nat) (maxEventSize : Nat)
    (s : Parser) (f : Fields) (line : Text) : Prop
  | oversize : maxEventSize < s.eventSize + lineSize line →
      s.line digits longest maxEventSize (stripCr line) = .error .eventSize →
      LineCases digits longest maxEventSize s f line
  | unread : s.eventSize + lineSize line ≤ maxEventSize → ¬ ReadsRetry digits longest line →
      s.line digits longest maxEventSize (stripCr line) = .error .int →
      LineCases digits longest maxEventSize s f line
  | read : s.eventSize + lineSize line ≤ maxEventSize → ReadsRetry digits longest line →
      s.line digits longest maxEventSize (stripCr line) = .ok (s.after digits longest f [line]) →
      LineCases digits longest maxEventSize s f line

/-- A line that is not a comment is handled by its parts. -/
theorem Parser.line_of_parts (digits : Digits) (longest : Option Nat) (maxEventSize : Nat)
    {line : Text} (s : Parser) (h : line.head? ≠ some ':') :
    s.line digits longest maxEventSize line =
      if maxEventSize < s.eventSize + utf8Length (fieldValue line) then .error .eventSize
      else Parser.field digits longest
        { s with eventSize := s.eventSize + utf8Length (fieldValue line) }
        (fieldName line) (fieldValue line) := by
  rw [Parser.line, if_neg h]
  rfl

/-- A line of a field stops the parser by its size, or is handled by its parts. -/
theorem FieldLine.cases {field value line : Text} {f : Fields}
    (h : FieldLine field value (stripCr line)) (hne : field ≠ []) (hcolon : ':' ∉ field)
    (s : Parser)
    (hfield : s.eventSize + lineSize line ≤ maxEventSize →
      Parser.line digits longest maxEventSize s (stripCr line) = Parser.field digits longest
        { s with eventSize := s.eventSize + lineSize line } field value →
      Parser.LineCases digits longest maxEventSize s f line) :
    stripCr line ≠ [] ∧ Parser.LineCases digits longest maxEventSize s f line := by
  obtain ⟨hblank, hhead, hname, hvalue⟩ := h.parts hne hcolon
  have hsize : lineSize line = utf8Length value := by rw [lineSize, if_neg hhead, hvalue]
  have hline := Parser.line_of_parts digits longest maxEventSize s hhead
  rw [hname, hvalue, ← hsize] at hline
  refine ⟨hblank, ?_⟩
  by_cases hover : maxEventSize < s.eventSize + lineSize line
  · exact .oversize hover (by rw [hline, if_pos hover])
  · exact hfield (Nat.le_of_not_lt hover) (by rw [hline, if_neg hover])

/-- What `aiter_sse` takes a line of a field for. -/
theorem FieldLine.digitRetry_eq {field value line : Text}
    (h : FieldLine field value (stripCr line)) (hne : field ≠ []) (hcolon : ':' ∉ field) :
    digitRetry digits line =
      if field = "retry".toList ∧ digits.isDigits value then some value else none := by
  obtain ⟨-, -, hname, hvalue⟩ := h.parts hne hcolon
  rw [digitRetry, hname, hvalue]

/-- A line of a field that is not a retry with digits stops the parser by its size or is read. -/
theorem FieldLine.cases_of_read {field value line : Text} {f : Fields}
    (h : FieldLine field value (stripCr line)) (hne : field ≠ []) (hcolon : ':' ∉ field)
    (s : Parser) (hretry : field = "retry".toList → ¬ digits.isDigits value)
    (hread : ∀ t : Parser, Parser.field digits longest t field value =
      .ok (t.after digits longest f [])) :
    stripCr line ≠ [] ∧ Parser.LineCases digits longest maxEventSize s f line := by
  have hnone : digitRetry digits line = none := by
    rw [h.digitRetry_eq hne hcolon]
    exact if_neg fun h ↦ hretry h.1 h.2
  refine h.cases hne hcolon s fun hfits hline ↦ ?_
  refine .read hfits (fun value h ↦ by rw [hnone] at h; cases h) ?_
  rw [hline, hread, Parser.after_of_not_retry s f hnone]

/-- A retry line stops the parser by its size or because `int` does not read it, or sets the
retry; without digits it does nothing. -/
theorem FieldLine.cases_of_retry {f : Fields} {line value : Text}
    (h : FieldLine "retry".toList value (stripCr line)) (hf : f = { Fields.none with
      retries := f.retries }) (s : Parser) :
    stripCr line ≠ [] ∧ Parser.LineCases digits longest maxEventSize s f line := by
  by_cases hdigits : digits.isDigits value
  · have hsome : digitRetry digits line = some value := by
      rw [h.digitRetry_eq (by decide) (by decide), if_pos ⟨rfl, hdigits⟩]
    have hfield : ∀ t, Parser.field digits longest t "retry".toList value =
        match digits.int longest value with
        | some n => .ok { t with retry := some n }
        | none => .error .int := by
      intro t
      rw [Parser.field, if_neg (by decide), if_neg (by decide),
        if_neg fun h ↦ absurd h.1 (by decide), if_pos ⟨rfl, hdigits⟩]
    refine h.cases (by decide) (by decide) s fun hfits hline ↦ ?_
    rw [hfield] at hline
    cases hint : digits.int longest value with
    | none =>
      rw [hint] at hline
      refine .unread hfits (fun hread ↦ ?_) hline
      have := hread value hsome
      rw [hint] at this
      cases this
    | some n =>
      rw [hint] at hline
      refine .read hfits (fun value' h ↦ ?_) ?_
      · rw [hsome] at h
        cases h
        rw [hint]
        rfl
      · have hretries : readRetries digits longest [line] = [n] := by
          rw [readRetries, List.filterMap_cons_some hsome, List.filterMap_cons_some hint]
          rfl
        rw [hline, Parser.after, hretries, hf]
        refine congrArg Except.ok (Parser.ext ?_ rfl rfl rfl rfl)
        exact (List.append_nil _).symm
  · refine h.cases_of_read (by decide) (by decide) s (fun _ ↦ hdigits) fun t ↦ ?_
    rw [Parser.field_ignored t (by decide) (by decide) (fun h ↦ absurd h (by decide))
      fun _ ↦ hdigits, hf]
    rfl

variable (digits longest) in
/-- A line that says `f` stops the parser by its size or its retry, or is read. -/
theorem LineFields.cases {f : Fields} {line : Text} (h : LineFields f line) (s : Parser)
    (hs : s.eventSize ≤ maxEventSize) :
    stripCr line ≠ [] ∧ Parser.LineCases digits longest maxEventSize s f line := by
  have hnot : ∀ {field value : Text}, field ≠ "retry".toList → field = "retry".toList →
      ¬ digits.isDigits value := fun hne h ↦ absurd h hne
  cases h with
  | data h =>
    exact h.cases_of_read (by decide) (by decide) s (hnot (by decide)) fun t ↦ t.field_data _
  | event h =>
    exact h.cases_of_read (by decide) (by decide) s (hnot (by decide)) fun t ↦ t.field_event _
  | id hnul h =>
    exact h.cases_of_read (by decide) (by decide) s (hnot (by decide)) fun t ↦ t.field_id hnul
  | retry _ h => exact h.cases_of_retry rfl s
  | ignorable h =>
    generalize hstripped : stripCr line = stripped at h
    cases h with
    | comment text =>
      have hhead : (stripCr line).head? = some ':' := by rw [hstripped]; rfl
      have hsize : lineSize line = 0 := by rw [lineSize, if_pos hhead]
      have hnone : digitRetry digits line = none := by
        rw [digitRetry, hstripped]
        exact if_neg fun h ↦ absurd h.1 (by simp [fieldName])
      refine ⟨by simp, .read (by omega) (fun value h ↦ by rw [hnone] at h; cases h) ?_⟩
      rw [Parser.line, if_pos hhead, ← Parser.after_of_not_retry s Fields.none hnone, hsize]
      refine congrArg Except.ok (Parser.ext ?_ rfl rfl rfl rfl)
      exact (List.append_nil _).symm
    | unknown hne hcolon hfield h =>
      subst hstripped
      simp only [knownFields, List.mem_cons, List.not_mem_nil, or_false, not_or] at hfield
      exact h.cases_of_read hne hcolon s (hnot hfield.2.2.2) fun t ↦
        t.field_ignored hfield.1 hfield.2.1 (fun h ↦ absurd h hfield.2.2.1)
          (hnot hfield.2.2.2)
    | retry _ h =>
      subst hstripped
      exact h.cases_of_retry rfl s
    | id hnul h =>
      subst hstripped
      exact h.cases_of_read (by decide) (by decide) s (hnot (by decide)) fun t ↦
        t.field_ignored (by decide) (by decide) (fun _ ↦ hnul) (hnot (by decide))

/-! ## Blocks -/

@[simp] theorem linesSize_nil : linesSize [] = 0 := rfl

/-- The retries within the bound are that of the first line and those behind it. -/
theorem readsRetries_cons {size : Nat} {line : Text} {lines : List Text} :
    ReadsRetries digits longest maxEventSize size (line :: lines) ↔
      (size + lineSize line ≤ maxEventSize → ReadsRetry digits longest line ∧
        ReadsRetries digits longest maxEventSize (size + lineSize line) lines) := by
  have hsize : ∀ before last, size + linesSize (line :: before ++ [last]) =
      size + lineSize line + linesSize (before ++ [last]) := fun before last ↦
    (Nat.add_assoc _ _ _).symm
  constructor
  · intro h hfits
    refine ⟨h [] line ⟨lines, rfl⟩ hfits, fun before last hprefix hbound ↦ ?_⟩
    exact h (line :: before) last (List.cons_prefix_cons.mpr ⟨rfl, hprefix⟩)
      (by rw [hsize]; exact hbound)
  · intro h before last hprefix hbound
    cases before with
    | nil =>
      obtain ⟨rfl, -⟩ := List.cons_prefix_cons.mp hprefix
      exact (h hbound).1
    | cons first before =>
      obtain ⟨rfl, htail⟩ := List.cons_prefix_cons.mp hprefix
      rw [hsize] at hbound
      exact (h (by omega)).2 before last htail hbound

variable (digits longest) in
/-- Lines that say `f` end the parser on a retry `int` does not read or on the size bound, or
leave it what they say. -/
theorem Encodes.run_append {f : Fields} {lines : List Text} (h : Encodes f lines) (s : Parser)
    (hs : s.eventSize ≤ maxEventSize) (rest : List Text) :
    (¬ ReadsRetries digits longest maxEventSize s.eventSize lines →
      s.run digits longest maxEventSize (lines ++ rest) = ⟨[], some .int⟩) ∧
    (ReadsRetries digits longest maxEventSize s.eventSize lines →
      s.run digits longest maxEventSize (lines ++ rest) =
        if maxEventSize < s.eventSize + linesSize lines then ⟨[], some .eventSize⟩
        else (s.after digits longest f lines).run digits longest maxEventSize rest) := by
  induction h generalizing s with
  | nil =>
    constructor
    · intro hunread
      exact absurd (fun before line h ↦ by simp at h) hunread
    · intro _
      have hafter : s.after digits longest Fields.none [] = s :=
        Parser.ext (List.append_nil _) rfl rfl rfl rfl
      rw [hafter, List.nil_append, linesSize_nil, Nat.add_zero, if_neg (Nat.not_lt.mpr hs)]
  | @cons f g line lines hline _ ih =>
    have hsize : linesSize (line :: lines) = lineSize line + linesSize lines := rfl
    obtain ⟨hblank, hcases⟩ := hline.cases digits longest s hs
    rw [readsRetries_cons, List.cons_append, Parser.run, if_neg hblank, hsize]
    cases hcases with
    | oversize hover herror =>
      rw [herror, if_pos (by omega)]
      exact ⟨fun h ↦ absurd (fun hfits ↦ by omega) h, fun _ ↦ rfl⟩
    | unread hfits hunread herror =>
      rw [herror]
      exact ⟨fun _ ↦ rfl, fun h ↦ absurd (h hfits).1 hunread⟩
    | read hfits hread hok =>
      obtain ⟨hbad, hgood⟩ := ih (s.after digits longest f [line]) hfits
      rw [hok, ← Nat.add_assoc, ← Parser.after_append]
      exact ⟨fun h ↦ hbad fun hrest ↦ h fun _ ↦ ⟨hread, hrest⟩, fun h ↦ hgood (h hfits).2⟩

/-- The parser at the start of a block. -/
def Parser.start (lastId : Option Text) : Parser := { Parser.initial with eventId := lastId }

/-- The last of some values, if there is one. -/
theorem foldl_some {α : Type} (l : List α) (o : Option α) :
    l.foldl (fun _ a ↦ some a) o = l.getLast?.or o := by
  induction l using List.reverseRecOn with
  | nil => rfl
  | append_singleton l a _ => simp

variable (digits longest) in
/-- What the lines of a block leave at its blank line. -/
theorem Parser.after_start (b : Block) (lastId : Option Text) :
    (Parser.after digits longest (Parser.start lastId) (b.event.elim Fields.none ServerEvent.fields)
        b.lines).event =
      b.event.map (fun e ↦
        { e.decoded lastId with retry := (readRetries digits longest b.lines).getLast? }) ∧
    (Parser.after digits longest (Parser.start lastId) (b.event.elim Fields.none ServerEvent.fields)
        b.lines).reset = Parser.start (b.lastId lastId) := by
  cases hevent : b.event with
  | none =>
    refine ⟨rfl, ?_⟩
    rw [Block.lastId, hevent]
    rfl
  | some e =>
    have hid : e.id.toList.foldl (fun _ id ↦ some id) lastId = e.id.or lastId := by
      cases e.id <;> rfl
    constructor
    · have hdata : e.data.splitOn '\n' ≠ [] := List.splitOn_ne_nil _ _
      have hjoin : joinLines (e.data.splitOn '\n') = e.data := List.intercalate_splitOn _
      refine (if_neg hdata).trans (congrArg some (SSEEvent.ext hjoin ?_ hid ?_))
      · show e.event.toList.foldl _ _ = if e.event.getD [] = [] then _ else e.event.getD []
        cases e.event with
        | none => exact (if_pos rfl).symm
        | some name => rfl
      · show (readRetries digits longest b.lines).foldl _ none = _
        rw [foldl_some, Option.or_none]
    · rw [Block.lastId, hevent]
      show Parser.start (e.id.toList.foldl (fun _ id ↦ some id) lastId) = _
      rw [hid]
      rfl

/-- The lines of a block end the parser on a retry `int` does not read or on the size bound, or
leave it what they say. -/
theorem Encodes.run_start {f : Fields} {lines : List Text} (h : Encodes f lines)
    (digits : Digits) (longest : Option Nat) (maxEventSize : Nat) (lastId : Option Text)
    (rest : List Text) :
    (¬ ReadsRetries digits longest maxEventSize 0 lines →
      (Parser.start lastId).run digits longest maxEventSize (lines ++ rest) = ⟨[], some .int⟩) ∧
    (ReadsRetries digits longest maxEventSize 0 lines →
      (Parser.start lastId).run digits longest maxEventSize (lines ++ rest) =
        if maxEventSize < linesSize lines then ⟨[], some .eventSize⟩
        else ((Parser.start lastId).after digits longest f lines).run digits longest maxEventSize
          rest) := by
  have hrun := h.run_append digits longest (Parser.start lastId)
    (Nat.zero_le maxEventSize) rest
  have hzero : (Parser.start lastId).eventSize = 0 := rfl
  rw [hzero, Nat.zero_add] at hrun
  exact hrun

/-- A block that is read yields its event, with the last retry of its lines. -/
theorem Parser.run_block (b : Block) (lastId : Option Text) (rest : List Text)
    (hread : ReadsRetries digits longest maxEventSize 0 b.lines)
    (hfits : linesSize b.lines ≤ maxEventSize) :
    (Parser.start lastId).run digits longest maxEventSize (b.lines ++ b.blank :: rest) =
      let yielded := (Parser.start (b.lastId lastId)).run digits longest maxEventSize rest
      { yielded with
        events := (b.event.map fun e ↦ { e.decoded lastId with
          retry := (readRetries digits longest b.lines).getLast? }).toList ++ yielded.events } := by
  obtain ⟨hevent, hreset⟩ := Parser.after_start digits longest b lastId
  rw [(b.encodes.run_start digits longest maxEventSize lastId _).2 hread,
    if_neg (Nat.not_lt.mpr hfits), Parser.run, if_pos b.isBlank, hevent, hreset]

/-- Two yields with a first event each are equal if their first events and their rests are. -/
theorem Yielded.cons_inj {x y : SSEEvent} {s t : Yielded} :
    ({ s with events := x :: s.events } : Yielded) = { t with events := y :: t.events } ↔
      x = y ∧ s = t := by
  cases s
  cases t
  simp only [Yielded.mk.injEq, List.cons.injEq, and_assoc]

/-- No stream is to yield the error of `int`. -/
theorem decodedBlocks_error (tail : List Text) (blocks : List Block) (lastId : Option Text) :
    (decodedBlocks maxEventSize tail lastId blocks).error ≠ some .int := by
  induction blocks generalizing lastId with
  | nil =>
    rw [decodedBlocks]
    split <;> simp
  | cons b rest ih =>
    rw [decodedBlocks]
    split
    · simp
    · exact ih _

/-- Blocks yield their events if and only if their retries agree. -/
theorem Parser.run_blocks_iff {tail : List Text} (htail : Encodes Fields.none tail)
    (blocks : List Block) (lastId : Option Text) :
    (Parser.start lastId).run digits longest maxEventSize (blocks.flatMap Block.text ++ tail) =
        decodedBlocks maxEventSize tail lastId blocks ↔
      RetriesAgree digits longest maxEventSize tail blocks := by
  induction blocks generalizing lastId with
  | nil =>
    obtain ⟨hbad, hgood⟩ := htail.run_start digits longest maxEventSize lastId []
    rw [List.append_nil] at hbad hgood
    rw [List.flatMap_nil, List.nil_append, RetriesAgree]
    by_cases hread : ReadsRetries digits longest maxEventSize 0 tail
    · refine iff_of_true ?_ hread
      rw [hgood hread, decodedBlocks]
      split <;> rfl
    · rw [hbad hread]
      refine iff_of_false (fun h ↦ ?_) hread
      exact decodedBlocks_error tail [] lastId (congrArg Yielded.error h).symm
  | cons b rest ih =>
    have hrun := b.encodes.run_start digits longest maxEventSize lastId
    rw [List.flatMap_cons, List.append_assoc, RetriesAgree, Block.text, List.append_assoc,
      List.singleton_append]
    by_cases hread : ReadsRetries digits longest maxEventSize 0 b.lines
    · by_cases hfits : linesSize b.lines ≤ maxEventSize
      · rw [Parser.run_block b lastId _ hread hfits, decodedBlocks,
          if_neg (Nat.not_lt.mpr hfits), and_iff_right hread, forall_prop_of_true hfits,
          ← ih (b.lastId lastId)]
        cases hevent : b.event with
        | none =>
          rw [and_iff_right fun e h ↦ by cases h]
          exact Iff.rfl
        | some e =>
          have hretry : ({ e.decoded lastId with
              retry := (readRetries digits longest b.lines).getLast? } : SSEEvent) =
                e.decoded lastId ↔
              (readRetries digits longest b.lines).getLast? = e.retry.map decimalValue :=
            ⟨congrArg SSEEvent.retry, fun h ↦ SSEEvent.ext rfl rfl rfl h⟩
          have hevents : (∀ e', some e = some e' →
              (readRetries digits longest b.lines).getLast? = e'.retry.map decimalValue) ↔
                (readRetries digits longest b.lines).getLast? = e.retry.map decimalValue :=
            ⟨fun h ↦ h e rfl, fun h e' he ↦ by cases he; exact h⟩
          rw [hevents, ← hretry]
          exact Yielded.cons_inj
      · rw [and_iff_right hread, iff_true_right fun h ↦ absurd h hfits,
          (hrun _).2 hread, decodedBlocks, if_pos (Nat.lt_of_not_le hfits),
          if_pos (Nat.lt_of_not_le hfits)]
    · rw [(hrun _).1 hread]
      exact iff_of_false (fun h ↦ decodedBlocks_error tail (b :: rest) lastId
        (congrArg Yielded.error h).symm) fun h ↦ hread h.1

/-- Decoding is faithful to a stream of encoded events if and only if `int` reads every retry with
digits within the size bound, and the last one of an event's lines is its own. -/
theorem aiterSse_faithful_iff (digits : Digits) (longest : Option Nat) (maxEventSize : Nat)
    (stream : EncodedStream) :
    aiterSse digits longest maxEventSize stream.lines = stream.decoded maxEventSize ↔
      RetriesAgree digits longest maxEventSize stream.tail stream.blocks :=
  Parser.run_blocks_iff stream.encodes stream.blocks none

/-- The ASCII digits, and a superscript two. -/
def superscriptDigits : Digits where
  isDigit c := c.isDigit || c = '²'
  decimal c := if c.isDigit then some (c.toNat - 48) else none
  ascii c h := by
    have hne : c ≠ '²' := by
      rintro rfl
      exact absurd h (by decide)
    exact ⟨by simp [hne], rfl⟩
  isDigit_of_decimal c n h := by
    by_cases hc : c.isDigit = true
    · simp [hc]
    · rw [if_neg hc] at h
      cases h

/-- An event behind an ignorable retry, a superscript two. -/
def superscriptRetry : EncodedStream where
  blocks := [{
    event := some { data := "a".toList, event := none, id := none, retry := none }
    lines := ["data: a".toList, "retry: ²".toList]
    blank := []
    encodes := by
      have hdigits : ¬ IsAsciiDigits "²".toList := fun h ↦ absurd (h.2 '²' (by decide)) (by decide)
      exact .cons (.data (.spaced _)) (.cons (.ignorable (.retry hdigits (.spaced _))) .nil)
    isBlank := rfl }]
  tail := []
  encodes := .nil

/-- The event is not yielded, and the error is that of `int`. -/
theorem aiterSse_superscriptRetry :
    aiterSse superscriptDigits (some 4300) 1048576 superscriptRetry.lines = ⟨[], some .int⟩ ∧
      superscriptRetry.decoded 1048576 =
        ⟨[⟨"a".toList, "message".toList, none, none⟩], none⟩ := by
  decide

end ScrapyCffi.Responses
