import ScrapyCffi.Protobuf.Api

/-!
# Messages that are never decoded to the end

`_group_by_number` takes a length of 2^63 or more for a negative one. Where such a length leads
back to the beginning of a field, the fields from there on are read again and again.
-/

namespace ScrapyCffi.Protobuf

open ScrapyCffi.Base

variable {floats : Floats} {config : Config}

/-- A length that leads back to the beginning of a field. -/
theorem readField_back {buf : Bytes} (path : List Text) {grouped : Grouped} {pos n back : Nat}
    (hn : n < 2 ^ 61) (hpos : pos ≤ buf.length)
    (hback : back + (Base128.bytes (8 * n + lengthDelimitedType)).length + 10 ≤ 2 ^ 63)
    (hle : back ≤ pos) {rest : Bytes}
    (h : buf.drop pos = Base128.bytes (8 * n + lengthDelimitedType) ++
      (Base128.bytes (2 ^ 64 -
        (back + (Base128.bytes (8 * n + lengthDelimitedType)).length + 10)) ++
        rest))
    (hknown : ∀ known contents, Dict.lookup (str n) grouped = some (known, contents) →
      known = lengthDelimitedType) :
    ∃ content, readField buf buf.length path grouped pos =
      .ok (n, lengthDelimitedType, content, ((pos - back : Nat) : Int)) := by
  obtain ⟨tag, htag⟩ : ∃ tag, tag = Base128.bytes (8 * n + lengthDelimitedType) := ⟨_, rfl⟩
  rw [← htag] at h hback
  obtain ⟨big, hbig⟩ : ∃ big, big = 2 ^ 64 - (back + tag.length + 10) := ⟨_, rfl⟩
  rw [← hbig] at h
  have hlow : 128 ^ 9 ≤ big := by
    rw [hbig]
    omega
  have hhigh : big < 2 ^ 64 := by omega
  have hlength : (Base128.bytes big).length = 10 := by
    have hgt := Base128.lt_length_bytes hlow
    have hle := Base128.length_bytes_le (show big < 128 ^ (9 + 1) by omega)
    omega
  have hcount := congrArg List.length h
  rw [List.length_drop, List.length_append, List.length_append] at hcount
  have hread : decodeTag buf pos =
      .ok (n, lengthDelimitedType, ((pos + tag.length : Nat) : Int)) := by
    rw [decodeTag_eq_ok_iff hpos, ← htag]
    exact ⟨hn, by decide, by rw [h]; exact List.prefix_append _ _, rfl⟩
  have hdrop : buf.drop (pos + tag.length) = Base128.bytes big ++ rest := by
    rw [← List.drop_drop, h, List.drop_left]
  have hvarint : decodeVarint buf (pos + tag.length : Nat) =
      .ok (signed big, ((pos + tag.length + 10 : Nat) : Int)) := by
    rw [decodeVarint_eq_ok_iff (by omega)]
    refine ⟨big, ?_, rfl⟩
    rw [decodeUvarint_eq_ok_iff (by omega), hlength, hdrop]
    exact ⟨hhigh, List.prefix_append _ _, rfl⟩
  have hsigned : signed big = -((back + tag.length + 10 : Nat) : Int) := by
    rw [signed_of_le (by omega) hhigh]
    omega
  have hcontent : contentLength buf (pos + tag.length : Nat) lengthDelimitedType
      (path ++ [str n]) = .ok (-((back + tag.length : Nat) : Int)) := by
    rw [contentLength, if_neg (by decide), if_neg (by decide), if_neg (by decide), if_pos rfl,
      hvarint, hsigned]
    show Except.ok _ = _
    congr 1
    omega
  have hnext : ((pos + tag.length : Nat) : Int) + -((back + tag.length : Nat) : Int) =
      ((pos - back : Nat) : Int) := by omega
  rw [readField, hread]
  simp only [bind, Except.bind, checkWireType_eq_ok_iff.mpr hknown, hcontent]
  rw [hnext, if_neg (by omega)]
  exact ⟨_, rfl⟩

/-! ### Going in circles -/

/-- A field without content in the place of one whose length leads back. -/
def WireField.blank (number : Nat) (small : number < 2 ^ 61) : WireField :=
  ⟨number, .lengthDelimited [] (Nat.two_pow_pos 63), small⟩

/-- A message with a length that leads back from behind some of its fields to before them. -/
structure Circle where
  front : List WireField
  cycle : List WireField
  number : Nat
  small : number < 2 ^ 61
  consistent : Consistent (front ++ cycle ++ [.blank number small])
  back : (serialize cycle).length +
    (Base128.bytes (8 * number + lengthDelimitedType)).length + 10 ≤ 2 ^ 63
  rest : Bytes

namespace Circle

variable (c : Circle)

/-- The tag and the length that lead back, and what is behind them. -/
def tail : Bytes :=
  Base128.bytes (8 * c.number + lengthDelimitedType) ++
    (Base128.bytes (2 ^ 64 - ((serialize c.cycle).length +
      (Base128.bytes (8 * c.number + lengthDelimitedType)).length + 10)) ++ c.rest)

def bytes : Bytes := serialize c.front ++ (serialize c.cycle ++ c.tail)

/-- The fields, and one in the place of that which leads back. -/
def fields : List WireField :=
  c.front ++ c.cycle ++ [.blank c.number c.small]

/-- From where it leads back to, it goes on for as long as there is fuel. -/
theorem groupByNumber_cycle {buf : Bytes} {pos : Nat} (hpos : pos ≤ buf.length)
    (h : buf.drop pos = serialize c.cycle ++ c.tail) (path : List Text) {grouped : Grouped}
    (hfits : Fits c.fields grouped) (order : List Text) (fuel : Nat) :
    groupByNumber buf buf.length path fuel grouped order pos = .error .unfinished := by
  induction fuel using Nat.strong_induction_on generalizing grouped order with
  | _ fuel ih =>
    have hcount := congrArg List.length h
    have htag := Base128.length_bytes_pos (8 * c.number + lengthDelimitedType)
    rw [List.length_drop, List.length_append, tail, List.length_append] at hcount
    have hdrop : buf.drop (pos + (serialize c.cycle).length) = c.tail := by
      rw [← List.drop_drop, h, List.drop_left]
    have hmem : ∀ f ∈ c.cycle, f ∈ c.fields := fun f hf ↦ by simp [fields, hf]
    rcases groupByNumber_run path c.consistent hmem hpos h hfits order fuel with
      hout | ⟨fuel', grouped', order', hle, hfits', heq⟩
    · exact hout
    · rw [heq]
      obtain ⟨content, hread⟩ := readField_back path c.small
        (by omega) c.back (by omega) hdrop
        (hfits' (.blank c.number c.small) (by simp))
      rw [Nat.add_sub_cancel] at hread
      cases fuel' with
      | zero => rw [groupByNumber, if_pos (by omega)]
      | succ fuel' =>
        have hadded := hfits'.addContent c.consistent
          (f := .blank c.number c.small) (by simp) content
        rw [groupByNumber, if_pos (by omega), hread]
        exact ih fuel' (by omega) hadded (order' ++ [str c.number])

/-- The split of such a message never ends. -/
theorem groupByNumber_bytes {buf : Bytes} {pos : Nat} (hpos : pos ≤ buf.length)
    (h : buf.drop pos = c.bytes) (path : List Text) (fuel : Nat) :
    groupByNumber buf buf.length path fuel [] [] pos = .error .unfinished := by
  have hcount := congrArg List.length h
  rw [List.length_drop, bytes, List.length_append] at hcount
  have hdrop : buf.drop (pos + (serialize c.front).length) = serialize c.cycle ++ c.tail := by
    rw [← List.drop_drop, h, bytes, List.drop_left]
  have hmem : ∀ f ∈ c.front, f ∈ c.fields := fun f hf ↦ by simp [fields, hf]
  rcases groupByNumber_run path c.consistent hmem hpos h (fits_nil _) [] fuel with
    hout | ⟨fuel', grouped', order', -, hfits, heq⟩
  · exact hout
  · rw [heq]
    exact c.groupByNumber_cycle (by omega) hdrop path hfits order' fuel'

end Circle

/-! ### What is nested -/

/-- Messages that are never decoded to the end: circles, and messages whose first field holds one
of these. -/
inductive Endless : Bytes → Prop
  | circle (c : Circle) : Endless c.bytes
  | nested {number : Nat} {small : number < 2 ^ 61} {payload : Bytes}
    (short : payload.length < 2 ^ 63)
      (h : Endless payload) {fs : List WireField}
      (consistent : Consistent (⟨number, .lengthDelimited payload short, small⟩ :: fs)) :
      Endless (serialize (⟨number, .lengthDelimited payload short, small⟩ :: fs))

/-- The first number of a message stands first, with its first field. -/
theorem exists_fieldsOf_cons (f : WireField) (fs : List WireField) :
    ∃ others more, fieldsOf (f :: fs) = (f.number, f :: others) :: more := by
  induction fs using List.reverseRecOn with
  | nil => exact ⟨[], [], rfl⟩
  | append_singleton fs g ih =>
    obtain ⟨others, more, heq⟩ := ih
    rw [← List.cons_append, fieldsOf_append, heq, Multimap.extend, Multimap.under, Dict.lookup,
      Dict.assign]
    by_cases hnumber : f.number = g.number
    · rw [if_pos hnumber, if_pos hnumber]
      exact ⟨others ++ [g], more, rfl⟩
    · rw [if_neg hnumber, if_neg hnumber]
      exact ⟨others, _, rfl⟩

/-- A first field whose content is never decoded to the end. -/
theorem decodeGroup_unfinished {nested : Nested} {path : List Text} {number : Nat} {content : Bytes}
    {others : List Bytes} (h : nested content .empty = .error .unfinished) :
    decodeGroup floats config nested path (.fresh (str number))
      (str number, lengthDelimitedType, content :: others) = .error .unfinished := by
  have hcontent : ∀ s : LendelimState, s.fieldTypes = [] →
      decodeContent nested s content = .error .unfinished := by
    intro s hs
    rw [decodeContent, hs]
    show (decodeAnonymous nested s.nextAltTypeId content >>= _) = _
    rw [decodeAnonymous, h]
    rfl
  have hmessages : decodeMessages config nested (content :: others) (.fresh (str number))
      (path ++ [str number]) = .error .unfinished := by
    show ((content :: others).foldlM (decodeContent nested) ⟨[], [], [], 0⟩ >>= _) = _
    rw [List.foldlM_cons, hcontent _ rfl]
    rfl
  show tryDecodeLendelimFields floats config nested (content :: others) (.fresh (str number))
    (path ++ [str number]) = _
  rw [tryDecodeLendelimFields, hmessages]

/-- A message whose first field is never decoded to the end. -/
theorem decodeBetween_unfinished {nested : Nested} {fuel pos : Nat} {buf : Bytes}
    (hpos : pos ≤ buf.length) {number : Nat} {small : number < 2 ^ 61} {payload : Bytes}
    {short : payload.length < 2 ^ 63} {fs : List WireField}
    (hconsistent : Consistent (⟨number, .lengthDelimited payload short, small⟩ :: fs))
    (hbuf : buf.drop pos = serialize (⟨number, .lengthDelimited payload short, small⟩ :: fs))
    (h : nested (Content.lengthDelimited payload short).bytes .empty = .error .unfinished)
    (path : List Text) :
    decodeBetween floats config nested fuel buf .empty pos buf.length path =
      .error .unfinished := by
  by_cases hfuel : (⟨number, .lengthDelimited payload short, small⟩ :: fs :
    List WireField).length ≤ fuel
  · have hsplit := groupByNumber_serialize path hpos hbuf hconsistent hfuel
    obtain ⟨others, more, hfields⟩ :=
      exists_fieldsOf_cons ⟨number, .lengthDelimited payload short, small⟩ fs
    rw [hfields] at hsplit
    have hround : decodeField floats config nested path ⟨[], [], TypeDef.empty.makeMutable⟩
        (str number, lengthDelimitedType, (Content.lengthDelimited payload short).bytes ::
          others.map fun f ↦ f.content.bytes) = .error .unfinished := by
      apply bind_eq_error.mpr
      left
      exact decodeGroup_unfinished h
    refine bind_eq_error.mpr (.inr ⟨_, hsplit, bind_eq_error.mpr (.inl ?_)⟩)
    rw [toGrouped, List.map_cons, List.foldlM_cons]
    exact bind_eq_error.mpr (.inl hround)
  · rw [decodeBetween, groupByNumber_of_few path hpos hbuf hconsistent (fun f hf ↦ hf)
      (fits_nil _) (by omega)]
    rfl

theorem decodeBetween_endless {m : Bytes} (h : Endless m) {buf : Bytes} {pos : Nat}
    (hpos : pos ≤ buf.length) (hbuf : buf.drop pos = m) (depth fuel : Nat) (path : List Text) :
    decodeBetween floats config (decodeLendelimMessage floats config depth) fuel buf .empty pos
      buf.length path = .error .unfinished := by
  induction h generalizing buf pos depth fuel path with
  | circle c => exact bind_eq_error.mpr (.inl (c.groupByNumber_bytes hpos hbuf path fuel))
  | @nested number small payload short _ fs consistent ih =>
    apply decodeBetween_unfinished hpos consistent hbuf
    cases depth with
    | zero => rfl
    | succ depth =>
      have hlength : (Base128.bytes payload.length).length ≤
          (Content.lengthDelimited payload short).bytes.length := by
        rw [Content.bytes, List.length_append]
        omega
      have hdrop : (Content.lengthDelimited payload short).bytes.drop
          (Base128.bytes payload.length).length = payload := by
        rw [Content.bytes, List.drop_left]
      rw [decodeLendelimMessage_succ, ih hlength hdrop depth depth []]
      rfl

/-- Decoding such a message never returns and raises nothing, however long it goes on. -/
theorem decodeMessage_unfinished (floats : Floats) (config : Config) {m : Bytes} (h : Endless m)
    (fuel : Nat) : decodeMessage floats config fuel m .empty = .error .unfinished := by
  apply bind_eq_error.mpr
  left
  exact decodeBetween_endless h (Nat.zero_le m.length) List.drop_zero fuel fuel []

theorem consistent_singleton (f : WireField) : Consistent [f] := by
  intro g hg g' hg' _
  rw [List.mem_singleton.mp hg, List.mem_singleton.mp hg']

theorem length_back_one :
    (serialize []).length + (Base128.bytes (8 * 1 + lengthDelimitedType)).length + 10 ≤ 2 ^ 63 := by
  rw [Base128.bytes_of_lt (by decide)]
  decide

theorem one_lt_numbers : 1 < 2 ^ 61 := by decide

/-- A field of number 1 whose length leads back to its own tag. -/
def Circle.own : Circle where
  front := []
  cycle := []
  number := 1
  small := one_lt_numbers
  consistent := consistent_singleton _
  back := length_back_one
  rest := []

theorem Circle.bytes_own : own.bytes = [10, 245, 255, 255, 255, 255, 255, 255, 255, 255, 1] := by
  simp [own, bytes, tail, Base128.bytes, lengthDelimitedType]

end ScrapyCffi.Protobuf
