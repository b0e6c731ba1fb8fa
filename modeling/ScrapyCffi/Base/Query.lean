import ScrapyCffi.Base.Percent

/-!
# Query strings

`parse_qsl(…, keep_blank_values=True)` and `urlencode` of pairs of strings, of `urllib.parse`.
-/

namespace ScrapyCffi.Base

open Percent

/-- One turn of the loop in `parse_qsl`. -/
def parseField (piece : List Char) : Option (String × String) :=
  if piece = [] then none
  else some (String.ofList (unquotePlus (piece.takeWhile (· ≠ '='))),
    String.ofList (unquotePlus (piece.dropWhile (· ≠ '=')).tail))

/-- `parse_qsl(query, keep_blank_values=True)`. -/
def parseQsl (query : List Char) : List (String × String) :=
  (query.splitOn '&').filterMap parseField

/-- One pair in `urlencode`. -/
def encodeField (pair : String × String) : List Char :=
  quotePlus pair.1.toList ++ '=' :: quotePlus pair.2.toList

/-- `urlencode(pairs)`. -/
def urlencode (pairs : List (String × String)) : List Char :=
  ['&'].intercalate (pairs.map encodeField)

@[simp] theorem parseQsl_nil : parseQsl [] = [] := rfl

/-- The pairs of two queries joined by a separator. -/
theorem parseQsl_append (left right : List Char) :
    parseQsl (left ++ '&' :: right) = parseQsl left ++ parseQsl right := by
  rw [parseQsl, List.splitOn_append_cons_self, List.filterMap_append]
  rfl

/-- The pairs of queries joined by separators. -/
theorem parseQsl_intercalate (pieces : List (List Char)) :
    parseQsl (['&'].intercalate pieces) = pieces.flatMap parseQsl := by
  induction pieces with
  | nil => rfl
  | cons piece rest ih =>
    cases rest with
    | nil => rw [List.intercalate_singleton, List.flatMap_singleton]
    | cons next rest =>
      rw [List.intercalate_cons_cons, List.append_assoc, List.singleton_append, parseQsl_append, ih]
      rfl

/-- No character of a quoted text is another one than those. -/
theorem not_mem_quotePlus {text : List Char} {c : Char} (hc : isQuoted c = false) :
    c ∉ quotePlus text := by
  intro hmem
  rw [quotePlus_quoted hmem] at hc
  cases hc

/-- What is in joined pieces is the separator or is in one of them. -/
theorem mem_intercalate {sep c : Char} {pieces : List (List Char)}
    (hc : c ∈ [sep].intercalate pieces) : c = sep ∨ ∃ piece ∈ pieces, c ∈ piece := by
  induction pieces with
  | nil => cases hc
  | cons piece rest ih =>
    cases rest with
    | nil =>
      rw [List.intercalate_singleton] at hc
      exact .inr ⟨piece, List.mem_cons_self, hc⟩
    | cons next rest =>
      rw [List.intercalate_cons_cons, List.append_assoc, List.singleton_append, List.mem_append,
        List.mem_cons] at hc
      rcases hc with hc | hc | hc
      · exact .inr ⟨piece, List.mem_cons_self, hc⟩
      · exact .inl hc
      · exact (ih hc).imp_right fun ⟨other, hother, hc⟩ ↦ ⟨other, .tail piece hother, hc⟩

/-- The characters of an encoded query. -/
theorem mem_urlencode {pairs : List (String × String)} {c : Char} (hc : c ∈ urlencode pairs) :
    isQuoted c = true ∨ c = '=' ∨ c = '&' := by
  rcases mem_intercalate hc with hc | ⟨piece, hpiece, hc⟩
  · exact .inr (.inr hc)
  · obtain ⟨pair, -, rfl⟩ := List.mem_map.mp hpiece
    rw [encodeField, List.mem_append, List.mem_cons] at hc
    rcases hc with hc | hc | hc
    · exact .inl (quotePlus_quoted hc)
    · exact .inr (.inl hc)
    · exact .inl (quotePlus_quoted hc)

/-- A pair is read back. -/
theorem parseQsl_encodeField (pair : String × String) : parseQsl (encodeField pair) = [pair] := by
  have hname : '=' ∉ quotePlus pair.1.toList := not_mem_quotePlus rfl
  have hseparator : '&' ∉ encodeField pair := by
    rw [encodeField, List.mem_append, List.mem_cons, not_or, not_or]
    exact ⟨not_mem_quotePlus rfl, by decide, not_mem_quotePlus rfl⟩
  have hne : encodeField pair ≠ [] := by simp [encodeField]
  have hequals : ∀ c ∈ quotePlus pair.1.toList, decide (c ≠ '=') = true := by
    intro c hc
    apply decide_eq_true
    rintro rfl
    exact hname hc
  rw [parseQsl, List.splitOn_eq_singleton hseparator, List.filterMap_cons, parseField, if_neg hne,
    encodeField, List.takeWhile_append_of_pos hequals, List.dropWhile_append_of_pos hequals]
  simp

/-- Pairs are read back. -/
@[simp] theorem parseQsl_urlencode (pairs : List (String × String)) :
    parseQsl (urlencode pairs) = pairs := by
  rw [urlencode, parseQsl_intercalate, List.flatMap_map]
  simp only [parseQsl_encodeField, List.flatMap_singleton']

/-- Different pairs are encoded differently. -/
theorem urlencode_injective {pairs more : List (String × String)}
    (h : urlencode pairs = urlencode more) : pairs = more := by
  rw [← parseQsl_urlencode pairs, h, parseQsl_urlencode]

end ScrapyCffi.Base
