import ScrapyCffi.Base.Percent

/-!
# Strict UTF-8

`bytes.decode("utf-8")` with its default error handler. A text is the list of its characters.
-/

namespace ScrapyCffi.Base

open Percent

/-- The text that some bytes encode, if they encode one. -/
def decodeUtf8 : List UInt8 → Option (List Char)
  | [] => some []
  | b :: rest =>
    match (b :: rest).toByteArray.utf8DecodeChar? 0 with
    | none => none
    | some c => (decodeUtf8 (rest.drop (c.utf8Size - 1))).map (c :: ·)
termination_by data => data.length
decreasing_by
  rw [List.length_drop, List.length_cons]
  omega

/-- Decoding loses nothing. -/
theorem encodeUtf8_of_decodeUtf8 {b : List UInt8} {text : List Char} (h : decodeUtf8 b = some text) :
    encodeUtf8 text = b := by
  induction hn : b.length using Nat.strongRecOn generalizing b text with
  | ind n ih =>
    cases b with
    | nil =>
      rw [decodeUtf8] at h
      cases h
      rfl
    | cons byte rest =>
      rw [decodeUtf8] at h
      split at h
      · cases h
      · next c hc =>
        obtain ⟨tail, htail, rfl⟩ := Option.map_eq_some_iff.mp h
        obtain ⟨more, hmore⟩ := ByteArray.exists_of_utf8DecodeChar?_eq_some hc
        have hbytes : byte :: rest = String.utf8EncodeChar c ++ more.data.toList := by
          have hlist := congrArg (fun a : ByteArray ↦ a.data.toList) hmore
          simpa [List.utf8Encode_singleton] using hlist
        have hlength : (String.utf8EncodeChar c).length = c.utf8Size :=
          String.length_utf8EncodeChar c
        have hpos : 0 < c.utf8Size := c.utf8Size_pos
        have hdrop : rest.drop (c.utf8Size - 1) = more.data.toList := by
          have hsucc : c.utf8Size = c.utf8Size - 1 + 1 := by omega
          rw [← List.drop_succ_cons (a := byte), ← hsucc, hbytes, ← hlength, List.drop_left]
        rw [hdrop] at htail
        have hshort : more.data.toList.length < n := by
          rw [← hn, hbytes, List.length_append]
          omega
        have htext := ih _ hshort htail rfl
        rw [encodeUtf8, List.flatMap_cons, hbytes]
        exact congrArg _ htext

end ScrapyCffi.Base
