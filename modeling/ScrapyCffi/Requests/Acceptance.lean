import ScrapyCffi.Requests.RoundTrip

/-!
# What is accepted as scheduler state

`decode_state` (`utils/state_codec.py:35–64`) over the contract of `zlib.decompressobj`: one call
of `decompress` with a bound, its `unconsumed_tail`, `unused_data` and `eof`, and `flush`.
-/

namespace ScrapyCffi.Requests

open ScrapyCffi.Base

/-- How the stream in compressed data ends: before some bytes that follow it, not at all, or in
an error. -/
inductive StreamEnd
  | complete (rest : List UInt8)
  | unfinished
  | corrupt
  deriving DecidableEq

variable {φ : Type}

/-- The contract of `zlib`, where `stream` is all that data decompress to and how they end. Output
that does not reach the bound is all of it: then nothing is left to consume or to flush, `eof`
tells whether the stream is complete, and corrupt data raise. -/
structure Codec.Incremental (codec : Codec φ) (stream : List UInt8 → List UInt8 × StreamEnd) :
    Prop where
  compress : ∀ level raw data, codec.compress level raw = .ok data →
    stream data = (raw, .complete [])
  raises : ∀ data bound e, codec.decompress data bound = .error e → (stream data).2 = .corrupt
  bounded : ∀ data bound inflated, codec.decompress data bound = .ok inflated →
    inflated.data = (stream data).1.take bound
  whole : ∀ data bound inflated, codec.decompress data bound = .ok inflated →
    (stream data).1.length < bound →
    inflated.unconsumedTail = [] ∧ (∀ length, inflated.flush length = []) ∧
    match (stream data).2 with
    | .complete rest => inflated.eof = true ∧ inflated.unusedData = rest
    | .unfinished => inflated.eof = false
    | .corrupt => False

/-- How many bytes the calls of `decompress` and `flush` in `decode_state` give. -/
def decompressedBytes (codec : Codec φ) (data : List UInt8) (maxSize : Nat) : Nat :=
  match codec.decompress data (maxSize + 1) with
  | .error _ => 0
  | .ok inflated =>
    if maxSize < inflated.data.length ∨ inflated.unconsumedTail ≠ [] then inflated.data.length
    else inflated.data.length + (inflated.flush (maxSize + 1 - inflated.data.length)).length

/-- The text that bytes decode to encodes to them. -/
theorem utf8Decode_eq_ok {data : List UInt8} {text : List Char} :
    utf8Decode data = .ok text ↔ data = utf8Encode text := by
  constructor
  · intro h
    rw [utf8Decode] at h
    cases hchars : data.toByteArray.utf8Decode? with
    | none => simp [hchars] at h
    | some chars =>
      rw [hchars] at h
      cases h
      have hsome : data.toByteArray.utf8Decode?.isSome := by rw [hchars]; rfl
      have hbytes := ByteArray.utf8Encode_get_utf8Decode? (h := hsome)
      simp only [hchars, Option.get_some] at hbytes
      have hdata := congrArg (fun b ↦ b.data.toList) hbytes
      simpa [utf8Encode, List.utf8Encode] using hdata.symm
  · rintro rfl
    exact utf8Decode_encode text

variable {codec : Codec φ} {stream : List UInt8 → List UInt8 × StreamEnd}

/-- A call with a bound that returns gives at most as many bytes. -/
theorem Codec.Incremental.length_le (h : codec.Incremental stream) {data : List UInt8}
    {bound : Nat} {inflated : Inflated} (hcall : codec.decompress data bound = .ok inflated) :
    inflated.data.length ≤ bound := by
  rw [h.bounded data bound inflated hcall]
  exact List.length_take_le _ _

/-- Output within the limit is the output of the whole stream. -/
theorem Codec.Incremental.data_eq (h : codec.Incremental stream) {data : List UInt8}
    {maxSize : Nat} {inflated : Inflated}
    (hcall : codec.decompress data (maxSize + 1) = .ok inflated)
    (hfits : inflated.data.length ≤ maxSize) :
    (stream data).1.length < maxSize + 1 ∧ inflated.data = (stream data).1 := by
  have hdata := h.bounded data (maxSize + 1) inflated hcall
  rw [hdata, List.length_take] at hfits
  have hlt : (stream data).1.length < maxSize + 1 := by omega
  exact ⟨hlt, hdata.trans (List.take_of_length_le hlt.le)⟩

/-- One complete stream within the limit is inflated, and nothing else. -/
theorem inflate_eq_ok (h : codec.Incremental stream) {data raw : List UInt8} {maxSize : Nat} :
    inflate codec data maxSize = .ok raw ↔
      stream data = (raw, .complete []) ∧ raw.length ≤ maxSize := by
  cases hcall : codec.decompress data (maxSize + 1) with
  | error e =>
    have hcorrupt := h.raises data _ e hcall
    constructor
    · intro hok
      simp [inflate, hcall, bind, Except.bind] at hok
    · rintro ⟨hstream, -⟩
      rw [hstream] at hcorrupt
      cases hcorrupt
  | ok inflated =>
    by_cases hlong : maxSize < inflated.data.length
    · -- the bound is reached: the stream goes on beyond the limit
      constructor
      · intro hok
        simp [inflate, hcall, hlong, bind, Except.bind, throw, throwThe] at hok
      · rintro ⟨hstream, hfits⟩
        have hle := List.length_take_le' (maxSize + 1) raw
        rw [h.bounded data _ inflated hcall, hstream] at hlong
        exact absurd (lt_of_lt_of_le hlong hle) (not_lt.mpr hfits)
    · obtain ⟨hlt, hdata⟩ := h.data_eq hcall (not_lt.mp hlong)
      obtain ⟨htail, hflush, hend⟩ := h.whole data _ inflated hcall hlt
      have hshort : ¬ maxSize < (stream data).1.length := by omega
      cases hstream : stream data with
      | mk out ending =>
        rw [hstream] at hdata hshort hend
        cases ending with
        | complete rest =>
          obtain ⟨heof, hunused⟩ := hend
          by_cases hrest : rest = []
          · subst hrest
            simp only [inflate, hcall, hdata, hshort, htail, hflush, heof, hunused, bind, Except.bind,
              pure, Except.pure, List.append_nil, ne_eq, not_true_eq_false, or_self, if_false,
              Bool.true_eq_false, Except.ok.injEq, Prod.mk.injEq, and_true]
            constructor
            · rintro rfl
              exact ⟨rfl, not_lt.mp hshort⟩
            · exact fun hraw ↦ hraw.1
          · simp [inflate, hcall, hdata, hshort, htail, hflush, heof, hunused, hrest, bind,
              Except.bind, throw, throwThe, pure, Except.pure]
        | unfinished =>
          have heof : inflated.eof = false := hend
          simp [inflate, hcall, hdata, hshort, htail, hflush, heof, bind, Except.bind, throw,
            throwThe, pure, Except.pure]
        | corrupt => exact hend.elim

/-- At most one byte beyond the limit is decompressed. -/
theorem decompressedBytes_le (h : codec.Incremental stream) (data : List UInt8) (maxSize : Nat) :
    decompressedBytes codec data maxSize ≤ maxSize + 1 := by
  unfold decompressedBytes
  split
  · exact Nat.zero_le _
  · next inflated hcall =>
    have hle := h.length_le hcall
    split
    · exact hle
    · next hgoes =>
      have hfits : inflated.data.length ≤ maxSize := not_lt.mp fun hlong ↦ hgoes (.inl hlong)
      obtain ⟨hlt, -⟩ := h.data_eq hcall hfits
      obtain ⟨-, hflush, -⟩ := h.whole data _ inflated hcall hlt
      rw [hflush, List.length_nil, Nat.add_zero]
      exact hle

/-- What `decode_state` does with data behind the magic and a marker. -/
theorem decodeState_marked (codec : Codec φ) (marker : UInt8) (data : List UInt8) (maxSize : Nat) :
    decodeState codec (stateMagic ++ marker :: data) maxSize =
      if marker = stateZlib then
        inflate codec data maxSize >>= fun raw ↦ utf8Decode raw >>= codec.loads
      else if marker ≠ stateRaw then
        .error (.valueError "unsupported scheduler state encoding")
      else if maxSize < data.length then
        .error (.valueError s!"scheduler state exceeds the {maxSize}-byte limit")
      else utf8Decode data >>= codec.loads := by
  by_cases hzlib : marker = stateZlib
  · subst hzlib
    simp [decodeState, stateMagic, bind, Except.bind]
  · by_cases hraw : marker = stateRaw
    · subst hraw
      simp [decodeState, stateMagic, stateRaw, stateZlib, bind, Except.bind, throw, throwThe,
        MonadExceptOf.throw]
    · simp [decodeState, stateMagic, hzlib, hraw, throw, throwThe, MonadExceptOf.throw]

/-- Bytes without the magic and a marker are refused. -/
theorem exists_marker_of_decodeState {payload : List UInt8} {maxSize : Nat} {value : Value φ}
    (h : decodeState codec payload maxSize = .ok value) :
    ∃ marker data, payload = stateMagic ++ marker :: data := by
  have hformat : ¬ (payload.take 4 ≠ stateMagic ∨ payload.length ≤ 4) := by
    intro hbad
    simp [decodeState, hbad, bind, Except.bind, throw, throwThe] at h
  rw [not_or, not_not, not_le] at hformat
  obtain ⟨hmagic, hlength⟩ := hformat
  refine ⟨payload[4], payload.drop 5, ?_⟩
  rw [← hmagic, ← List.drop_eq_getElem_cons hlength, List.take_append_drop]

/-- A text is decoded and parsed when the bytes are its encoding. -/
theorem utf8Decode_loads_eq_ok {data : List UInt8} {value : Value φ} :
    (utf8Decode data >>= codec.loads) = .ok value ↔
      ∃ text, data = utf8Encode text ∧ codec.loads text = .ok value := by
  cases hdecode : utf8Decode data with
  | error e =>
    constructor
    · intro h
      cases h
    · rintro ⟨text, rfl, -⟩
      rw [utf8Decode_encode] at hdecode
      cases hdecode
  | ok text =>
    have hdata := utf8Decode_eq_ok.mp hdecode
    constructor
    · exact fun h ↦ ⟨text, hdata, h⟩
    · rintro ⟨text', htext', hloads⟩
      rw [htext', utf8Decode_encode] at hdecode
      cases hdecode
      exact hloads

/-- A payload is accepted exactly when it is the magic and either the plain marker before a JSON
text in UTF-8, or the marker of `zlib` before one complete stream of such a text; the text is
within the limit. -/
theorem decodeState_eq_ok (h : codec.Incremental stream) {payload : List UInt8} {maxSize : Nat}
    {value : Value φ} :
    decodeState codec payload maxSize = .ok value ↔
      ∃ text, codec.loads text = .ok value ∧ (utf8Encode text).length ≤ maxSize ∧
        (payload = stateMagic ++ stateRaw :: utf8Encode text ∨
          ∃ data, payload = stateMagic ++ stateZlib :: data ∧
            stream data = (utf8Encode text, .complete [])) := by
  constructor
  · intro hok
    obtain ⟨marker, data, rfl⟩ := exists_marker_of_decodeState hok
    rw [decodeState_marked] at hok
    split at hok
    · next hzlib =>
      subst hzlib
      cases hinflate : inflate codec data maxSize with
      | error e =>
        rw [hinflate] at hok
        cases hok
      | ok raw =>
        rw [hinflate] at hok
        obtain ⟨text, rfl, hloads⟩ := utf8Decode_loads_eq_ok.mp hok
        obtain ⟨hstream, hfits⟩ := (inflate_eq_ok h).mp hinflate
        exact ⟨text, hloads, hfits, .inr ⟨data, rfl, hstream⟩⟩
    · split at hok
      · cases hok
      · next hraw =>
        rw [not_ne_iff] at hraw
        subst hraw
        split at hok
        · cases hok
        · next hfits =>
          obtain ⟨text, rfl, hloads⟩ := utf8Decode_loads_eq_ok.mp hok
          exact ⟨text, hloads, not_lt.mp hfits, .inl rfl⟩
  · rintro ⟨text, hloads, hfits, rfl | ⟨data, rfl, hstream⟩⟩
    · rw [decodeState_marked, if_neg (by decide), if_neg (by decide), if_neg (not_lt.mpr hfits)]
      exact utf8Decode_loads_eq_ok.mpr ⟨text, rfl, hloads⟩
    · rw [decodeState_marked, if_pos rfl, (inflate_eq_ok h).mpr ⟨hstream, hfits⟩]
      exact utf8Decode_loads_eq_ok.mpr ⟨text, rfl, hloads⟩

/-- What `encode_state` gives is decoded to what `json` reads in the text it wrote. -/
theorem decodeState_of_encodeState [PyFloat φ] (h : codec.Incremental stream) {value : Value φ}
    {level : Int} {maxSize : Nat} {payload : List UInt8}
    (hencode : encodeState codec value level maxSize = .ok payload) :
    ∃ text, dumps value = .ok text ∧ (utf8Encode text).length ≤ maxSize ∧
      decodeState codec payload maxSize = codec.loads text := by
  cases htext : dumps value with
  | error e => simp [encodeState, htext, bind, Except.bind] at hencode
  | ok text =>
    refine ⟨text, rfl, ?_⟩
    by_cases hlong : maxSize < (utf8Encode text).length
    · simp [encodeState, htext, hlong, bind, Except.bind, throw, throwThe] at hencode
    · refine ⟨not_lt.mp hlong, ?_⟩
      have hread : (utf8Decode (utf8Encode text) >>= codec.loads) = codec.loads text := by
        rw [utf8Decode_encode]
        rfl
      cases hdata : codec.compress level (utf8Encode text) with
      | error e =>
        simp [encodeState, htext, hlong, hdata, bind, Except.bind] at hencode
      | ok data =>
        have hstream := h.compress level _ data hdata
        by_cases hlt : data.length < (utf8Encode text).length
        · simp only [encodeState, htext, hlong, hdata, hlt, bind, Except.bind, pure, Except.pure,
            if_false, if_true, Except.ok.injEq] at hencode
          rw [← hencode, decodeState_marked, if_pos rfl,
            (inflate_eq_ok h).mpr ⟨hstream, not_lt.mp hlong⟩]
          exact hread
        · simp only [encodeState, htext, hlong, hdata, hlt, bind, Except.bind, pure, Except.pure,
            if_false, Except.ok.injEq] at hencode
          rw [← hencode, decodeState_marked, if_neg (by decide), if_neg (by decide), if_neg hlong]
          exact hread

/-- `decode_state` accepts the two forms of a JSON text within the limit and nothing else, never
has more than one byte beyond the limit decompressed, and reads what `encode_state` gives under
the same limit, at any level, as the text of its value. -/
theorem decodeState_acceptance [PyFloat φ] (h : codec.Incremental stream) (maxSize : Nat) :
    (∀ payload value, decodeState codec payload maxSize = .ok value ↔
      ∃ text, codec.loads text = .ok value ∧ (utf8Encode text).length ≤ maxSize ∧
        (payload = stateMagic ++ stateRaw :: utf8Encode text ∨
          ∃ data, payload = stateMagic ++ stateZlib :: data ∧
            stream data = (utf8Encode text, .complete []))) ∧
    (∀ data, decompressedBytes codec data maxSize ≤ maxSize + 1) ∧
    (∀ value level payload, encodeState codec value level maxSize = .ok payload →
      ∃ text, dumps value = .ok text ∧ decodeState codec payload maxSize = codec.loads text ∧
        (value.JsonTree → codec.ReadsJson value →
          decodeState codec payload maxSize = .ok value)) := by
  refine ⟨fun _ _ ↦ decodeState_eq_ok h, fun data ↦ decompressedBytes_le h data maxSize, ?_⟩
  intro value level payload hencode
  obtain ⟨text, htext, -, hdecode⟩ := decodeState_of_encodeState h hencode
  refine ⟨text, htext, hdecode, fun htree hjson ↦ ?_⟩
  rw [hdecode]
  exact hjson htree text htext

/-- The stream of a recorded text, and corrupt data otherwise. -/
def recordedStream (compressed raw data : List UInt8) : List UInt8 × StreamEnd :=
  if data = compressed then (raw, .complete []) else ([], .corrupt)

/-- The library functions on the text of one value keep the contract. -/
theorem recorded_incremental [PyFloat φ] (value : Value φ) (compressed : List UInt8)
    {text : List Char} (htext : dumps value = .ok text) :
    (recorded value compressed).Incremental (recordedStream compressed (utf8Encode text)) where
  compress level raw data hdata := by
    simp only [recorded, htext, Except.map] at hdata
    split at hdata
    · next hraw =>
      cases hraw
      cases hdata
      exact if_pos rfl
    · cases hdata
  raises data bound e he := by
    simp only [recorded, htext] at he
    split at he
    · next hne => simp [recordedStream, hne]
    · split at he <;> cases he
  bounded data bound inflated hcall := by
    simp only [recorded, htext, ne_eq, ite_not] at hcall
    split at hcall
    · next heq =>
      split at hcall
      · next hlt =>
        cases hcall
        simp [recordedStream, heq, List.take_of_length_le (Nat.le_of_lt hlt)]
      · cases hcall
        simp [recordedStream, heq]
    · cases hcall
  whole data bound inflated hcall hlt := by
    simp only [recorded, htext, ne_eq, ite_not] at hcall
    split at hcall
    · next heq =>
      simp only [recordedStream, heq, if_true] at hlt ⊢
      rw [if_pos hlt] at hcall
      cases hcall
      exact ⟨rfl, fun _ ↦ rfl, rfl, rfl⟩
    · cases hcall

/-- A text of forty-two bytes as `zlib` compresses it. -/
def lettersCompressed : List UInt8 := [120, 156, 83, 74, 36, 18, 40, 1, 0, 75, 203, 15, 109]

/-- The letters in it. -/
def letters : Value WholeFloat := .str "aaaaaaaaaaaaaaaaaaaaaaaaaaaaaaaaaaaaaaaa"

/-- It is accepted under a limit of its length; under a smaller one a byte too many is read. -/
theorem decodeState_acceptance_letters :
    decodeState (recorded letters lettersCompressed) (stateMagic ++ stateZlib :: lettersCompressed)
      42 = .ok letters ∧
    decompressedBytes (recorded letters lettersCompressed) lettersCompressed 41 ≤ 42 := by
  obtain ⟨text, htext, hlength⟩ :
      ∃ text, dumps letters = .ok text ∧ (utf8Encode text).length = 42 :=
    ⟨_, rfl, by decide +kernel⟩
  have hcontract := recorded_incremental letters lettersCompressed htext
  constructor
  · rw [(decodeState_acceptance hcontract 42).1]
    refine ⟨text, ?_, hlength.le, .inr ⟨lettersCompressed, rfl, if_pos rfl⟩⟩
    simp [recorded, htext]
  · exact (decodeState_acceptance hcontract 41).2.1 lettersCompressed

end ScrapyCffi.Requests
