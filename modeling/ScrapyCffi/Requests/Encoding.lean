import ScrapyCffi.Requests.Values

/-!
# Decoding what was encoded

Which values survive `_encode_data` and `_decode_data`. The encoding marks bytes and messages
by dictionary entries, so a dictionary whose own entry reads as such a mark does not.
-/

namespace ScrapyCffi.Requests

open ScrapyCffi.Base

variable {φ : Type}

mutual

/-- Built from leaves by lists and by dictionaries of one kind. -/
def Value.Nested (leaf : Value φ → Prop) (node : List (Value φ × Value φ) → Prop) :
    Value φ → Prop
  | .list items => NestedItems leaf node items
  | .dict entries => node entries ∧ NestedEntries leaf node entries
  | value => leaf value
  termination_by structural v => v

/-- Each item is built so. -/
def NestedItems (leaf : Value φ → Prop) (node : List (Value φ × Value φ) → Prop) :
    List (Value φ) → Prop
  | [] => True
  | item :: rest => item.Nested leaf node ∧ NestedItems leaf node rest
  termination_by structural l => l

/-- Each value of a dictionary is built so. -/
def NestedEntries (leaf : Value φ → Prop) (node : List (Value φ × Value φ) → Prop) :
    List (Value φ × Value φ) → Prop
  | [] => True
  | (_, value) :: rest => value.Nested leaf node ∧ NestedEntries leaf node rest
  termination_by structural l => l

end

/-- The values of a dictionary are built so when each of them is. -/
theorem nestedEntries_iff {leaf : Value φ → Prop} {node : List (Value φ × Value φ) → Prop}
    {entries : List (Value φ × Value φ)} :
    NestedEntries leaf node entries ↔ ∀ entry ∈ entries, entry.2.Nested leaf node := by
  induction entries with
  | nil => simp [NestedEntries]
  | cons entry rest ih =>
    obtain ⟨key, value⟩ := entry
    rw [NestedEntries, ih, List.forall_mem_cons]

variable [PyFloat φ]

/-- A JSON scalar. -/
def Value.Scalar : Value φ → Prop
  | .none | .bool _ | .int _ | .str _ => True
  | .float x => PyFloat.finite x = true
  | _ => False

/-- A dictionary with string keys. -/
def StringKeys (entries : List (Value φ × Value φ)) : Prop :=
  ∀ entry ∈ entries, ∃ key, entry.1 = .str key

/-- What JSON text can hold as it is. -/
def Value.JsonTree : Value φ → Prop := Value.Nested Value.Scalar StringKeys

/-- A scalar, bytes, or a message with a flag that is not 0. -/
def Value.Leaf : Value φ → Prop
  | .bytes _ => True
  | .msg m => ∃ flag, m.flags = some flag ∧ flag ≠ 0
  | value => value.Scalar

/-- No entry under a mark of the encoding is of the given kind. -/
def Unmarked (kind : Value φ → Bool) (entries : List (Value φ × Value φ)) : Prop :=
  (dictGet "__bytes__" entries).any kind = false ∧ (dictGet "__wsmsg__" entries).any kind = false

/-- The values of an encoded field, but for dictionaries with an entry of a kind under a mark. -/
def Value.Encodable (kind : Value φ → Bool) : Value φ → Prop :=
  Value.Nested Value.Leaf fun entries ↦ StringKeys entries ∧ Unmarked kind entries

/-- Read as true once it is encoded: bytes become a dictionary, also when they are empty. -/
def Value.marks : Value φ → Bool
  | .bytes _ => true
  | value => value.truthy

/-! ## Round trip -/

omit [PyFloat φ] in
/-- Base64 text is read back. -/
@[simp] theorem b64decode_b64encode (data : List UInt8) :
    b64decode (.str (b64encode data) : Value φ) = .ok data := by
  have hascii : ((b64encode data).toList.all fun c ↦ c.toNat < 128) = true := by
    rw [b64encode, String.toList_ofList]
    simpa using base64Encode_ascii data
  rw [b64decode, if_pos hascii, b64encode, String.toList_ofList, base64Decode_encode]
  rfl

/-- A message with a flag that is not 0 is decoded from its dictionary. -/
theorem WebSocketMsg.decodeData_toDict {m : WebSocketMsg} {flag : Nat}
    (hflags : m.flags = some flag) (hflag : flag ≠ 0) :
    (m.toDict : Value φ).decodeData = .ok (.msg m) := by
  obtain ⟨data, flags⟩ := m
  subst hflags
  simp [WebSocketMsg.toDict, Value.decodeData, WebSocketMsg.fromDict, dictGet, Value.truthy,
    webSocketFlag, Option.filter, hflag, bind, Except.bind, pure, Except.pure]

/-- Bytes are decoded from their dictionary. -/
theorem Value.decodeData_bytes (data : List UInt8) :
    (Value.bytes data : Value φ).encodeData.decodeData = .ok (.bytes data) := by
  simp [Value.encodeData, Value.decodeData, dictGet, Value.truthy, bind, Except.bind, pure,
    Except.pure]

/-- Truth after encoding. -/
theorem Value.truthy_encodeData (v : Value φ) : v.encodeData.truthy = v.marks := by
  cases v with
  | list items => cases items <;> rfl
  | tuple items => cases items <;> rfl
  | dict entries => cases entries <;> rfl
  | _ => rfl

omit [PyFloat φ] in
/-- An entry of an encoded dictionary. -/
theorem dictGet_encodeEntries (name : String) (entries : List (Value φ × Value φ)) :
    dictGet name (encodeEntries entries) = (dictGet name entries).map Value.encodeData := by
  induction entries with
  | nil => rfl
  | cons entry rest ih =>
    obtain ⟨key, value⟩ := entry
    cases key with
    | str s =>
      by_cases h : s = name
      · simp [encodeEntries, dictGet, h]
      · simp [encodeEntries, dictGet, h, ih]
    | _ => exact ih

/-- An entry under a name reads as a mark in the encoding when it marks one. -/
theorem any_truthy_encodeEntries (name : String) (entries : List (Value φ × Value φ)) :
    (dictGet name (encodeEntries entries)).any Value.truthy =
      (dictGet name entries).any Value.marks := by
  rw [dictGet_encodeEntries]
  cases h : dictGet name entries with
  | none => rfl
  | some value => exact value.truthy_encodeData

mutual

/-- A value is decoded from its encoding. -/
theorem Value.decodeData_encodeData (v : Value φ) (h : v.Encodable Value.marks) :
    v.encodeData.decodeData = .ok v := by
  match v with
  | .none | .bool _ | .int _ | .float _ | .str _ => rfl
  | .bytes data => exact Value.decodeData_bytes data
  | .msg m =>
    obtain ⟨flag, hflags, hflag⟩ := h
    exact WebSocketMsg.decodeData_toDict hflags hflag
  | .list items =>
    rw [Value.encodeData, Value.decodeData, decodeItems_encodeItems items h]
    rfl
  | .dict entries =>
    obtain ⟨⟨-, hbytes, hmsg⟩, hvalues⟩ := h
    rw [Value.encodeData, Value.decodeData, any_truthy_encodeEntries, any_truthy_encodeEntries,
      hbytes, hmsg, decodeEntries_encodeEntries entries hvalues]
    rfl
  | .tuple _ => exact h.elim
  | .function _ => exact h.elim

/-- The items of a list are decoded from their encodings. -/
theorem decodeItems_encodeItems (items : List (Value φ))
    (h : NestedItems Value.Leaf (fun entries ↦ StringKeys entries ∧ Unmarked Value.marks entries)
      items) : decodeItems (encodeItems items) = .ok items := by
  match items with
  | [] => rfl
  | item :: rest =>
    rw [encodeItems, decodeItems, item.decodeData_encodeData h.1,
      decodeItems_encodeItems rest h.2]
    rfl

/-- The values of a dictionary are decoded from their encodings. -/
theorem decodeEntries_encodeEntries (entries : List (Value φ × Value φ))
    (h : NestedEntries Value.Leaf
      (fun entries ↦ StringKeys entries ∧ Unmarked Value.marks entries) entries) :
    decodeEntries (encodeEntries entries) = .ok entries := by
  match entries with
  | [] => rfl
  | (key, value) :: rest =>
    rw [encodeEntries, decodeEntries, value.decodeData_encodeData h.1,
      decodeEntries_encodeEntries rest h.2]
    rfl

end

/-! ## The encoding is JSON -/

/-- A scalar is JSON. -/
theorem Value.jsonTree_of_scalar {v : Value φ} (h : v.Scalar) : v.JsonTree := by
  cases v with
  | list _ => exact h.elim
  | dict _ => exact h.elim
  | _ => exact h

omit [PyFloat φ] in
/-- Encoding keeps the keys. -/
theorem map_fst_encodeEntries (entries : List (Value φ × Value φ)) :
    (encodeEntries entries).map Prod.fst = entries.map Prod.fst := by
  induction entries with
  | nil => rfl
  | cons entry rest ih =>
    obtain ⟨key, value⟩ := entry
    rw [encodeEntries, List.map_cons, List.map_cons, ih]

omit [PyFloat φ] in
/-- String keys are keys, so encoding keeps them. -/
theorem stringKeys_iff (entries : List (Value φ × Value φ)) :
    StringKeys entries ↔ ∀ key ∈ entries.map Prod.fst, ∃ name, key = .str name := by
  simp [StringKeys]

mutual

/-- The encoding of a value is JSON. -/
theorem Value.jsonTree_encodeData {kind : Value φ → Bool} (v : Value φ) (h : v.Encodable kind) :
    v.encodeData.JsonTree := by
  match v with
  | .none | .bool _ | .int _ | .float _ | .str _ => exact h
  | .bytes data =>
    simp [Value.encodeData, Value.JsonTree, Value.Nested, NestedEntries, Value.Scalar, StringKeys]
  | .msg m =>
    simp [Value.encodeData, WebSocketMsg.toDict, Value.JsonTree, Value.Nested, NestedEntries,
      Value.Scalar, StringKeys]
  | .list items => exact jsonTree_encodeItems items h
  | .dict entries =>
    obtain ⟨⟨hkeys, -⟩, hvalues⟩ := h
    rw [stringKeys_iff, ← map_fst_encodeEntries, ← stringKeys_iff] at hkeys
    exact ⟨hkeys, jsonTree_encodeEntries entries hvalues⟩
  | .tuple _ => exact h.elim
  | .function _ => exact h.elim

/-- The encodings of the items of a list are JSON. -/
theorem jsonTree_encodeItems {kind : Value φ → Bool} (items : List (Value φ))
    (h : NestedItems Value.Leaf (fun entries ↦ StringKeys entries ∧ Unmarked kind entries) items) :
    NestedItems Value.Scalar StringKeys (encodeItems items) := by
  match items with
  | [] => trivial
  | item :: rest => exact ⟨item.jsonTree_encodeData h.1, jsonTree_encodeItems rest h.2⟩

/-- The encodings of the values of a dictionary are JSON. -/
theorem jsonTree_encodeEntries {kind : Value φ → Bool} (entries : List (Value φ × Value φ))
    (h : NestedEntries Value.Leaf (fun entries ↦ StringKeys entries ∧ Unmarked kind entries)
      entries) : NestedEntries Value.Scalar StringKeys (encodeEntries entries) := by
  match entries with
  | [] => trivial
  | (_, value) :: rest =>
    exact ⟨value.jsonTree_encodeData h.1, jsonTree_encodeEntries rest h.2⟩

end

end ScrapyCffi.Requests
