import ScrapyCffi.Protobuf.Encode
import ScrapyCffi.Protobuf.Grouping

/-!
# Messages with the same fields

Two messages say the same if one comes from the other by exchanges of fields that are not values
of one number, by exchanges of length-delimited fields, and by such changes within what is nested.
`encode_message` puts the fields of a message together in some such order.
-/

namespace ScrapyCffi.Protobuf

open ScrapyCffi.Base

/-- The fields of one message and of another with the same content. -/
inductive SameFields : List WireField → List WireField → Prop
  | nil : SameFields [] []
  | cons (f : WireField) {fs gs : List WireField} (h : SameFields fs gs) :
      SameFields (f :: fs) (f :: gs)
  | nested (number : Nat) (small : number < 2 ^ 61) {fs gs : List WireField} (h : SameFields fs gs)
      (hf : (serialize fs).length < 2 ^ 63) (hg : (serialize gs).length < 2 ^ 63)
      (rest : List WireField) :
      SameFields (⟨number, .lengthDelimited (serialize fs) hf, small⟩ :: rest)
        (⟨number, .lengthDelimited (serialize gs) hg, small⟩ :: rest)
  | swap (f g : WireField) (rest : List WireField)
      (h : f.number = g.number → f.content.payload ≠ none ∧ g.content.payload ≠ none) :
      SameFields (f :: g :: rest) (g :: f :: rest)
  | trans {fs gs hs : List WireField} (h : SameFields fs gs) (h' : SameFields gs hs) :
      SameFields fs hs

namespace SameFields

variable {fs gs hs : List WireField}

theorem refl (fs : List WireField) : SameFields fs fs := by
  induction fs with
  | nil => exact .nil
  | cons f rest ih => exact .cons f ih

theorem append_left (front : List WireField) (h : SameFields fs gs) :
    SameFields (front ++ fs) (front ++ gs) := by
  induction front with
  | nil => exact h
  | cons f rest ih => exact .cons f ih

theorem append_right (behind : List WireField) (h : SameFields fs gs) :
    SameFields (fs ++ behind) (gs ++ behind) := by
  induction h with
  | nil => exact refl behind
  | cons f _ ih => exact .cons f ih
  | nested number small h hf hg rest _ => exact .nested number small h hf hg (rest ++ behind)
  | swap f g rest h => exact .swap f g (rest ++ behind) h
  | trans _ _ ih ih' => exact ih.trans ih'

theorem append {fs' gs' : List WireField} (h : SameFields fs gs) (h' : SameFields fs' gs') :
    SameFields (fs ++ fs') (gs ++ gs') :=
  (h.append_right fs').trans (h'.append_left gs)

/-- Fields with one order for each number. -/
theorem of_sameByKey (h : Multimap.SameByKey WireField.number fs gs) : SameFields fs gs := by
  apply h.of_swaps
  · exact .nil
  · intro f fs gs hsame
    exact .cons f hsame
  · intro f g rest hne
    exact .swap f g rest fun heq ↦ absurd heq hne
  · intro fs gs hs hsame hsame'
    exact hsame.trans hsame'

/-- Length-delimited fields in any order. -/
theorem of_perm (h : fs.Perm gs) (hall : ∀ f ∈ fs, f.content.payload ≠ none) :
    SameFields fs gs := by
  induction h with
  | nil => exact .nil
  | cons f _ ih => exact .cons f (ih fun g hg ↦ hall g (List.mem_cons_of_mem _ hg))
  | swap f g rest =>
    have hf := hall f (by simp)
    have hg := hall g (by simp)
    exact .swap g f rest fun _ ↦ ⟨hg, hf⟩
  | trans hperm _ ih ih' =>
    exact (ih hall).trans (ih' fun f hf ↦ hall f (hperm.mem_iff.mpr hf))

/-- The bytes are as many. -/
theorem length_serialize (h : SameFields fs gs) :
    (serialize fs).length = (serialize gs).length := by
  induction h with
  | nil => rfl
  | cons f _ ih => rw [serialize_cons, serialize_cons, List.length_append, List.length_append, ih]
  | nested number small _ hf hg rest ih =>
    simp only [serialize_cons, WireField.bytes, WireField.tag, Content.bytes, Content.wireType,
      List.length_append, ih]
  | swap f g rest _ =>
    simp only [serialize_cons, List.length_append]
    omega
  | trans _ _ ih ih' => exact ih.trans ih'

/-- The numbers stand as often. -/
theorem perm_numbers (h : SameFields fs gs) :
    (fs.map WireField.number).Perm (gs.map WireField.number) := by
  induction h with
  | nil => exact .nil
  | cons f _ ih => exact ih.cons f.number
  | nested => exact .refl _
  | swap f g rest _ => exact .swap g.number f.number _
  | trans _ _ ih ih' => exact ih.trans ih'

/-- The fields of a number that hold nothing nested. -/
def plainFields (n : Nat) (fs : List WireField) : List WireField :=
  fs.filter fun f ↦ f.number = n ∧ f.content.payload = none

/-- The fields that hold nothing nested stand in the same order under each number. -/
theorem plainFields_eq (h : SameFields fs gs) (n : Nat) : plainFields n fs = plainFields n gs := by
  induction h with
  | nil => rfl
  | cons f _ ih =>
    rw [plainFields, plainFields, List.filter_cons, List.filter_cons]
    rw [plainFields, plainFields] at ih
    rw [ih]
  | nested number small _ hf hg rest _ =>
    rw [plainFields, plainFields, List.filter_cons_of_neg (by simp [Content.payload]),
      List.filter_cons_of_neg (by simp [Content.payload])]
  | swap f g rest h =>
    rw [plainFields, plainFields, List.filter_cons, List.filter_cons, List.filter_cons,
      List.filter_cons]
    by_cases hf : f.number = n ∧ f.content.payload = none
    · by_cases hg : g.number = n ∧ g.content.payload = none
      · exact absurd hf.2 (h (hf.1.trans hg.1.symm)).1
      · simp [hf, hg]
    · simp [hf]
  | trans _ _ ih ih' => exact ih.trans ih'

end SameFields

/-! ### The fields are put together -/

/-- Encoded fields under their numbers. -/
def toOutputs (m : List (Nat × List WireField)) : Outputs := Multimap.image str WireField.bytes m

theorem extend_toOutputs (m : List (Nat × List WireField)) (n : Nat) (added : List WireField) :
    Multimap.extend (str n) (added.map WireField.bytes) (toOutputs m) =
      toOutputs (Multimap.extend n added m) :=
  Multimap.extend_image str_injective WireField.bytes m n added

theorem flatten_values_toOutputs (m : List (Nat × List WireField)) :
    (Multimap.values (toOutputs m)).flatten = serialize (Multimap.values m) := by
  induction m with
  | nil => rfl
  | cons entry rest ih =>
    have hcons : Multimap.values (toOutputs (entry :: rest)) =
        entry.2.map WireField.bytes ++ Multimap.values (toOutputs rest) := rfl
    have hvalues : Multimap.values (entry :: rest) = entry.2 ++ Multimap.values rest := rfl
    rw [hcons, List.flatten_append, ih, hvalues, serialize_append]
    rfl

/-- What is taken in a given order are fields, and so is what is left. -/
theorem takeInOrder_toOutputs (order : List Text) {m : List (Nat × List WireField)}
    (hm : Multimap.Keyed WireField.number m) :
    ∃ (taken : List WireField) (left : List (Nat × List WireField)),
      takeInOrder order (toOutputs m) = (serialize taken, toOutputs left) ∧
        Multimap.Keyed WireField.number left ∧
        ∀ n, (taken.filter fun f ↦ f.number = n) ++ Multimap.under left n = Multimap.under m n := by
  induction order generalizing m with
  | nil => exact ⟨[], m, rfl, hm, fun _ ↦ rfl⟩
  | cons first rest ih =>
    rw [takeInOrder]
    split
    · next output more hlookup =>
      obtain ⟨entry, hentry, heq⟩ := List.mem_map.mp (Dict.mem_of_lookup hlookup)
      have hfirst : first = str entry.1 := (congrArg Prod.fst heq).symm
      have hentries : entry.2.map WireField.bytes = output :: more := congrArg Prod.snd heq
      cases hfields : entry.2 with
      | nil =>
        rw [hfields] at hentries
        cases hentries
      | cons f fs =>
        rw [hfields, List.map_cons] at hentries
        cases hentries
        have hunder : Multimap.under m entry.1 = f :: fs := by
          have hmem : (entry.1, f :: fs) ∈ m := by
            rw [← hfields]
            exact hentry
          rw [Multimap.under, Dict.lookup_of_mem hm.nodup hmem, Option.getD_some]
        have hkeys : ∀ g ∈ f :: fs, g.number = entry.1 := by
          rw [← hfields]
          exact hm.mem entry hentry
        have hleft : Multimap.Keyed WireField.number (Dict.assign entry.1 fs m) :=
          hm.assign fun g hg ↦ hkeys g (List.mem_cons_of_mem _ hg)
        have hassign : Dict.assign first (fs.map WireField.bytes) (toOutputs m) =
            toOutputs (Dict.assign entry.1 fs m) := by
          rw [hfirst]
          exact Dict.assign_map str_injective (List.map WireField.bytes) entry.1 fs m
        obtain ⟨taken, left, htaken, hkeyed, hsame⟩ := ih hleft
        refine ⟨f :: taken, left, ?_, hkeyed, fun n ↦ ?_⟩
        · rw [hassign, htaken, serialize_cons]
        · have hn := hsame n
          rw [Multimap.under_assign] at hn
          by_cases hnumber : n = entry.1
          · rw [if_pos hnumber] at hn
            rw [List.filter_cons_of_pos (by simp [hkeys f, hnumber]), List.cons_append, hn, hnumber,
              hunder]
          · rw [if_neg hnumber] at hn
            have hne : ¬f.number = n := by
              rw [hkeys f List.mem_cons_self]
              exact Ne.symm hnumber
            rw [List.filter_cons_of_neg (by simpa using hne)]
            exact hn
    · exact ⟨[], m, rfl, hm, fun _ ↦ rfl⟩

/-- In whatever order, the fields of one number stay in theirs. -/
theorem exists_assemble (config : Config) (fieldOrder : Option (List Text))
    {m : List (Nat × List WireField)} (hm : Multimap.Keyed WireField.number m) :
    ∃ fields, assemble config fieldOrder (toOutputs m) = serialize fields ∧
      Multimap.SameByKey WireField.number (Multimap.values m) fields := by
  have hplain : ∃ fields, (Multimap.values (toOutputs m)).flatten = serialize fields ∧
      Multimap.SameByKey WireField.number (Multimap.values m) fields :=
    ⟨Multimap.values m, flatten_values_toOutputs m, fun _ ↦ rfl⟩
  cases fieldOrder with
  | none => exact hplain
  | some order =>
    rw [assemble]
    dsimp only
    split
    · obtain ⟨taken, left, htaken, hleft, hsame⟩ := takeInOrder_toOutputs order hm
      refine ⟨taken ++ Multimap.values left, ?_, fun n ↦ ?_⟩
      · rw [htaken, flatten_values_toOutputs, serialize_append]
      · rw [hm.filter_values, ← hsame n, List.filter_append, hleft.filter_values]
    · exact hplain

end ScrapyCffi.Protobuf
