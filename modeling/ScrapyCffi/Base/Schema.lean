import ScrapyCffi.Base.FieldTypes

/-!
# Schemas

A schema has named fields, a step on the data before they are read and a validator of all of them.
It is a type itself: that of its records. What is read for the fields depends on the data under
their names only.
-/

namespace ScrapyCffi.Base.Typed

/-- A field with its type and its default; one without a default is required. -/
structure Field (φ : Type) where
  name : String
  type : FieldType φ
  default : Option (Datum φ)

/-- A model: its fields, and the validators in front of them and behind them. -/
structure Schema (φ : Type) where
  title : String
  fields : List (Field φ)
  before : List (Atom φ × Datum φ) → List (Atom φ × Datum φ)
  after : List (String × Datum φ) → Except String (List (String × Datum φ))

variable {φ : Type} [DecidableEq φ]

/-- What a field is read as. -/
def Field.read (f : Field φ) (entries : List (Atom φ × Datum φ)) : Except Errors (Datum φ) :=
  match Dict.lookup (.str f.name) entries, f.default with
  | some v, _ => below f.name (f.type.check v)
  | none, some v => .ok v
  | none, none => .error [([f.name], "Field required")]

/-- All fields that are read, or all errors. -/
def readFields (entries : List (Atom φ × Datum φ)) :
    List (Field φ) → Except Errors (List (String × Datum φ))
  | [] => .ok []
  | f :: rest =>
    match f.read entries, readFields entries rest with
    | .ok v, .ok vs => .ok ((f.name, v) :: vs)
    | .ok _, .error es => .error es
    | .error es, .ok _ => .error es
    | .error es, .error more => .error (es ++ more)

/-- A record of the model stays as it is, a dictionary is read. -/
def Schema.check (s : Schema φ) : Datum φ → Except Errors (Datum φ)
  | .record title fields =>
    if title = s.title then .ok (.record title fields)
    else .error [([], s!"Input should be an instance of {s.title}")]
  | .dict entries => do
    let fields ← readFields (s.before entries) s.fields
    return .record s.title (← here (s.after fields))
  | _ => .error [([], s!"Input should be a valid dictionary or instance of {s.title}")]

/-- The fields have the names of the model, and their values the property of their types. -/
def Aligned (P : FieldType φ → Datum φ → Prop) (fields : List (Field φ))
    (values : List (String × Datum φ)) : Prop :=
  List.Forall₂ (fun f p ↦ p.1 = f.name ∧ P f.type p.2) fields values

/-- The type of the records of a model. -/
def Schema.type (s : Schema φ) : FieldType φ where
  check := s.check
  Valid v := ∃ values, v = .record s.title values ∧ Aligned FieldType.Valid s.fields values ∧
    s.after values = .ok values
  Kept v := ∃ values, v = .record s.title values ∧ Aligned FieldType.Kept s.fields values

variable {entries : List (Atom φ × Datum φ)} {fields : List (Field φ)}
  {values : List (String × Datum φ)}

/-- What all fields are read as. -/
theorem readFields_eq_ok : readFields entries fields = .ok values ↔
    List.Forall₂ (fun f p ↦ p.1 = f.name ∧ f.read entries = .ok p.2) fields values := by
  induction fields generalizing values with
  | nil =>
    rw [readFields, List.forall₂_nil_left_iff]
    exact ⟨fun h ↦ by cases h; rfl, fun h ↦ by rw [h]⟩
  | cons f rest ih =>
    rw [readFields]
    constructor
    · intro h
      split at h <;> try cases h
      next v vs hv hvs => exact .cons ⟨rfl, hv⟩ (ih.mp hvs)
    · intro h
      cases h with
      | cons hv hvs =>
        next p ps =>
        obtain ⟨name, v⟩ := p
        obtain ⟨rfl, hv⟩ := hv
        rw [hv, ih.mpr hvs]

omit [DecidableEq φ] in
/-- The names along the fields. -/
theorem names_of_forall₂ {R : Field φ → Datum φ → Prop}
    (h : List.Forall₂ (fun f p ↦ p.1 = f.name ∧ R f p.2) fields values) :
    values.map Prod.fst = fields.map Field.name := by
  induction h with
  | nil => rfl
  | cons hfirst _ ih => rw [List.map_cons, List.map_cons, hfirst.1, ih]

omit [DecidableEq φ] in
/-- The names of aligned values. -/
theorem Aligned.names {P : FieldType φ → Datum φ → Prop} (h : Aligned P fields values) :
    values.map Prod.fst = fields.map Field.name :=
  names_of_forall₂ (R := fun f v ↦ P f.type v) h

omit [DecidableEq φ] in
/-- The value under the name of a field. -/
theorem lookup_of_forall₂ {R : Field φ → Datum φ → Prop}
    (h : List.Forall₂ (fun f p ↦ p.1 = f.name ∧ R f p.2) fields values)
    (hnodup : (fields.map Field.name).Nodup) {f : Field φ} (hf : f ∈ fields) :
    ∃ v, Dict.lookup f.name values = some v ∧ R f v := by
  induction h with
  | nil => cases hf
  | @cons first p rest ps hfirst _ ih =>
    rw [List.map_cons, List.nodup_cons] at hnodup
    rw [Dict.lookup]
    rcases List.mem_cons.mp hf with rfl | hrest
    · exact ⟨p.2, if_pos hfirst.1, hfirst.2⟩
    · have hne : p.1 ≠ f.name := by
        intro heq
        apply hnodup.1
        rw [← hfirst.1, heq]
        exact List.mem_map_of_mem hrest
      rw [if_neg hne]
      exact ih hnodup.2 hrest

omit [DecidableEq φ] in
/-- The value of a field. -/
theorem Aligned.of_lookup {P : FieldType φ → Datum φ → Prop} (h : Aligned P fields values)
    (hnodup : (fields.map Field.name).Nodup) {f : Field φ} (hf : f ∈ fields) :
    ∃ v, Dict.lookup f.name values = some v ∧ P f.type v :=
  lookup_of_forall₂ (R := fun f v ↦ P f.type v) h hnodup hf

omit [DecidableEq φ] in
/-- What holds of the value under each name holds along the fields. -/
theorem forall₂_of_lookup {R : Field φ → Datum φ → Prop}
    (hnames : values.map Prod.fst = fields.map Field.name) (hnodup : (fields.map Field.name).Nodup)
    (hR : ∀ f ∈ fields, ∀ v, Dict.lookup f.name values = some v → R f v) :
    List.Forall₂ (fun f p ↦ p.1 = f.name ∧ R f p.2) fields values := by
  induction fields generalizing values with
  | nil =>
    cases List.map_eq_nil_iff.mp hnames
    exact .nil
  | cons first rest ih =>
    rcases values with _ | ⟨p, ps⟩
    · cases hnames
    rw [List.map_cons, List.map_cons, List.cons.injEq] at hnames
    rw [List.map_cons, List.nodup_cons] at hnodup
    have hhead : Dict.lookup first.name (p :: ps) = some p.2 := by
      rw [Dict.lookup, if_pos hnames.1]
    refine .cons ⟨hnames.1, hR first List.mem_cons_self p.2 hhead⟩ (ih hnames.2 hnodup.2 ?_)
    intro f hf v hv
    have hne : p.1 ≠ f.name := by
      intro heq
      apply hnodup.1
      rw [← hnames.1, heq]
      exact List.mem_map_of_mem hf
    apply hR f (List.mem_cons_of_mem _ hf)
    rw [Dict.lookup, if_neg hne]
    exact hv

/-- What a dumped field is read as. -/
theorem Field.read_dumpFields {f : Field φ} {v : Datum φ}
    (h : Dict.lookup f.name values = some v) :
    f.read (dumpFields values) = below f.name (f.type.check v.dump) := by
  rw [Field.read, lookup_dumpFields, h]
  rfl

/-- Kept values are read back from their dump. -/
theorem readFields_dumpFields (hfields : ∀ f ∈ fields, f.type.Lawful)
    (hnodup : (fields.map Field.name).Nodup) (hvalid : Aligned FieldType.Valid fields values)
    (hkept : Aligned FieldType.Kept fields values) :
    readFields (dumpFields values) fields = .ok values := by
  rw [readFields_eq_ok]
  apply forall₂_of_lookup (R := fun f v ↦ f.read (dumpFields values) = .ok v) hvalid.names hnodup
  intro f hf v hv
  obtain ⟨w, hw, hwvalid⟩ := hvalid.of_lookup hnodup hf
  obtain ⟨x, hx, hxkept⟩ := hkept.of_lookup hnodup hf
  cases hw.symm.trans hv
  cases hx.symm.trans hv
  rw [Field.read_dumpFields hv, below_eq_ok]
  exact (hfields f hf).check_dump v hwvalid hxkept

/-- What is read from the dump of valid values is kept. -/
theorem kept_of_readFields {others : List (String × Datum φ)}
    (hfields : ∀ f ∈ fields, f.type.Lawful) (hnodup : (fields.map Field.name).Nodup)
    (hvalid : Aligned FieldType.Valid fields values)
    (h : readFields (dumpFields values) fields = .ok others) :
    Aligned FieldType.Kept fields others := by
  rw [readFields_eq_ok] at h
  have hmem : ∀ f ∈ fields, ∀ v, f.read (dumpFields values) = .ok v → f.type.Kept v := by
    intro f hf v hv
    obtain ⟨w, hw, hwvalid⟩ := hvalid.of_lookup hnodup hf
    rw [Field.read_dumpFields hw, below_eq_ok] at hv
    exact (hfields f hf).kept_of_check w v hwvalid hv
  clear hvalid hnodup hfields
  induction h with
  | nil => exact .nil
  | cons hfirst _ ih =>
    rw [List.forall_mem_cons] at hmem
    exact .cons ⟨hfirst.1, hmem.1 _ hfirst.2⟩ (ih hmem.2)

/-- The records of a model obey the laws when the types of its fields do, the dump of a record is
not changed before it is read, and the validator keeps what is kept. -/
theorem Schema.lawful {s : Schema φ} (hfields : ∀ f ∈ s.fields, f.type.Lawful)
    (hnodup : (s.fields.map Field.name).Nodup)
    (hbefore : ∀ values, Aligned FieldType.Valid s.fields values → s.after values = .ok values →
      s.before (dumpFields values) = dumpFields values)
    (hafter : ∀ values others, Aligned FieldType.Kept s.fields values →
      s.after values = .ok others → Aligned FieldType.Kept s.fields others) :
    s.type.Lawful where
  check_dump v hv hkept := by
    obtain ⟨values, rfl, hvalid, hstep⟩ := hv
    obtain ⟨others, heq, hkept⟩ := hkept
    cases heq
    show s.check (.dict (dumpFields values)) = _
    rw [Schema.check, hbefore values hvalid hstep,
      readFields_dumpFields hfields hnodup hvalid hkept]
    show (do return Datum.record s.title (← here (s.after values))) = _
    rw [hstep]
    rfl
  kept_of_check v w hv h := by
    obtain ⟨values, rfl, hvalid, hstep⟩ := hv
    change s.check (.dict (dumpFields values)) = _ at h
    rw [Schema.check, hbefore values hvalid hstep, bind_eq_ok] at h
    obtain ⟨others, hread, h⟩ := h
    obtain ⟨results, hresults, h⟩ := bind_eq_ok.mp h
    cases h
    exact ⟨results, rfl, hafter others results
      (kept_of_readFields hfields hnodup hvalid hread) (here_eq_ok.mp hresults)⟩

/-- A validator that does nothing keeps what is kept. -/
theorem Schema.lawful_of_fields {s : Schema φ} (hfields : ∀ f ∈ s.fields, f.type.Lawful)
    (hnodup : (s.fields.map Field.name).Nodup) (hbefore : s.before = id)
    (hafter : ∀ values others, s.after values = .ok others → others = values) :
    s.type.Lawful := by
  apply Schema.lawful hfields hnodup
  · intro values _ _
    rw [hbefore]
    rfl
  · intro values others hkept h
    rw [hafter values others h]
    exact hkept

omit [DecidableEq φ] in
/-- An assignment of a value with the property keeps the alignment. -/
theorem Aligned.assign {P : FieldType φ → Datum φ → Prop} (h : Aligned P fields values)
    {name : String} {v : Datum φ} (hname : name ∈ fields.map Field.name)
    (hv : ∀ f ∈ fields, f.name = name → P f.type v) :
    Aligned P fields (Dict.assign name v values) := by
  induction h with
  | nil => cases hname
  | @cons first p rest ps hfirst hrest ih =>
    rw [Dict.assign]
    rw [List.forall_mem_cons] at hv
    split
    · next heq => exact .cons ⟨hfirst.1, hv.1 (hfirst.1.symm.trans heq)⟩ hrest
    · next hne =>
      refine .cons hfirst (ih ?_ hv.2)
      rw [List.map_cons, List.mem_cons] at hname
      exact hname.resolve_left fun heq ↦ hne (hfirst.1.trans heq.symm)

end ScrapyCffi.Base.Typed
