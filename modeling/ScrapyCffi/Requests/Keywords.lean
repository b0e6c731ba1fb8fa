import ScrapyCffi.Requests.Values

/-!
# Keyword arguments

How a call binds keyword arguments to a signature with defaults: named parameters are taken
out and what is left spills over into `**kwargs`. A constructor that passes its parameters on
to its base class binds twice.
-/

namespace ScrapyCffi.Requests

variable {φ : Type}

/-- Names with their values: the arguments of a call, or the parameters with their defaults. -/
abbrev Keywords (φ : Type) := List (String × Value φ)

/-- The names. -/
def names (keywords : Keywords φ) : List String := keywords.map Prod.fst

/-- The parameters of a call: what it passes, or else the defaults. -/
def bindArguments (signature keywords : Keywords φ) : Keywords φ :=
  signature.map fun p ↦ (p.1, (keywords.lookup p.1).getD p.2)

/-- The arguments that are no parameters: `**kwargs`. -/
def spillOver (signature keywords : Keywords φ) : Keywords φ :=
  keywords.filter fun p ↦ p.1 ∉ names signature

/-- Keywords without those of some names. -/
def without (own : List String) (keywords : Keywords φ) : Keywords φ :=
  keywords.filter fun p ↦ p.1 ∉ own

/-- The arguments of `super().__init__(name=name, ..., **kwargs)`: every parameter but the
constructor's own ones, then what spilled over. -/
def passOn (own : List String) (signature keywords : Keywords φ) : Keywords φ :=
  without own (bindArguments signature keywords) ++ spillOver signature keywords

/-- A bound parameter. -/
def argument (parameters : Keywords φ) (name : String) : Value φ :=
  (parameters.lookup name).getD .none

variable {own : List String} {signature base keywords : Keywords φ} {name : String}

/-- A name is looked up past other names. -/
theorem lookup_cons_of_ne {key : String} {value : Value φ} {rest : Keywords φ} (h : name ≠ key) :
    List.lookup name ((key, value) :: rest) = rest.lookup name := by
  rw [List.lookup_cons, beq_false_of_ne h]

/-- A filter on names keeps or drops what a name looks up. -/
theorem lookup_filter (keep : String → Prop) [DecidablePred keep] (keywords : Keywords φ)
    (name : String) :
    (keywords.filter fun p ↦ keep p.1).lookup name =
      if keep name then keywords.lookup name else none := by
  induction keywords with
  | nil => simp
  | cons p rest ih =>
    obtain ⟨key, value⟩ := p
    by_cases heq : name = key
    · subst heq
      by_cases hk : keep name
      · rw [List.filter_cons_of_pos (by simpa using hk), List.lookup_cons_self,
          List.lookup_cons_self, if_pos hk]
      · rw [List.filter_cons_of_neg (by simpa using hk), ih, if_neg hk, if_neg hk]
    · rw [lookup_cons_of_ne heq]
      by_cases hk : keep key
      · rw [List.filter_cons_of_pos (by simpa using hk), lookup_cons_of_ne heq, ih]
      · rw [List.filter_cons_of_neg (by simpa using hk), ih]

/-- What a parameter is bound to. -/
theorem lookup_bindArguments (signature keywords : Keywords φ) (name : String) :
    (bindArguments signature keywords).lookup name =
      (signature.lookup name).map fun default ↦ (keywords.lookup name).getD default := by
  induction signature with
  | nil => rfl
  | cons p rest ih =>
    obtain ⟨key, default⟩ := p
    rw [bindArguments, List.map_cons]
    by_cases heq : name = key
    · subst heq
      rw [List.lookup_cons_self, List.lookup_cons_self, Option.map_some]
    · rw [lookup_cons_of_ne heq, lookup_cons_of_ne heq]
      exact ih

/-- A name that is no parameter is bound to nothing. -/
theorem lookup_eq_none (h : name ∉ names signature) : signature.lookup name = none := by
  rw [List.lookup_eq_none_iff]
  intro p hp
  have hne : name ≠ p.1 := fun heq ↦ h (heq ▸ List.mem_map_of_mem hp)
  simpa using hne

/-- The base class is passed each parameter that is not the constructor's own. -/
theorem lookup_passOn {default : Value φ} (hown : name ∉ own)
    (h : signature.lookup name = some default) :
    (passOn own signature keywords).lookup name = some ((keywords.lookup name).getD default) := by
  rw [passOn, List.lookup_append, without, lookup_filter (· ∉ own), if_pos hown,
    lookup_bindArguments, h]
  rfl

/-- The base class is passed what spills over. -/
theorem lookup_passOn_of_not_mem (h : name ∉ names signature) :
    (passOn own signature keywords).lookup name = keywords.lookup name := by
  rw [passOn, List.lookup_append, without, lookup_filter (· ∉ own), lookup_bindArguments,
    lookup_eq_none h, spillOver, lookup_filter (· ∉ names signature), if_pos h]
  split
  · rfl
  · rfl

/-- A passed parameter is bound to what was passed. -/
theorem argument_bindArguments {value : Value φ} (hmem : name ∈ names signature)
    (h : keywords.lookup name = some value) :
    argument (bindArguments signature keywords) name = value := by
  rw [argument, lookup_bindArguments, h]
  cases hsig : signature.lookup name with
  | some default => rfl
  | none =>
    obtain ⟨p, hp, rfl⟩ := List.mem_map.mp hmem
    simpa using List.lookup_eq_none_iff.mp hsig p hp

/-- A passed argument that is not the constructor's own is passed on. -/
theorem lookup_passOn_of_lookup {value : Value φ} (hown : name ∉ own)
    (h : keywords.lookup name = some value) :
    (passOn own signature keywords).lookup name = some value := by
  cases hsig : signature.lookup name with
  | some default => rw [lookup_passOn hown hsig, h, Option.getD_some]
  | none =>
    rw [lookup_passOn_of_not_mem, h]
    intro hmem
    obtain ⟨p, hp, rfl⟩ := List.mem_map.mp hmem
    simpa using List.lookup_eq_none_iff.mp hsig p hp

/-- Nothing spills over of parameters. -/
theorem spillOver_eq_nil (h : ∀ p ∈ keywords, p.1 ∈ names signature) :
    spillOver signature keywords = [] := by
  rw [spillOver, List.filter_eq_nil_iff]
  intro p hp
  simpa using h p hp

/-- The spill of two lists of arguments. -/
theorem spillOver_append (first second : Keywords φ) :
    spillOver signature (first ++ second) =
      spillOver signature first ++ spillOver signature second :=
  List.filter_append ..

/-- What the base class does not take either spilled over before. -/
theorem spillOver_passOn (h : ∀ name ∈ names signature, name ∈ own ∨ name ∈ names base) :
    spillOver base (passOn own signature keywords) =
      spillOver base (spillOver signature keywords) := by
  rw [passOn, spillOver_append, spillOver_eq_nil, List.nil_append]
  intro p hp
  rw [without, List.mem_filter] at hp
  obtain ⟨hp, hown⟩ := hp
  obtain ⟨q, hq, rfl⟩ := List.mem_map.mp hp
  rcases h q.1 (List.mem_map_of_mem hq) with hmem | hmem
  · simp [hmem] at hown
  · exact hmem

/-! ## Several signatures -/

/-- What spills over one signature after the other. -/
def spillAll (signatures : List (Keywords φ)) (keywords : Keywords φ) : Keywords φ :=
  keywords.filter fun p ↦ ∀ signature ∈ signatures, p.1 ∉ names signature

variable {signatures : List (Keywords φ)}

/-- What spills over no signature. -/
theorem spillAll_nil (keywords : Keywords φ) : spillAll [] keywords = keywords := by
  simp [spillAll]

/-- What spills over one signature more. -/
theorem spillOver_spillAll (signature : Keywords φ) (signatures : List (Keywords φ))
    (keywords : Keywords φ) :
    spillOver signature (spillAll signatures keywords) =
      spillAll (signature :: signatures) keywords := by
  rw [spillOver, spillAll, spillAll, List.filter_filter]
  congr 1
  ext1 p
  simp

/-- What spilled over is none of the parameters. -/
theorem not_mem_of_mem_spillAll {p : String × Value φ} (h : p ∈ spillAll signatures keywords)
    (hmem : signature ∈ signatures) : p.1 ∉ names signature := by
  rw [spillAll, List.mem_filter] at h
  exact of_decide_eq_true h.2 signature hmem

/-- What spilled over and arguments that are parameters: only the former spills over again. -/
theorem spillAll_append_spillAll {first : Keywords φ}
    (h : ∀ p ∈ first, ∃ signature ∈ signatures, p.1 ∈ names signature) :
    spillAll signatures (first ++ spillAll signatures keywords) =
      spillAll signatures keywords := by
  have hnil : spillAll signatures first = [] := by
    rw [spillAll, List.filter_eq_nil_iff]
    intro p hp
    obtain ⟨signature, hs, hmem⟩ := h p hp
    have hnot : ¬ ∀ s ∈ signatures, p.1 ∉ names s := fun hall ↦ hall signature hs hmem
    simpa using hnot
  have hself : spillAll signatures (spillAll signatures keywords) =
      spillAll signatures keywords := by
    rw [spillAll, List.filter_eq_self]
    intro p hp
    exact decide_eq_true fun s hs ↦ not_mem_of_mem_spillAll hp hs
  have happend : spillAll signatures (first ++ spillAll signatures keywords) =
      spillAll signatures first ++ spillAll signatures (spillAll signatures keywords) :=
    List.filter_append ..
  rw [happend, hnil, hself, List.nil_append]

/-! ## Names that occur once -/

/-- A keyword is found under its name. -/
theorem lookup_of_mem {p : String × Value φ} (hnodup : (names keywords).Nodup)
    (h : p ∈ keywords) : keywords.lookup p.1 = some p.2 := by
  induction keywords with
  | nil => simp at h
  | cons q rest ih =>
    obtain ⟨key, value⟩ := q
    rw [names, List.map_cons, List.nodup_cons] at hnodup
    rcases List.mem_cons.mp h with rfl | hp
    · rw [List.lookup_cons_self]
    · have hne : p.1 ≠ key := by
        intro heq
        have hmem : p.1 ∈ names rest := List.mem_map_of_mem hp
        exact hnodup.1 (heq ▸ hmem)
      rw [lookup_cons_of_ne hne, ih hnodup.2 hp]

end ScrapyCffi.Requests
