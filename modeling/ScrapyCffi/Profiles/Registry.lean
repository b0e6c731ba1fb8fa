import Mathlib.Data.List.Nodup
import ScrapyCffi.Base.Dict
import ScrapyCffi.Base.Except
import ScrapyCffi.Robots.Rules

/-!
# The profile registry

`ProfileRegistry` and `load_profile_manifest` (`profiles/registry.py:31–106,137–256`). The file is
read before anything is registered: a text is the list of its characters, and a manifest is what
`toml.load` makes of the file.
-/

namespace ScrapyCffi.Profiles

open ScrapyCffi.Base ScrapyCffi.Robots

/-- `ProfileSpec`. -/
structure ProfileSpec where
  name : Text
  impersonate : Text
  clientHints : List (Text × Text)
  deriving DecidableEq

/-- The callback that resolves a profile. -/
inductive Resolver
  | passthrough
  | resolveRegistered
  deriving DecidableEq

/-- `ProfileRegistry`. -/
structure Registry where
  profiles : Dict Text ProfileSpec
  hasRegisteredProfiles : Bool
  resolver : Resolver

/-- What is wrong with client hints. -/
inductive HintError
  | noTable
  | invalidName
  | unsupportedName (name : Text)
  | invalidValue
  deriving DecidableEq

/-- The exceptions, each a `ValueError`: those of `register`, and the `ProfileManifestError`s. -/
inductive RegistryError
  | emptyName
  | emptyTarget
  | alreadyRegistered (name : Text)
  | unreadable
  | unsupportedSchema
  | profilesNoTable
  | emptyProfileName
  | unknownFields (profile : Text)
  | hints (profile : Text) (error : HintError)
  | emptyProfileTarget
  deriving DecidableEq

/-! ## Registering -/

namespace Registry

/-- A registry without profiles. -/
def empty : Registry := ⟨.empty, false, .passthrough⟩

/-- The registry with a profile under its name. -/
def put (r : Registry) (profile : ProfileSpec) : Registry where
  profiles := r.profiles.set profile.name profile
  hasRegisteredProfiles := true
  resolver := if r.hasRegisteredProfiles then r.resolver else .resolveRegistered

/-- `register`, `registry.py:81–100`. -/
def register (r : Registry) (profile : ProfileSpec) (replace : Bool) :
    Except RegistryError (ProfileSpec × Registry) :=
  if profile.name = [] then .error .emptyName
  else if profile.impersonate = [] then .error .emptyTarget
  else
    match r.profiles.get profile.name with
    | some current =>
      if current = profile then .ok (current, r)
      else if replace = false then .error (.alreadyRegistered profile.name)
      else .ok (profile, r.put profile)
    | none => .ok (profile, r.put profile)

/-- The list comprehension of `load_profile_manifest`: what it gives, and the registry after it,
which has the profiles that were registered before an exception. -/
def registerAll (r : Registry) :
    List ProfileSpec → Except RegistryError (List ProfileSpec) × Registry
  | [] => (.ok [], r)
  | profile :: rest =>
    match r.register profile false with
    | .error e => (.error e, r)
    | .ok (registered, after) =>
      let (result, last) := registerAll after rest
      (result.map (registered :: ·), last)

end Registry

/-! ## The manifest -/

/-- A value of a TOML file; of a float, whether it is 1. -/
inductive TomlValue
  | str (s : Text)
  | bool (b : Bool)
  | int (n : Int)
  | float (isOne : Bool)
  | table (entries : List (Text × TomlValue))
  | other

/-- A manifest; the keys of its profiles are distinct. -/
structure Manifest where
  entries : List (Text × TomlValue)
  distinct : ∀ table, Dict.lookup "profiles".toList entries = some (.table table) →
    (table.map Prod.fst).Nodup

/-- `_LEGACY_CLIENT_HINT_NAMES`. -/
def legacyClientHintNames : List Text :=
  ["device-memory", "downlink", "dpr", "ect", "rtt", "save-data", "viewport-width",
    "width"].map String.toList

/-- `_CLIENT_HINT_NAME_RE.fullmatch(name)`. -/
def isHintName (name : Text) : Bool :=
  name ≠ [] && name.all fun c ↦
    ('A' ≤ c && c ≤ 'Z') || ('a' ≤ c && c ≤ 'z') || ('0' ≤ c && c ≤ '9') || c == '-'

/-- `name.lower()` of a client hint. -/
def hintLower (name : Text) : Text := name.map Char.toLower

/-- The loop of `_validate_client_hints`. -/
def validateHints : List (Text × TomlValue) → Except HintError (List (Text × Text))
  | [] => .ok []
  | (name, value) :: rest => do
    if isHintName name = false then
      throw .invalidName
    if !("sec-ch-".toList.isPrefixOf (hintLower name)) &&
        !(legacyClientHintNames.contains (hintLower name)) then
      throw (.unsupportedName name)
    match value with
    | .str text => return (name, text) :: (← validateHints rest)
    | _ => throw .invalidValue

/-- `_validate_client_hints`, `registry.py:137–169`. -/
def validateClientHints : TomlValue → Except HintError (List (Text × Text))
  | .table entries => validateHints entries
  | _ => .error .noTable

/-- The target and the hints of a profile, of which the target may not be a string. -/
def validateDefinition (name : Text) :
    TomlValue → Except RegistryError (Option Text × List (Text × Text))
  | .str target => .ok (some target, [])
  | .table fields => do
    if fields.any fun field ↦
        field.1 ≠ "impersonate".toList && field.1 ≠ "client_hints".toList then
      throw (.unknownFields name)
    let hints := (Dict.lookup "client_hints".toList fields).getD (.table [])
    let hints ← (validateClientHints hints).mapError (.hints name)
    match Dict.lookup "impersonate".toList fields with
    | some (.str target) => return (some target, hints)
    | _ => return (none, hints)
  | _ => .ok (none, [])

/-- One round of the loop of `_validate_manifest_profiles`. -/
def validateProfile (name : Text) (definition : TomlValue) : Except RegistryError ProfileSpec := do
  if strip name = [] then
    throw .emptyProfileName
  match ← validateDefinition name definition with
  | (some target, hints) =>
    if strip target = [] then
      throw .emptyProfileTarget
    return { name, impersonate := target, clientHints := hints }
  | (none, _) => throw .emptyProfileTarget

/-- The loop of `_validate_manifest_profiles`. -/
def validateEntries : List (Text × TomlValue) → Except RegistryError (List ProfileSpec)
  | [] => .ok []
  | (name, definition) :: rest => do
    let profile ← validateProfile name definition
    return profile :: (← validateEntries rest)

/-- `_validate_manifest_profiles`, `registry.py:172–213`. -/
def validateManifestProfiles : Option TomlValue → Except RegistryError (List ProfileSpec)
  | some (.table entries) => validateEntries entries
  | _ => .error .profilesNoTable

/-- `schema_version == PROFILE_MANIFEST_SCHEMA_VERSION`: `True` and `1.0` equal 1. -/
def isSchemaVersion : Option TomlValue → Bool
  | some (.int n) => n = 1
  | some (.bool b) => b
  | some (.float isOne) => isOne
  | _ => false

/-- The validated profiles of a manifest, or of a file that cannot be read,
`registry.py:237–252`. -/
def manifestProfiles : Option Manifest → Except RegistryError (List ProfileSpec)
  | none => .error .unreadable
  | some manifest => do
    if isSchemaVersion (Dict.lookup "schema_version".toList manifest.entries) = false then
      throw .unsupportedSchema
    validateManifestProfiles (Dict.lookup "profiles".toList manifest.entries)

/-- `load_profile_manifest`, `registry.py:216–256`: without a file nothing is registered. -/
def loadProfileManifest (r : Registry) :
    Option (Option Manifest) → Except RegistryError (List ProfileSpec) × Registry
  | none => (.ok [], r)
  | some file =>
    match manifestProfiles file with
    | .error e => (.error e, r)
    | .ok profiles => r.registerAll profiles

/-! ## What a validated manifest is -/

/-- A profile that `register` takes. -/
structure ProfileSpec.Valid (profile : ProfileSpec) : Prop where
  name : profile.name ≠ []
  impersonate : profile.impersonate ≠ []

/-- What is left of a text after `strip` was there before. -/
theorem ne_nil_of_strip {text : Text} (h : strip text ≠ []) : text ≠ [] := by
  rintro rfl
  exact h rfl

/-- A validated profile has the name of its entry. -/
theorem validateProfile_spec {name : Text} {definition : TomlValue} {profile : ProfileSpec}
    (h : validateProfile name definition = .ok profile) :
    profile.name = name ∧ profile.Valid := by
  unfold validateProfile at h
  split at h
  · cases h
  · next hname =>
    obtain ⟨-, -, h⟩ := bind_eq_ok.mp h
    obtain ⟨⟨target, hints⟩, -, h⟩ := bind_eq_ok.mp h
    cases target with
    | none => cases h
    | some target =>
      dsimp only at h
      split at h
      · cases h
      · next htarget =>
        cases h
        exact ⟨rfl, ne_nil_of_strip hname, ne_nil_of_strip htarget⟩

/-- The validated profiles have the names of the entries. -/
theorem validateEntries_spec {entries : List (Text × TomlValue)} {profiles : List ProfileSpec}
    (h : validateEntries entries = .ok profiles) :
    profiles.map ProfileSpec.name = entries.map Prod.fst ∧ ∀ p ∈ profiles, p.Valid := by
  induction entries generalizing profiles with
  | nil =>
    cases h
    exact ⟨rfl, by simp⟩
  | cons entry rest ih =>
    obtain ⟨profile, hprofile, h⟩ := bind_eq_ok.mp h
    obtain ⟨others, hothers, h⟩ := bind_eq_ok.mp h
    cases h
    obtain ⟨hname, hvalid⟩ := validateProfile_spec hprofile
    obtain ⟨hnames, hall⟩ := ih hothers
    exact ⟨by rw [List.map_cons, List.map_cons, hname, hnames], List.forall_mem_cons.mpr
      ⟨hvalid, hall⟩⟩

/-- The profiles of a manifest have distinct names, and `register` takes them. -/
theorem manifestProfiles_spec {file : Option Manifest} {profiles : List ProfileSpec}
    (h : manifestProfiles file = .ok profiles) :
    (profiles.map ProfileSpec.name).Nodup ∧ ∀ p ∈ profiles, p.Valid := by
  cases file with
  | none => cases h
  | some manifest =>
    unfold manifestProfiles at h
    dsimp only at h
    split at h
    · cases h
    · unfold validateManifestProfiles at h
      split at h
      · next table htable =>
        obtain ⟨hnames, hvalid⟩ := validateEntries_spec h
        exact ⟨hnames ▸ manifest.distinct table htable, hvalid⟩
      · cases h

/-! ## Registering profile by profile -/

namespace Registry

variable {r : Registry} {p : ProfileSpec} {profiles : List ProfileSpec}

/-- The profile is registered already. -/
def Has (r : Registry) (p : ProfileSpec) : Prop := r.profiles.get p.name = some p

/-- Another profile is registered under the name. -/
def Conflicts (r : Registry) (p : ProfileSpec) : Prop :=
  ∃ current, r.profiles.get p.name = some current ∧ current ≠ p

instance (r : Registry) (p : ProfileSpec) : Decidable (r.Has p) :=
  inferInstanceAs (Decidable (_ = _))

/-- The registry with a profile that does not conflict. -/
def add (r : Registry) (p : ProfileSpec) : Registry := if r.Has p then r else r.put p

/-- The registry with profiles that do not conflict. -/
def addAll (r : Registry) (profiles : List ProfileSpec) : Registry := profiles.foldl add r

/-- A profile that does not conflict is registered. -/
theorem register_of_not_conflicts (hvalid : p.Valid) (h : ¬ r.Conflicts p) :
    r.register p false = .ok (p, r.add p) := by
  rw [register, if_neg hvalid.name, if_neg hvalid.impersonate]
  cases hget : r.profiles.get p.name with
  | none =>
    have hnot : ¬ r.Has p := fun hhas ↦ by cases hget.symm.trans hhas
    rw [add, if_neg hnot]
  | some current =>
    by_cases hcurrent : current = p
    · subst hcurrent
      have hhas : r.Has current := hget
      dsimp only
      rw [if_pos rfl, add, if_pos hhas]
    · exact absurd ⟨current, hget, hcurrent⟩ h

/-- A profile that conflicts is not. -/
theorem register_of_conflicts (hvalid : p.Valid) (h : r.Conflicts p) :
    r.register p false = .error (.alreadyRegistered p.name) := by
  obtain ⟨current, hget, hcurrent⟩ := h
  rw [register, if_neg hvalid.name, if_neg hvalid.impersonate, hget]
  dsimp only
  rw [if_neg hcurrent, if_pos rfl]

/-- Another name is registered as before. -/
theorem get_add_of_ne {name : Text} (h : name ≠ p.name) :
    (r.add p).profiles.get name = r.profiles.get name := by
  unfold add
  split
  · rfl
  · show (r.profiles.set p.name p).get name = _
    rw [Dict.get_set, if_neg h]

/-- The profile is registered. -/
theorem has_add (r : Registry) (p : ProfileSpec) : (r.add p).Has p := by
  unfold add
  split
  · next h => exact h
  · exact Dict.get_set_self

/-- Profiles of other names conflict as before. -/
theorem conflicts_add {q : ProfileSpec} (h : q.name ≠ p.name) :
    (r.add p).Conflicts q ↔ r.Conflicts q := by
  rw [Conflicts, Conflicts, get_add_of_ne h]

/-- A name is registered by the profiles that have it, or as before. -/
theorem get_addAll (hnodup : (profiles.map ProfileSpec.name).Nodup) (name : Text) :
    (r.addAll profiles).profiles.get name =
      (profiles.find? fun p ↦ p.name = name).or (r.profiles.get name) := by
  induction profiles generalizing r with
  | nil => rfl
  | cons p rest ih =>
    obtain ⟨hp, hrest⟩ := List.nodup_cons.mp hnodup
    show ((r.add p).addAll rest).profiles.get name = _
    rw [ih hrest]
    by_cases hname : p.name = name
    · subst hname
      have hnone : rest.find? (fun q ↦ q.name = p.name) = none := by
        rw [List.find?_eq_none]
        intro q hq heq
        exact hp (List.mem_map.mpr ⟨q, hq, by simpa using heq⟩)
      rw [hnone, List.find?_cons_of_pos (by simp), Option.none_or, Option.some_or]
      exact has_add r p
    · rw [List.find?_cons_of_neg (by simpa using hname), get_add_of_ne (Ne.symm hname)]

/-- Profiles of which none conflicts are all registered. -/
theorem registerAll_of_not_conflicts (hvalid : ∀ p ∈ profiles, p.Valid)
    (hnodup : (profiles.map ProfileSpec.name).Nodup) (h : ∀ p ∈ profiles, ¬ r.Conflicts p) :
    r.registerAll profiles = (.ok profiles, r.addAll profiles) := by
  induction profiles generalizing r with
  | nil => rfl
  | cons p rest ih =>
    obtain ⟨hp, hrest⟩ := List.nodup_cons.mp hnodup
    obtain ⟨hvalid, hvalids⟩ := List.forall_mem_cons.mp hvalid
    obtain ⟨hfirst, hothers⟩ := List.forall_mem_cons.mp h
    have hafter : ∀ q ∈ rest, ¬ (r.add p).Conflicts q := by
      intro q hq hconflict
      have hne : q.name ≠ p.name := fun heq ↦ hp (List.mem_map.mpr ⟨q, hq, heq⟩)
      exact hothers q hq ((conflicts_add hne).mp hconflict)
    rw [registerAll, register_of_not_conflicts hvalid hfirst]
    dsimp only
    rw [ih hvalids hrest hafter]
    rfl

/-- Profiles before the first that conflicts stay registered. -/
theorem registerAll_of_conflicts {before after : List ProfileSpec}
    (hvalid : ∀ q ∈ before ++ p :: after, q.Valid)
    (hnodup : ((before ++ p :: after).map ProfileSpec.name).Nodup)
    (hbefore : ∀ q ∈ before, ¬ r.Conflicts q) (h : r.Conflicts p) :
    r.registerAll (before ++ p :: after) =
      (.error (.alreadyRegistered p.name), r.addAll before) := by
  induction before generalizing r with
  | nil =>
    rw [List.nil_append, registerAll, register_of_conflicts (hvalid p (by simp)) h]
    rfl
  | cons q rest ih =>
    obtain ⟨hq, hrest⟩ := List.nodup_cons.mp hnodup
    obtain ⟨hvalid, hvalids⟩ := List.forall_mem_cons.mp hvalid
    obtain ⟨hfirst, hothers⟩ := List.forall_mem_cons.mp hbefore
    have hne : ∀ other ∈ rest ++ p :: after, other.name ≠ q.name :=
      fun other hother heq ↦ hq (List.mem_map.mpr ⟨other, hother, heq⟩)
    have hafter : ∀ other ∈ rest, ¬ (r.add q).Conflicts other := fun other hother hconflict ↦
      hothers other hother
        ((conflicts_add (hne other (List.mem_append_left _ hother))).mp hconflict)
    have hconflict : (r.add q).Conflicts p := (conflicts_add (hne p (by simp))).mpr h
    rw [List.cons_append, registerAll, register_of_not_conflicts hvalid hfirst]
    dsimp only
    rw [ih hvalids hrest hafter hconflict]
    rfl

/-- Profiles that are all registered change nothing. -/
theorem addAll_of_has (h : ∀ p ∈ profiles, r.Has p) : r.addAll profiles = r := by
  induction profiles with
  | nil => rfl
  | cons p rest ih =>
    obtain ⟨hp, hrest⟩ := List.forall_mem_cons.mp h
    show (r.add p).addAll rest = r
    rw [add, if_pos hp]
    exact ih hrest

/-- A registry that profiles do not change has them. -/
theorem has_of_addAll (hnodup : (profiles.map ProfileSpec.name).Nodup)
    (h : r.addAll profiles = r) : ∀ p ∈ profiles, r.Has p := by
  intro p hp
  have hget := get_addAll (r := r) hnodup p.name
  have hfind : profiles.find? (fun q ↦ q.name = p.name) = some p := by
    cases hfind : profiles.find? (fun q ↦ q.name = p.name) with
    | none =>
      have hne := List.find?_eq_none.mp hfind p hp
      simp at hne
    | some q =>
      have hq := List.mem_of_find?_eq_some hfind
      have hname : q.name = p.name := by simpa using List.find?_some hfind
      rw [List.inj_on_of_nodup_map hnodup hq hp hname]
  rw [h, hfind, Option.some_or] at hget
  exact hget

end Registry

/-! ## Loading a manifest -/

/-- An exception leaves the registry as it was, and a call that returns has added the profiles it
returns, those of the manifest, and nothing else. -/
def LoadsAtomically (r : Registry) (file : Option (Option Manifest)) : Prop :=
  match loadProfileManifest r file with
  | (.error _, after) => after = r
  | (.ok profiles, after) =>
    (∀ manifest, file = some manifest → manifestProfiles manifest = .ok profiles) ∧
    ∀ name, after.profiles.get name =
      (profiles.find? fun p ↦ p.name = name).or (r.profiles.get name)

/-- No profile conflicts, or the first one that is not registered already does. -/
def FirstNewConflicts (r : Registry) (profiles : List ProfileSpec) : Prop :=
  (∀ p ∈ profiles, ¬ r.Conflicts p) ∨
  ∃ before p after, profiles = before ++ p :: after ∧ (∀ q ∈ before, r.Has q) ∧ r.Conflicts p

/-- A list without conflicts, or the first conflict in it. -/
theorem first_conflict (r : Registry) (profiles : List ProfileSpec) :
    (∀ p ∈ profiles, ¬ r.Conflicts p) ∨
    ∃ before p after, profiles = before ++ p :: after ∧ (∀ q ∈ before, ¬ r.Conflicts q) ∧
      r.Conflicts p := by
  induction profiles with
  | nil => exact .inl (by simp)
  | cons p rest ih =>
    by_cases hp : r.Conflicts p
    · exact .inr ⟨[], p, rest, rfl, by simp, hp⟩
    · rcases ih with hall | ⟨before, q, after, rfl, hbefore, hq⟩
      · exact .inl (List.forall_mem_cons.mpr ⟨hp, hall⟩)
      · exact .inr ⟨p :: before, q, after, rfl, List.forall_mem_cons.mpr ⟨hp, hbefore⟩, hq⟩

/-- A registered profile does not conflict. -/
theorem Registry.Has.not_conflicts {r : Registry} {p : ProfileSpec} (h : r.Has p) :
    ¬ r.Conflicts p := by
  rintro ⟨current, hget, hne⟩
  exact hne (Option.some.inj (hget.symm.trans h))

/-- Of two first conflicts in a list, the places are the same. -/
theorem first_conflict_unique {r : Registry} {before before' after after' : List ProfileSpec}
    {p p' : ProfileSpec} (heq : before ++ p :: after = before' ++ p' :: after')
    (hbefore : ∀ q ∈ before, ¬ r.Conflicts q) (hp : r.Conflicts p)
    (hbefore' : ∀ q ∈ before', ¬ r.Conflicts q) (hp' : r.Conflicts p') : before = before' := by
  induction before generalizing before' with
  | nil =>
    cases before' with
    | nil => rfl
    | cons q rest =>
      cases heq
      exact absurd hp (hbefore' p List.mem_cons_self)
  | cons q rest ih =>
    cases before' with
    | nil =>
      cases heq
      exact absurd hp' (hbefore p' List.mem_cons_self)
    | cons q' rest' =>
      obtain ⟨rfl, hrest⟩ := List.cons.inj heq
      rw [ih hrest (fun q hq ↦ hbefore q (List.mem_cons_of_mem _ hq))
        fun q hq ↦ hbefore' q (List.mem_cons_of_mem _ hq)]

/-- Loading is atomic exactly when no profile is registered before a conflict. -/
theorem loadsAtomically_iff (r : Registry) (file : Option (Option Manifest)) :
    LoadsAtomically r file ↔ ∀ manifest profiles, file = some manifest →
      manifestProfiles manifest = .ok profiles → FirstNewConflicts r profiles := by
  cases file with
  | none => simp [LoadsAtomically, loadProfileManifest]
  | some manifest =>
    cases hprofiles : manifestProfiles manifest with
    | error e =>
      have hsame : LoadsAtomically r (some manifest) := by
        simp [LoadsAtomically, loadProfileManifest, hprofiles]
      refine iff_of_true hsame ?_
      rintro other profiles ⟨⟩ hfound
      cases hprofiles.symm.trans hfound
    | ok profiles =>
      obtain ⟨hnodup, hvalid⟩ := manifestProfiles_spec hprofiles
      have hload : loadProfileManifest r (some manifest) = r.registerAll profiles := by
        rw [loadProfileManifest, hprofiles]
      have hsome : (∀ other found, some manifest = some other →
          manifestProfiles other = .ok found → FirstNewConflicts r found) ↔
          FirstNewConflicts r profiles := by
        constructor
        · exact fun h ↦ h manifest profiles rfl hprofiles
        · rintro h other found ⟨⟩ hfound
          cases hprofiles.symm.trans hfound
          exact h
      rw [hsome, LoadsAtomically, hload]
      rcases first_conflict r profiles with hall | ⟨before, p, after, rfl, hbefore, hp⟩
      · rw [Registry.registerAll_of_not_conflicts hvalid hnodup hall]
        refine iff_of_true ⟨?_, Registry.get_addAll hnodup⟩ (.inl hall)
        rintro other ⟨⟩
        exact hprofiles
      · rw [Registry.registerAll_of_conflicts hvalid hnodup hbefore hp]
        have hnames : (before.map ProfileSpec.name).Nodup := by
          rw [List.map_append] at hnodup
          exact hnodup.of_append_left
        constructor
        · intro hsame
          exact .inr ⟨before, p, after, rfl, Registry.has_of_addAll hnames hsame, hp⟩
        · rintro (hnone | ⟨before', p', after', heq, hhas, hp'⟩)
          · exact absurd hp (hnone p (by simp))
          · have hsplit := first_conflict_unique heq hbefore hp
              (fun q hq ↦ (hhas q hq).not_conflicts) hp'
            exact Registry.addAll_of_has (hsplit ▸ hhas)

/-! ## A conflict behind a new profile -/

/-- A registry with one profile. -/
def stableRegistry : Registry := Registry.empty.put ⟨"stable".toList, "native_v1".toList, []⟩

/-- A new profile, and another target for the registered one. -/
def conflictingManifest : Manifest where
  entries := [("schema_version".toList, .int 1), ("profiles".toList, .table
    [("fresh".toList, .str "native_v3".toList), ("stable".toList, .str "native_v2".toList)])]
  distinct := by
    intro table h
    cases h
    decide

/-- The new profile stays registered behind the exception. -/
theorem fresh_stays_registered : ¬ ∀ r file, LoadsAtomically r file := by
  intro hall
  have hload := hall stableRegistry (some (some conflictingManifest))
  have hprofiles : manifestProfiles (some conflictingManifest) =
      .ok [⟨"fresh".toList, "native_v3".toList, []⟩, ⟨"stable".toList, "native_v2".toList, []⟩] := by
    decide
  rw [LoadsAtomically, loadProfileManifest, hprofiles] at hload
  have hget := congrArg (fun r ↦ r.profiles.get "fresh".toList) hload
  cases hget

end ScrapyCffi.Profiles
