import Mathlib.Data.List.Perm.Basic
import Mathlib.Data.List.TakeDrop
import ScrapyCffi.Robots.Rules

/-!
# Matching of robots rules

`RobotsTxtRules.is_allowed` (`utils/robot.py:15–27`) against the longest match of RFC 9309, under
any order of the rules.
-/

namespace ScrapyCffi.Robots

/-- The kind of the longest matching rule, allow winning between equals; allowed when none
matches. -/
def standardAnswer (rules : List Rule) (urlPath : Text) : Bool :=
  let matching := rules.filter fun rule ↦ rule.2 <+: pathOrRoot urlPath
  match (matching.map fun rule ↦ rule.2.length).max? with
  | none => true
  | some n => matching.any fun rule ↦ rule.1 = .allow ∧ rule.2.length = n

/-- The answer is the standard one under every order of the rules. -/
def OrderIndependent (rules : List Rule) (urlPath : Text) : Prop :=
  ∀ rules', rules'.Perm rules → isAllowed rules' urlPath = standardAnswer rules urlPath

/-- A rule is among the longest of those that match. -/
structure Longest (rules : List Rule) (path : Text) (rule : Rule) : Prop where
  mem : rule ∈ rules
  matches_path : rule.2 <+: path
  longest : ∀ other ∈ rules, other.2 <+: path → other.2.length ≤ rule.2.length

/-- The longest matching rules have one path. -/
theorem Longest.path_eq {rules : List Rule} {path : Text} {r s : Rule} (hr : Longest rules path r)
    (hs : Longest rules path s) : r.2 = s.2 := by
  have hle := hs.longest r hr.mem hr.matches_path
  have hge := hr.longest s hs.mem hs.matches_path
  exact (List.prefix_of_prefix_length_le hr.matches_path hs.matches_path hle).eq_of_length
    (hle.antisymm hge)

/-- The longest matching rules do not depend on the order. -/
theorem Longest.perm {rules rules' : List Rule} {path : Text} {r : Rule}
    (h : Longest rules' path r) (hperm : rules'.Perm rules) : Longest rules path r where
  mem := hperm.mem_iff.mp h.mem
  matches_path := h.matches_path
  longest other hother := h.longest other (hperm.mem_iff.mpr hother)

/-- What the loop has found: nothing that matches, or the kind and the length of a longest match. -/
inductive Found (rules : List Rule) (path : Text) : Match → Prop
  | none : (∀ rule ∈ rules, ¬ rule.2 <+: path) → Found rules path ⟨none, -1⟩
  | some {rule : Rule} : Longest rules path rule → Found rules path ⟨some rule.1, rule.2.length⟩

/-- One more rule. -/
theorem Found.step {rules : List Rule} {path : Text} {m : Match} (h : Found rules path m)
    (rule : Rule) : Found (rules ++ [rule]) path (m.step path rule) := by
  rw [Match.step]
  have hsingle (other : Rule) (hother : other ∈ rules ++ [rule]) : other ∈ rules ∨ other = rule := by
    simpa using hother
  split
  · next hmatch =>
    cases h with
    | none hnone =>
      rw [if_pos (show (-1 : Int) < rule.2.length by omega)]
      refine .some ⟨by simp, hmatch, fun other hother hprefix ↦ ?_⟩
      rcases hsingle other hother with hold | rfl
      · exact absurd hprefix (hnone other hold)
      · exact le_rfl
    | @some best hlongest =>
      split
      · next hlt =>
        replace hlt : (best.2.length : Int) < rule.2.length := hlt
        refine .some ⟨by simp, hmatch, fun other hother hprefix ↦ ?_⟩
        rcases hsingle other hother with hold | rfl
        · have hle := hlongest.longest other hold hprefix
          omega
        · exact le_rfl
      · next hge =>
        replace hge : ¬ (best.2.length : Int) < rule.2.length := hge
        refine .some ⟨List.mem_append_left _ hlongest.mem, hlongest.matches_path, ?_⟩
        intro other hother hprefix
        rcases hsingle other hother with hold | rfl
        · exact hlongest.longest other hold hprefix
        · omega
  · next hmatch =>
    cases h with
    | none hnone =>
      refine .none fun other hother hprefix ↦ ?_
      rcases hsingle other hother with hold | rfl
      · exact hnone other hold hprefix
      · exact hmatch hprefix
    | some hlongest =>
      refine .some ⟨List.mem_append_left _ hlongest.mem, hlongest.matches_path, ?_⟩
      intro other hother hprefix
      rcases hsingle other hother with hold | rfl
      · exact hlongest.longest other hold hprefix
      · exact absurd hprefix hmatch

/-- The loop finds a longest match if there is one. -/
theorem found_foldl (rules : List Rule) (path : Text) :
    Found rules path (rules.foldl (Match.step path) ⟨none, -1⟩) := by
  induction rules using List.reverseRecOn with
  | nil => exact .none (by simp)
  | append_singleton rules rule ih =>
    rw [List.foldl_append]
    exact ih.step rule

/-- Without a match a URL is allowed. -/
theorem standardAnswer_of_none {rules : List Rule} {urlPath : Text}
    (h : ∀ rule ∈ rules, ¬ rule.2 <+: pathOrRoot urlPath) : standardAnswer rules urlPath = true := by
  have hnil : rules.filter (fun rule ↦ rule.2 <+: pathOrRoot urlPath) = [] := by
    simpa using h
  rw [standardAnswer]
  simp only [hnil]
  rfl

/-- Otherwise it is allowed if and only if a longest match allows it. -/
theorem standardAnswer_of_longest {rules : List Rule} {urlPath : Text} {rule : Rule}
    (h : Longest rules (pathOrRoot urlPath) rule) :
    standardAnswer rules urlPath = decide ((.allow, rule.2) ∈ rules) := by
  have hmax : ((rules.filter fun rule ↦ rule.2 <+: pathOrRoot urlPath).map
      fun rule ↦ rule.2.length).max? = some rule.2.length := by
    rw [List.max?_eq_some_iff]
    constructor
    · exact List.mem_map.mpr ⟨rule, by simp [h.mem, h.matches_path], rfl⟩
    · intro n hn
      obtain ⟨other, hother, rfl⟩ := List.mem_map.mp hn
      rw [List.mem_filter, decide_eq_true_eq] at hother
      exact h.longest other hother.1 hother.2
  rw [standardAnswer]
  simp only [hmax]
  rw [Bool.eq_iff_iff, List.any_eq_true, decide_eq_true_eq]
  constructor
  · rintro ⟨other, hother, hallow⟩
    rw [List.mem_filter, decide_eq_true_eq] at hother
    obtain ⟨hkind, hlength⟩ := of_decide_eq_true hallow
    have hlongest : Longest rules (pathOrRoot urlPath) other :=
      ⟨hother.1, hother.2, fun r hr hprefix ↦ hlength ▸ h.longest r hr hprefix⟩
    rw [h.path_eq hlongest, ← hkind]
    exact hother.1
  · intro hmem
    exact ⟨_, List.mem_filter.mpr ⟨hmem, by simpa using h.matches_path⟩, by simp⟩

/-- A disallowing longest match that comes first decides. -/
theorem isAllowed_cons_longest {rules : List Rule} {urlPath path : Text}
    (h : Longest ((.disallow, path) :: rules) (pathOrRoot urlPath) (.disallow, path)) :
    isAllowed ((.disallow, path) :: rules) urlPath = false := by
  have hkeep (rest : List Rule) (hrest : ∀ r ∈ rest, r ∈ rules) :
      rest.foldl (Match.step (pathOrRoot urlPath)) ⟨some .disallow, path.length⟩ =
        ⟨some .disallow, path.length⟩ := by
    induction rest with
    | nil => rfl
    | cons r rest ih =>
      have hstep : Match.step (pathOrRoot urlPath) ⟨some .disallow, path.length⟩ r =
          ⟨some .disallow, path.length⟩ := by
        rw [Match.step]
        split
        · next hprefix =>
          have hle := h.longest r (List.mem_cons_of_mem _ (hrest r List.mem_cons_self)) hprefix
          rw [if_neg]
          simpa using hle
        · rfl
      rw [List.foldl_cons, hstep, ih fun r hr ↦ hrest r (List.mem_cons_of_mem _ hr)]
  have hfirst : Match.step (pathOrRoot urlPath) ⟨none, -1⟩ (.disallow, path) =
      ⟨some .disallow, path.length⟩ := by
    rw [Match.step, if_pos h.matches_path, if_pos (show (-1 : Int) < path.length by omega)]
  rw [isAllowed, List.foldl_cons, hfirst, hkeep rules fun _ ↦ id]
  rfl

/-- The answer is the standard one under every order if and only if no path is both allowed and
disallowed by longest matching rules. -/
theorem orderIndependent_iff (rules : List Rule) (urlPath : Text) :
    OrderIndependent rules urlPath ↔
      ¬ ∃ path, (.allow, path) ∈ rules ∧ Longest rules (pathOrRoot urlPath) (.disallow, path) := by
  constructor
  · rintro h ⟨path, hallow, hlongest⟩
    have hperm : ((.disallow, path) :: rules.erase (.disallow, path)).Perm rules :=
      (List.perm_cons_erase hlongest.mem).symm
    have hanswer := h _ hperm
    rw [isAllowed_cons_longest (hlongest.perm hperm.symm), standardAnswer_of_longest hlongest]
      at hanswer
    exact of_decide_eq_false hanswer.symm hallow
  · intro hnot rules' hperm
    have hfound := found_foldl rules' (pathOrRoot urlPath)
    rw [isAllowed]
    cases hm : rules'.foldl (Match.step (pathOrRoot urlPath)) ⟨none, -1⟩ with
    | mk kind length =>
      rw [hm] at hfound
      cases hfound with
      | none hnone =>
        rw [standardAnswer_of_none fun rule hrule ↦ hnone rule (hperm.mem_iff.mpr hrule)]
        rfl
      | @some rule hlongest =>
        have hlongest := hlongest.perm hperm
        rw [standardAnswer_of_longest hlongest]
        obtain ⟨kind, path⟩ := rule
        cases kind with
        | allow => simpa using hlongest.mem
        | disallow =>
          have hallow : (.allow, path) ∉ rules := fun hmem ↦ hnot ⟨path, hmem, hlongest⟩
          simp [hallow]

/-- A disallowed path that is also allowed stays disallowed when its rule comes first. -/
theorem not_orderIndependent_tie :
    ¬ ∀ (rules : List Rule) (urlPath : Text), OrderIndependent rules urlPath := by
  intro h
  have htie := h [(.disallow, "/a".toList), (.allow, "/a".toList)] "/a".toList _ (.refl _)
  exact absurd htie (by decide)

end ScrapyCffi.Robots
