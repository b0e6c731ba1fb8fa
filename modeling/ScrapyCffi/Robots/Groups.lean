import Mathlib.Algebra.Order.BigOperators.Group.List
import Mathlib.Algebra.Order.Ring.Nat
import ScrapyCffi.Robots.Rules

/-!
# Groups of robots rules

What RFC 9309 makes of the lines of a robots text, beside `agent_blocks` of `parse_robots_txt`
(`utils/robot.py:29–64`): consecutive User-agent lines open one group, and the rules behind them
are for every agent they name.
-/

namespace ScrapyCffi.Robots

open ScrapyCffi.Base

/-! ## The standard -/

/-- A line of a robots text. A rule without a path restricts nothing. -/
inductive Line
  | userAgent (value : Text)
  | rule (rule : Rule)
  | pathless
  | other

/-- What a line is. -/
def classify (line : Text) : Line :=
  match splitLine line with
  | none => .other
  | some (key, value) =>
    if key = "user-agent".toList then if value = [] then .other else .userAgent value
    else if key = "allow".toList then if value = [] then .pathless else .rule (.allow, value)
    else if key = "disallow".toList then if value = [] then .pathless else .rule (.disallow, value)
    else .other

/-- A group: the agents its first lines name, and its rules. -/
structure Group where
  agents : List Text
  rules : List Rule
  named : agents ≠ []

/-- The group that a User-agent line opens. -/
def Group.start (agent : Text) : Group := ⟨[agent], [], List.cons_ne_nil _ _⟩

/-- One more User-agent line. -/
def Group.addAgent (g : Group) (agent : Text) : Group :=
  ⟨g.agents ++ [agent], g.rules, List.append_ne_nil_of_right_ne_nil _ (List.cons_ne_nil _ _)⟩

/-- One more rule. -/
def Group.addRule (g : Group) (rule : Rule) : Group := { g with rules := g.rules ++ [rule] }

/-- The last agent that the group names. -/
def Group.last (g : Group) : Text := g.agents.getLast g.named

/-- The groups before the current one, the current one, and whether it is still in its User-agent
lines. -/
structure Grouping where
  closed : List Group
  current : Option Group
  header : Bool

/-- All groups, in order. -/
def Grouping.groups (s : Grouping) : List Group := s.closed ++ s.current.toList

variable (lower : Text → Text)

/-- A line read by the standard. Rules before the first User-agent line belong to no group. -/
def Grouping.step (s : Grouping) : Line → Grouping
  | .userAgent value =>
    match s.current with
    | none => { s with current := some (.start (lower value)), header := true }
    | some g =>
      if s.header then { s with current := some (g.addAgent (lower value)) }
      else
        { closed := s.closed ++ [g], current := some (.start (lower value)), header := true }
  | .rule rule => { s with current := s.current.map (·.addRule rule), header := false }
  | .pathless => { s with header := false }
  | .other => s

/-- The groups of a text. -/
def groups (text : Text) : List Group :=
  (((splitlines text).map classify).foldl (Grouping.step lower) ⟨[], none, false⟩).groups

/-- The rules of the groups that `p` selects, in order. -/
def rulesOf (p : Group → Bool) (groups : List Group) : List Rule :=
  (groups.filter p).flatMap Group.rules

/-- One of the groups names the agent. -/
def Named (groups : List Group) (agent : Text) : Prop := ∃ g ∈ groups, agent ∈ g.agents

instance (groups : List Group) (agent : Text) : Decidable (Named groups agent) :=
  decidable_of_iff ((groups.any fun g ↦ g.agents.contains agent) = true) (by
    rw [List.any_eq_true]
    simp only [List.contains_iff_mem]
    exact Iff.rfl)

/-- The rules of all groups that name the agent, if one does. -/
def specified (groups : List Group) (agent : Text) : Option (List Rule) :=
  if Named groups agent then some (rulesOf (fun g ↦ g.agents.contains agent) groups) else none

/-- What `parse_robots_txt` attaches to each agent is what the standard gives it. -/
def FollowsGroups (text : Text) : Prop :=
  ∀ agent, (agentBlocks lower text).get agent = specified (groups lower text) agent

/-! ## What the code attaches -/

/-- The rules of the groups that name the agent last. -/
def attached (groups : List Group) (agent : Text) : Option (List Rule) :=
  if Named groups agent then some (rulesOf (fun g ↦ g.last = agent) groups) else none

theorem rulesOf_append (p : Group → Bool) (gs hs : List Group) :
    rulesOf p (gs ++ hs) = rulesOf p gs ++ rulesOf p hs := by
  rw [rulesOf, List.filter_append, List.flatMap_append]
  rfl

theorem rulesOf_singleton (p : Group → Bool) (g : Group) :
    rulesOf p [g] = if p g then g.rules else [] := by
  by_cases h : p g <;> simp [rulesOf, h]

theorem rulesOf_singleton_of_empty (p : Group → Bool) {g : Group} (h : g.rules = []) :
    rulesOf p [g] = [] := by
  rw [rulesOf_singleton, h, ite_self]

/-- The last agent is one of them. -/
theorem Group.last_mem (g : Group) : g.last ∈ g.agents := List.getLast_mem g.named

/-- An agent that no group names has no rules. -/
theorem rulesOf_last_eq_nil {gs : List Group} {agent : Text}
    (h : ¬ Named gs agent) : rulesOf (fun g ↦ g.last = agent) gs = [] := by
  rw [rulesOf, List.filter_eq_nil_iff.mpr, List.flatMap_nil]
  intro g hg hlast
  exact h ⟨g, hg, of_decide_eq_true hlast ▸ g.last_mem⟩

variable {lower}

/-- The code's variables follow the grouping. -/
structure Follows (b : Blocks) (s : Grouping) : Prop where
  agents : b.currentAgents = s.current.toList.map Group.last
  blocks : ∀ agent, b.agentBlocks.get agent = attached s.groups agent
  rules : s.header = true → ∀ g ∈ s.current, g.rules = []

/-- A named agent joins the groups, which keep their rules. -/
theorem attached_of_named {gs hs : List Group} {agent : Text}
    (hnamed : ∀ a, Named hs a ↔ Named gs a ∨ a = agent)
    (hrules : ∀ a, rulesOf (fun g ↦ g.last = a) hs = rulesOf (fun g ↦ g.last = a) gs)
    {blocks : Dict Text (List Rule)} (hblocks : ∀ a, blocks.get a = attached gs a) (a : Text) :
    (if blocks.get agent = none then blocks.set agent [] else blocks).get a = attached hs a := by
  by_cases hagent : Named gs agent
  · rw [hblocks, attached, if_pos hagent, if_neg (Option.some_ne_none _), hblocks, attached,
      attached, hrules]
    have hsame : Named hs a ↔ Named gs a := by
      rw [hnamed, or_iff_left_iff_imp]
      rintro rfl
      exact hagent
    simp only [hsame]
  · rw [hblocks, attached, if_neg hagent, if_pos rfl, Dict.get_set]
    by_cases ha : a = agent
    · subst ha
      rw [if_pos rfl, attached, if_pos ((hnamed a).mpr (.inr rfl)), hrules,
        rulesOf_last_eq_nil hagent]
    · rw [if_neg ha, hblocks, attached, attached, hrules]
      have hsame : Named hs a ↔ Named gs a := by
        rw [hnamed, or_iff_left ha]
      simp only [hsame]

/-- A User-agent line. -/
theorem Follows.userAgent {b : Blocks} {s : Grouping} (h : Follows b s) (value : Text) :
    Follows (b.step lower (.userAgent value)) (s.step lower (.userAgent value)) := by
  rw [Grouping.step]
  split
  · next hcurrent =>
    refine ⟨rfl, attached_of_named (fun a ↦ ?_) (fun a ↦ ?_) h.blocks, fun _ g hg ↦ ?_⟩
    · simp [Named, Grouping.groups, hcurrent, Group.start, or_and_right, exists_or]
    · have hnew := rulesOf_singleton_of_empty (fun g ↦ g.last = a)
        (show (Group.start (lower value)).rules = [] from rfl)
      simp only [Grouping.groups, hcurrent, Option.toList_none, Option.toList_some, rulesOf_append,
        hnew]
      rfl
    · cases hg
      rfl
  · next g hcurrent =>
    split
    · next hheader =>
      have hempty := h.rules hheader g hcurrent
      refine ⟨?_, attached_of_named (fun a ↦ ?_) (fun a ↦ ?_) h.blocks, fun _ g' hg' ↦ ?_⟩
      · simp [Blocks.step, Group.addAgent, Group.last]
      · simp [Named, Grouping.groups, hcurrent, Group.addAgent, or_and_right, exists_or, or_assoc]
      · have hold := rulesOf_singleton_of_empty (fun g ↦ g.last = a) hempty
        have hnew := rulesOf_singleton_of_empty (fun g ↦ g.last = a)
          (show (g.addAgent (lower value)).rules = [] from hempty)
        simp only [Grouping.groups, hcurrent, Option.toList_some, rulesOf_append, hold, hnew]
      · cases hg'
        exact hempty
    · refine ⟨rfl, attached_of_named (fun a ↦ ?_) (fun a ↦ ?_) h.blocks, fun _ g' hg' ↦ ?_⟩
      · simp [Named, Grouping.groups, hcurrent, Group.start, or_and_right, exists_or, or_assoc]
      · have hnew := rulesOf_singleton_of_empty (fun g ↦ g.last = a)
          (show (Group.start (lower value)).rules = [] from rfl)
        simp only [Grouping.groups, hcurrent, Option.toList_some, rulesOf_append, hnew,
          List.append_nil]
      · cases hg'
        rfl

/-- A rule. -/
theorem Follows.rule {b : Blocks} {s : Grouping} (h : Follows b s) (rule : Rule) :
    Follows (b.step lower (.rule rule)) (s.step lower (.rule rule)) := by
  have hagents := h.agents
  cases hcurrent : s.current with
  | none =>
    rw [hcurrent] at hagents
    refine ⟨?_, fun a ↦ ?_, by simp [Grouping.step]⟩
    · simp [Blocks.step, Grouping.step, hagents, hcurrent]
    · simpa [Blocks.step, Grouping.step, Grouping.groups, hagents, hcurrent] using h.blocks a
  | some g =>
    rw [hcurrent] at hagents
    have hgroups : s.groups = s.closed ++ [g] := by rw [Grouping.groups, hcurrent]; rfl
    have hblocks : (b.step lower (.rule rule)).agentBlocks =
        b.agentBlocks.set g.last ((b.agentBlocks.get g.last).getD [] ++ [rule]) := by
      simp [Blocks.step, hagents]
    refine ⟨?_, fun a ↦ ?_, by simp [Grouping.step]⟩
    · have hlast : (s.step lower (.rule rule)).current.toList.map Group.last = [g.last] := by
        rw [Grouping.step, hcurrent]
        rfl
      exact hagents.trans hlast.symm
    · have hnext : (s.step lower (.rule rule)).groups = s.closed ++ [g.addRule rule] := by
        simp [Grouping.groups, Grouping.step, hcurrent]
      have hnamed : Named (s.closed ++ [g.addRule rule]) a ↔ Named s.groups a := by
        simp [Named, hgroups, Group.addRule]
      have hrules : rulesOf (fun g ↦ g.last = a) (s.closed ++ [g.addRule rule]) =
          rulesOf (fun g ↦ g.last = a) s.groups ++ if g.last = a then [rule] else [] := by
        rw [hgroups, rulesOf_append, rulesOf_append, rulesOf_singleton, rulesOf_singleton]
        by_cases ha : g.last = a <;> simp [Group.addRule, Group.last] at ha ⊢ <;> simp [ha]
      rw [hblocks, Dict.get_set, hnext, attached, hrules]
      by_cases ha : g.last = a
      · have hmem : Named s.groups a :=
          ⟨g, by simp [hgroups], ha ▸ g.last_mem⟩
        rw [if_pos ha.symm, if_pos (hnamed.mpr hmem), if_pos ha, ha, h.blocks, attached,
          if_pos hmem, Option.getD_some]
      · rw [if_neg (Ne.symm ha), if_neg ha, List.append_nil, h.blocks, attached]
        simp only [hnamed]

/-- The record that the code reads in a line. -/
def Line.record : Line → Option Record
  | .userAgent value => some (.userAgent value)
  | .rule r => some (.rule r)
  | .pathless => none
  | .other => none

/-- The code reads a line as the standard does, and passes over one without a path. -/
theorem readLine_eq (line : Text) : readLine line = (classify line).record := by
  rw [readLine, classify]
  cases splitLine line with
  | none => rfl
  | some parts =>
    obtain ⟨key, value⟩ := parts
    by_cases hvalue : value = []
    · simp only [hvalue, if_true]
      split_ifs <;> rfl
    · simp only [hvalue, if_false]
      split_ifs <;> rfl

/-- The code's variables follow the grouping of any lines. -/
theorem follows_foldl (lines : List Text) {b : Blocks} {s : Grouping} (h : Follows b s) :
    Follows ((lines.filterMap readLine).foldl (Blocks.step lower) b)
      ((lines.map classify).foldl (Grouping.step lower) s) := by
  induction lines generalizing b s with
  | nil => exact h
  | cons line lines ih =>
    rw [List.filterMap_cons, readLine_eq, List.map_cons, List.foldl_cons]
    cases classify line with
    | userAgent value => exact ih (h.userAgent value)
    | rule rule => exact ih (h.rule rule)
    | pathless => exact ih ⟨h.agents, h.blocks, fun hheader ↦ by cases hheader⟩
    | other => exact ih h

/-- The code attaches the rules of a group to the agent it names last. -/
theorem get_agentBlocks (lower : Text → Text) (text agent : Text) :
    (agentBlocks lower text).get agent = attached (groups lower text) agent := by
  have hinitial : Follows Blocks.initial ⟨[], none, false⟩ :=
    ⟨rfl, fun _ ↦ rfl, fun hheader ↦ by cases hheader⟩
  exact (follows_foldl _ hinitial).blocks agent

/-! ## Groups of one agent -/

/-- How many rules a selection has. -/
theorem length_rulesOf (p : Group → Bool) (gs : List Group) :
    (rulesOf p gs).length = (gs.map fun g ↦ if p g then g.rules.length else 0).sum := by
  induction gs with
  | nil => rfl
  | cons g gs ih =>
    have hcons : rulesOf p (g :: gs) = rulesOf p [g] ++ rulesOf p gs := rulesOf_append p [g] gs
    rw [hcons, List.length_append, ih, rulesOf_singleton, List.map_cons, List.sum_cons]
    split <;> rfl

/-- Selections that agree on the groups with rules have the same rules. -/
theorem rulesOf_congr {p q : Group → Bool} {gs : List Group}
    (h : ∀ g ∈ gs, g.rules ≠ [] → p g = q g) : rulesOf p gs = rulesOf q gs := by
  induction gs with
  | nil => rfl
  | cons g gs ih =>
    have hp : rulesOf p (g :: gs) = rulesOf p [g] ++ rulesOf p gs := rulesOf_append p [g] gs
    have hq : rulesOf q (g :: gs) = rulesOf q [g] ++ rulesOf q gs := rulesOf_append q [g] gs
    rw [hp, hq, ih fun g' hg' ↦ h g' (List.mem_cons_of_mem _ hg')]
    by_cases hrules : g.rules = []
    · rw [rulesOf_singleton_of_empty p hrules, rulesOf_singleton_of_empty q hrules]
    · rw [rulesOf_singleton, rulesOf_singleton, h g List.mem_cons_self hrules]

/-- A text is read as the standard says if and only if none of its groups with rules names two
agents. -/
theorem followsGroups_iff (lower : Text → Text) (text : Text) :
    FollowsGroups lower text ↔
      ∀ g ∈ groups lower text, g.rules ≠ [] → ∀ a ∈ g.agents, ∀ b ∈ g.agents, a = b := by
  unfold FollowsGroups
  simp only [get_agentBlocks]
  generalize groups lower text = gs
  constructor
  · intro h
    have hlast : ∀ g ∈ gs, g.rules ≠ [] → ∀ a ∈ g.agents, a = g.last := by
      intro g hg hrules a ha
      by_contra hne
      have hsame := h a
      have hnamed : Named gs a := ⟨g, hg, ha⟩
      rw [attached, specified, if_pos hnamed, if_pos hnamed, Option.some.injEq] at hsame
      have hlength := congrArg List.length hsame
      rw [length_rulesOf, length_rulesOf] at hlength
      apply absurd hlength
      apply ne_of_lt
      apply List.sum_lt_sum
      · intro g' _
        by_cases hg' : g'.last = a
        · simp [hg', hg' ▸ g'.last_mem]
        · simp [hg']
      · exact ⟨g, hg, by simp [Ne.symm hne, ha, List.length_pos_iff.mpr hrules]⟩
    intro g hg hrules a ha b hb
    rw [hlast g hg hrules a ha, hlast g hg hrules b hb]
  · intro h agent
    have hrules : rulesOf (fun g ↦ g.last = agent) gs =
        rulesOf (fun g ↦ g.agents.contains agent) gs := by
      apply rulesOf_congr
      intro g hg hne
      rw [Bool.eq_iff_iff, decide_eq_true_eq, List.contains_iff_mem]
      constructor
      · rintro rfl
        exact g.last_mem
      · exact fun hmem ↦ h g hg hne _ g.last_mem _ hmem
    rw [attached, specified, hrules]

/-- Of two agents in one group the first is left without its rule. -/
theorem not_followsGroups_two_agents :
    ¬ ∀ (lower : Text → Text) (text : Text), FollowsGroups lower text := by
  intro h
  have hfirst := h id "User-agent: a\nUser-agent: b\nDisallow: /x".toList ['a']
  exact absurd hfirst (by decide +kernel)

end ScrapyCffi.Robots
