import Mathlib.Data.List.Count
import ScrapyCffi.Sessions.References

/-!
# The balance of acquires and releases

An item holds its session from the interceptor that acquires it to the one release that ends its
way. `Settles` leaves the paths on which every step keeps to this.
-/

namespace ScrapyCffi.Sessions.References

open ScrapyCffi.Base ScrapyCffi.Sessions

/-- The phases in which an item holds its session. -/
def Phase.holds : Phase → Bool
  | .output => false
  | .failed released => !released
  | .answering released => !released
  | _ => true

/-- The items of the flows that hold a session. -/
def held (flows : List Flow) : List Item :=
  (flows.filter fun flow ↦ flow.phase.holds).map Flow.item

/-- The acquires and releases of an item that nothing holds any more are equally many, and no
count is negative or stays positive when nothing with its id is left. -/
structure State.Balanced (s : State) : Prop where
  items : ∀ item, (∀ flow ∈ s.flows, flow.item ≠ item) →
    s.acquired.count item = s.released.count item
  nonneg : ∀ sessionId, 0 ≤ s.manager.count sessionId
  zero : ∀ sessionId, (∀ flow ∈ s.flows, flow.item.sessionId ≠ sessionId) →
    s.manager.count sessionId = 0

/-- Without the steps that lose a session they hold, put back a request that has released its
session, put in another request than the one that holds it, or release a session twice. -/
def Flow.settles (flow : Flow) (outcome : Outcome) : Bool :=
  match outcome with
  | .unresolved | .replaced .. => false
  | .rescheduled =>
    match flow.phase with
    | .failed released | .answering released => !released
    | .requesting => true
    | _ => false
  | .ended =>
    match flow.phase with
    | .failed released | .answering released => released
    | .downloading => flow.item.kind = .http
    | _ => false
  | .connectRaises registered => !registered
  | _ => true

/-- The guard of the balanced runs. -/
def Settles (_ : State) : Event → Prop
  | .yields .. => True
  | .step flow outcome => flow.settles outcome = true

instance (s : State) : ∀ event, Decidable (Settles s event)
  | .yields .. => .isTrue trivial
  | .step .. => inferInstanceAs (Decidable (_ = true))

variable {s t : State} {flow : Flow} {outcome : Outcome} {created : Nat} {calls : List Call}
  {flows : List Flow}

/-- What a settled step does: it hands the session on, acquires it, or releases it. -/
theorem step_cases (hg : flow.settles outcome = true)
    (hs : flow.step created outcome = some (calls, flows)) :
    (calls = [] ∧ held flows = held [flow]) ∨
    (calls = [.acquire] ∧ held [flow] = [] ∧ held flows = [flow.item]) ∨
    ((calls = [.release] ∨ calls = [.markEnd, .release]) ∧
      held [flow] = [flow.item] ∧ held flows = []) := by
  obtain ⟨item, phase⟩ := flow
  cases phase with
  | output =>
    cases outcome with
    | passed =>
      cases hs
      refine .inr (.inl ⟨rfl, rfl, ?_⟩)
      by_cases hk : item.kind = .closeSignal <;> simp [held, hk, Phase.holds]
    | unknownWebsocket =>
      simp only [Flow.step, Option.ite_none_right_eq_some] at hs
      cases hs.2
      exact .inr (.inl ⟨rfl, rfl, rfl⟩)
    | unresolved => cases hg
    | _ => cases hs
  | admitted =>
    cases outcome with
    | passed | rejected =>
      cases hs
      exact .inl ⟨rfl, rfl⟩
    | filtered =>
      cases hs
      exact .inr (.inr ⟨.inl rfl, rfl, rfl⟩)
    | replaced | ended => cases hg
    | _ => cases hs
  | failed released | answering released =>
    cases outcome with
    | rescheduled =>
      cases hs
      obtain rfl : released = false := by simpa [Flow.settles] using hg
      exact .inl ⟨rfl, rfl⟩
    | ended =>
      cases hs
      obtain rfl : released = true := by simpa [Flow.settles] using hg
      exact .inl ⟨rfl, rfl⟩
    | replaced => cases hg
    | _ => cases hs
  | enqueuing =>
    cases outcome with
    | passed =>
      cases hs
      exact .inl ⟨rfl, rfl⟩
    | dropped =>
      cases hs
      exact .inr (.inr ⟨.inl rfl, rfl, rfl⟩)
    | ended => cases hg
    | _ => cases hs
  | queued =>
    cases outcome with
    | passed =>
      cases hs
      exact .inl ⟨rfl, rfl⟩
    | ended => cases hg
    | _ => cases hs
  | requesting =>
    cases outcome with
    | passed | rescheduled | answered =>
      cases hs
      exact .inl ⟨rfl, rfl⟩
    | replaced | ended => cases hg
    | _ => cases hs
  | downloading =>
    by_cases hk : item.kind = .http
    · simp only [Flow.step, hk, if_true] at hs
      cases outcome with
      | ended =>
        cases hs
        exact .inl ⟨rfl, rfl⟩
      | rescheduled | replaced => cases hg
      | _ => cases hs
    · simp only [Flow.step, hk, if_false] at hs
      cases outcome with
      | stale | sent =>
        cases hs
        exact .inr (.inr ⟨.inl rfl, rfl, rfl⟩)
      | connects =>
        cases hs
        exact .inl ⟨rfl, rfl⟩
      | ended => exact absurd (of_decide_eq_true hg) hk
      | _ => cases hs
  | releasing =>
    cases outcome with
    | passed =>
      cases hs
      exact .inr (.inr ⟨.inl rfl, rfl, rfl⟩)
    | _ => cases hs
  | connected =>
    cases outcome with
    | answered =>
      cases hs
      exact .inl ⟨rfl, rfl⟩
    | closed =>
      cases hs
      exact .inr (.inr ⟨.inl rfl, rfl, rfl⟩)
    | connectRaises registered =>
      cases hs
      obtain rfl : registered = false := by simpa [Flow.settles] using hg
      exact .inr (.inr ⟨.inl rfl, rfl, rfl⟩)
    | rescheduled | replaced => cases hg
    | _ => cases hs
  | signalled =>
    cases outcome with
    | websocketEnded =>
      cases hs
      exact .inr (.inr ⟨.inl rfl, rfl, rfl⟩)
    | sessionEnded =>
      cases hs
      exact .inr (.inr ⟨.inr rfl, rfl, rfl⟩)
    | ended => cases hg
    | _ => cases hs

/-- The acquires that are not released are those of the flows that hold a session, and the counts
count them. -/
structure Accounted (s : State) : Prop where
  items : s.acquired.Perm (s.released ++ held s.flows)
  counts : ∀ sessionId, s.manager.count sessionId =
    if s.manager.isDefault sessionId then 0
    else ((held s.flows).countP (·.sessionId = sessionId) : Int)

/-- The items of several flows. -/
theorem held_append (first second : List Flow) :
    held (first ++ second) = held first ++ held second := by
  simp [held]

/-- The items of the flows after a step. -/
theorem held_step (hf : flow ∈ s.flows) :
    (held s.flows).Perm (held [flow] ++ held (s.flows.erase flow)) := by
  rw [← held_append]
  exact ((List.perm_cons_erase hf).filter _).map _

/-- A step that keeps the sessions of the flows. -/
theorem Accounted.pass (h : Accounted s) (hf : flow ∈ s.flows) (hheld : held flows = held [flow]) :
    Accounted { s with flows := flows ++ s.flows.erase flow, created := s.created + 1 } := by
  have hperm : (held (flows ++ s.flows.erase flow)).Perm (held s.flows) := by
    rw [held_append, hheld]
    exact (held_step hf).symm
  refine ⟨h.items.trans (hperm.symm.append_left _), fun sessionId ↦ ?_⟩
  rw [hperm.countP_eq]
  exact h.counts sessionId

/-- An acquire. -/
theorem Accounted.acquire (h : Accounted s) (hf : flow ∈ s.flows) (hfree : held [flow] = [])
    (hheld : held flows = [flow.item]) :
    Accounted { s with
      manager := s.manager.acquire flow.item.sessionId
      acquired := flow.item :: s.acquired
      flows := flows ++ s.flows.erase flow
      created := s.created + 1 } := by
  have hold := held_step hf
  rw [hfree, List.nil_append] at hold
  have hperm : (held (flows ++ s.flows.erase flow)).Perm (flow.item :: held s.flows) := by
    rw [held_append, hheld]
    exact hold.symm.cons _
  refine ⟨?_, fun sessionId ↦ ?_⟩
  · calc
      (flow.item :: s.acquired).Perm (flow.item :: (s.released ++ held s.flows)) :=
        h.items.cons _
      _ |>.Perm (s.released ++ flow.item :: held s.flows) := List.perm_middle.symm
      _ |>.Perm (s.released ++ held (flows ++ s.flows.erase flow)) := hperm.symm.append_left _
  · rw [hperm.countP_eq, List.countP_cons, count_acquire, h.counts sessionId]
    obtain ⟨_, _, he⟩ := acquire_eq s.manager flow.item.sessionId
    have hsame : (s.manager.acquire flow.item.sessionId).isDefault sessionId =
        s.manager.isDefault sessionId := by
      rw [he]
      rfl
    rw [hsame]
    by_cases hs : sessionId = flow.item.sessionId
    · subst hs
      cases hd : s.manager.isDefault flow.item.sessionId <;> simp
    · simp [hs, Ne.symm hs]

/-- A release. -/
theorem Accounted.release (h : Accounted s) (hf : flow ∈ s.flows)
    (hheld : held [flow] = [flow.item]) (hfree : held flows = []) {manager : Sessions.State}
    (hd : manager.defaultSessionId = s.manager.defaultSessionId)
    (hc : manager.refCounts = s.manager.refCounts) :
    Accounted { s with
      manager := manager.release flow.item.sessionId
      released := flow.item :: s.released
      flows := flows ++ s.flows.erase flow
      created := s.created + 1 } := by
  have hperm : (held s.flows).Perm (flow.item :: held (flows ++ s.flows.erase flow)) := by
    rw [held_append, hfree]
    simpa [hheld] using held_step hf
  have hcount : ∀ id, manager.count id = s.manager.count id := fun id ↦ by
    rw [Sessions.State.count, hc, Sessions.State.count]
  have hdefault : ∀ id, manager.isDefault id = s.manager.isDefault id := fun id ↦ by
    rw [Sessions.State.isDefault, hd, Sessions.State.isDefault]
  have hpos : manager.isDefault flow.item.sessionId = false →
      0 < manager.count flow.item.sessionId := by
    intro hn
    rw [hdefault] at hn
    rw [hcount, h.counts, hn, hperm.countP_eq, List.countP_cons_of_pos (by simp)]
    simp only [Bool.false_eq_true, if_false]
    omega
  refine ⟨?_, fun sessionId ↦ ?_⟩
  · calc
      s.acquired.Perm (s.released ++ held s.flows) := h.items
      _ |>.Perm (s.released ++ flow.item :: held (flows ++ s.flows.erase flow)) :=
        hperm.append_left _
      _ |>.Perm (flow.item :: s.released ++ held (flows ++ s.flows.erase flow)) :=
        List.perm_middle
  · have hold := h.counts sessionId
    rw [hperm.countP_eq, List.countP_cons] at hold
    rw [count_release _ _ _ hpos, hcount, hold, hdefault]
    obtain ⟨_, _, _, _, he⟩ := release_eq manager flow.item.sessionId
    have hsame : (manager.release flow.item.sessionId).isDefault sessionId =
        s.manager.isDefault sessionId := by
      rw [he]
      exact hdefault sessionId
    rw [hsame]
    by_cases hs : sessionId = flow.item.sessionId
    · subst hs
      cases s.manager.isDefault flow.item.sessionId <;> simp
    · simp [hs, Ne.symm hs]

/-- One event. -/
theorem Accounted.step {event : Event} (h : Accounted s) (hg : Settles s event)
    (hs : s.step event = some t) : Accounted t := by
  cases event with
  | yields sessionId kind =>
    cases hs
    exact ⟨h.items, h.counts⟩
  | step flow outcome =>
    simp only [State.step] at hs
    split at hs
    · next hf =>
      obtain ⟨⟨calls, flows⟩, hstep, rfl⟩ := Option.map_eq_some_iff.mp hs
      rcases step_cases hg hstep with ⟨rfl, hheld⟩ | ⟨rfl, hfree, hheld⟩ |
        ⟨rfl | rfl, hheld, hfree⟩
      · exact h.pass hf hheld
      · exact h.acquire hf hfree hheld
      · exact h.release hf hheld hfree rfl rfl
      · obtain ⟨_, _, _, _, he⟩ := markEnd_eq s.manager flow.item.sessionId
        have hd : (s.manager.markEnd flow.item.sessionId).defaultSessionId =
            s.manager.defaultSessionId := by rw [he]
        have hc : (s.manager.markEnd flow.item.sessionId).refCounts = s.manager.refCounts := by
          rw [he]
        exact h.release hf hheld hfree hd hc
    · cases hs

/-- As long as the steps settle, acquires and releases are balanced. -/
theorem balanced_when_settled (h : machine.Reach Settles s) : s.Balanced := by
  have haccounted : Accounted s := by
    refine h.invariant ?_ fun _ _ _ _ ih hg hs ↦ ih.step hg hs
    rintro s ⟨defaultSessionId, rfl⟩
    refine ⟨.nil, fun sessionId ↦ ?_⟩
    show (0 : Int) = if _ then 0 else 0
    simp
  refine ⟨fun item hgone ↦ ?_, fun sessionId ↦ ?_, fun sessionId hgone ↦ ?_⟩
  · have hnone : item ∉ held s.flows := by
      intro hm
      obtain ⟨flow, hflow, he⟩ := List.mem_map.mp hm
      exact hgone flow (List.mem_filter.mp hflow).1 he
    rw [haccounted.items.count_eq, List.count_append, List.count_eq_zero.mpr hnone, Nat.add_zero]
  · rw [haccounted.counts]
    split <;> omega
  · have hnone : (held s.flows).countP (·.sessionId = sessionId) = 0 := by
      refine List.countP_eq_zero.mpr fun item hm ↦ ?_
      obtain ⟨flow, hflow, rfl⟩ := List.mem_map.mp hm
      simpa using hgone flow (List.mem_filter.mp hflow).1
    rw [haccounted.counts, hnone]
    simp

/-- A request that is downloaded, one that a request interceptor puts back as a duplicate, and a
signal that ends the session. -/
def threeItems : List Event :=
  let request : Item := ⟨0, "a", .http⟩
  let again : Item := ⟨8, "a", .websocket⟩
  let signal : Item := ⟨15, "a", .closeSignal⟩
  [.yields "a" .http, .step ⟨request, .output⟩ .passed, .step ⟨request, .admitted⟩ .passed,
    .step ⟨request, .enqueuing⟩ .passed, .step ⟨request, .queued⟩ .passed,
    .step ⟨request, .requesting⟩ .passed, .step ⟨request, .downloading⟩ .ended,
    .step ⟨request, .releasing⟩ .passed,
    .yields "a" .websocket, .step ⟨again, .output⟩ .passed, .step ⟨again, .admitted⟩ .passed,
    .step ⟨again, .enqueuing⟩ .passed, .step ⟨again, .queued⟩ .passed,
    .step ⟨again, .requesting⟩ .rescheduled, .step ⟨again, .enqueuing⟩ .dropped,
    .yields "a" .closeSignal, .step ⟨signal, .output⟩ .passed,
    .step ⟨signal, .signalled⟩ .sessionEnded]

/-- Their acquires and releases are balanced. -/
theorem balanced_when_settled_threeItems :
    State.Balanced ((machine.runIf Settles (.start "0") threeItems).getD (.start "0")) :=
  balanced_when_settled (.runIf threeItems (.init ⟨"0", rfl⟩) rfl)

/-- A signal for a connection that does not exist. -/
def unknownSignal : List Event :=
  [.yields "a" .closeSignal, .step ⟨⟨0, "a", .closeSignal⟩, .output⟩ .passed,
    .step ⟨⟨0, "a", .closeSignal⟩, .signalled⟩ .ended]

/-- Its acquire is never released. -/
theorem unknown_signal_not_balanced : ¬ ∀ s, machine.Reachable s → s.Balanced := by
  intro h
  have hreached : machine.Reachable ((machine.run (.start "0") unknownSignal).getD (.start "0")) :=
    .run unknownSignal (.init ⟨"0", rfl⟩) rfl
  exact absurd ((h _ hreached).items ⟨0, "a", .closeSignal⟩ (by decide)) (by decide)

end ScrapyCffi.Sessions.References
