import Mathlib.Data.List.Nodup
import ScrapyCffi.Crawler.Shutdown

/-!
# What a shutdown has done before it closes the resources

`_prepare_shutdown` goes through its plan of calls from the start at each attempt, and the
ledger of the requests makes a later attempt go on where the last one stopped
(`crawler.py:327–341,373–393,430–447`).
-/

namespace ScrapyCffi.Shutdown

open ScrapyCffi.Base

variable {σ : Type}

/-- What `_prepare_shutdown` awaits, in its order. -/
def Crawler.plan (c : Crawler σ) : List (Call σ) :=
  c.engines.map .cancelAll ++ c.requeued.map .requeue ++ c.persisted.map .persist ++
    c.cleaned.map .cleanup

/-- A request that a preparation does not have to push any more. -/
def Ledger.Settled (l : Ledger σ) (request : σ × Nat) : Prop :=
  request ∈ l.pushed ∨ request ∈ l.completed

/-- The preparation keeps its order, is not run again when it has succeeded, and pushes what it
finds leased, and nothing twice. -/
structure State.Orderly (c : Crawler σ) (s : State σ) : Prop where
  ordered : s.stopEvent = true ∨ s.resourcesClosing = true → s.returned = c.plan
  started : s.returned <+: c.plan
  once : s.shutdownPrepared = true → s.shutdownLock = none
  pushed : s.requests.pushed.Nodup
  resumed : ∀ request ∈ s.requests.present, .requeue request.1 ∈ s.returned →
    s.requests.Settled request
  kept : ∀ request ∈ s.requests.leases, request ∈ s.requests.inflightRequests ∨
    s.requests.Settled request

/-! ## The ledger -/

/-- The names of the requests are fresh, and each is leased until it is pushed or completed. -/
structure Ledger.Sound (l : Ledger σ) : Prop where
  named : ∀ request ∈ l.leases, request.2 < l.leases.length
  inflight : l.inflightRequests.Nodup
  leased : ∀ request ∈ l.inflightRequests, request ∈ l.leases
  present : ∀ request ∈ l.present, request ∈ l.leases
  pushedLeased : ∀ request ∈ l.pushed, request ∈ l.leases
  pushed : l.pushed.Nodup
  unpushed : ∀ request ∈ l.inflightRequests, request ∉ l.pushed
  kept : ∀ request ∈ l.leases, request ∈ l.inflightRequests ∨ l.Settled request

/-- What is known in a call of `requeue_inflight`: the rounds left are of distinct requests that
are not pushed, and those of its spider that were leased are settled, or of these. -/
def Stage.Sound (l : Ledger σ) : Stage σ → Prop
  | .pushing spider requests _ => requests.Nodup ∧
      (∀ request ∈ requests, (spider, request) ∈ l.leases ∧ (spider, request) ∉ l.pushed) ∧
      ∀ request ∈ l.present, request.1 = spider → l.Settled request ∨ request.2 ∈ requests
  | .returning spider _ _ _ => ∀ request ∈ l.present, request.1 = spider → l.Settled request
  | _ => True

variable {l : Ledger σ}

/-- A new request is leased. -/
theorem Ledger.Sound.lease (h : l.Sound) (spider : σ) : (l.lease spider).Sound where
  named request hr := by
    simp only [Ledger.lease, List.length_append, List.length_singleton, List.mem_append,
      List.mem_singleton] at hr ⊢
    rcases hr with hr | rfl
    · exact Nat.lt_succ_of_lt (h.named request hr)
    · exact Nat.lt_succ_self _
  inflight := by
    refine h.inflight.append (List.nodup_singleton _) ?_
    rw [List.disjoint_singleton]
    intro hr
    exact Nat.lt_irrefl _ (h.named _ (h.leased _ hr))
  leased request hr := by
    simp only [Ledger.lease, List.mem_append, List.mem_singleton] at hr ⊢
    exact hr.imp_left (h.leased request)
  present request hr := List.mem_append_left _ (h.present request hr)
  pushedLeased request hr := List.mem_append_left _ (h.pushedLeased request hr)
  pushed := h.pushed
  unpushed request hr := by
    simp only [Ledger.lease, List.mem_append, List.mem_singleton] at hr
    rcases hr with hr | rfl
    · exact h.unpushed request hr
    · intro hp
      exact Nat.lt_irrefl _ (h.named _ (h.pushedLeased _ hp))
  kept request hr := by
    simp only [Ledger.lease, List.mem_append, List.mem_singleton] at hr ⊢
    rcases hr with hr | rfl
    · exact (h.kept request hr).imp_left .inl
    · exact .inl (.inr rfl)

/-- A running call after a new lease. -/
theorem Stage.Sound.lease {stage : Stage σ} (h : stage.Sound l) (spider : σ) :
    stage.Sound (l.lease spider) := by
  cases stage with
  | pushing p requests spiders =>
    obtain ⟨hnodup, hrounds, hpresent⟩ := h
    refine ⟨hnodup, fun request hr ↦ ⟨?_, (hrounds request hr).2⟩, hpresent⟩
    exact List.mem_append_left _ (hrounds request hr).1
  | returning p messages added spiders => exact h
  | cancelling | requeueing | persisting | cleaning => trivial

/-- A preparation begins. -/
theorem Ledger.Sound.begin (h : l.Sound) : l.begin.Sound :=
  { h with present := h.leased }

section Requeue

variable [DecidableEq σ]

/-- A request of a scheduler. -/
theorem mem_inflight {spider : σ} {request : Nat} :
    request ∈ l.inflight spider ↔ (spider, request) ∈ l.inflightRequests := by
  simp [Ledger.inflight]

/-- The requests of a scheduler are distinct. -/
theorem Ledger.Sound.nodup_inflight (h : l.Sound) (spider : σ) : (l.inflight spider).Nodup := by
  refine (h.inflight.filter _).map_on ?_
  intro a ha b hb hab
  have ha : a.1 = spider := by simpa using (List.mem_filter.mp ha).2
  have hb : b.1 = spider := by simpa using (List.mem_filter.mp hb).2
  exact Prod.ext (ha.trans hb.symm) hab

/-- `requeue_inflight` takes what its scheduler has leased. -/
theorem Ledger.Sound.pushing (h : l.Sound) (spider : σ) (spiders : List σ) :
    (Stage.pushing spider (l.inflight spider) spiders).Sound l := by
  refine ⟨h.nodup_inflight spider, fun request hr ↦ ?_, fun request hr hspider ↦ ?_⟩
  · have hr := mem_inflight.mp hr
    exact ⟨h.leased _ hr, h.unpushed _ hr⟩
  · subst hspider
    rcases h.kept request (h.present request hr) with hleased | hsettled
    · exact .inr (mem_inflight.mpr hleased)
    · exact .inl hsettled

/-- A request is pushed. -/
theorem Ledger.Sound.push {request : σ × Nat} (h : l.Sound) (hleased : request ∈ l.leases)
    (hpushed : request ∉ l.pushed) : (l.push request).Sound where
  named := h.named
  inflight := h.inflight.erase request
  leased other ho := h.leased other (List.mem_of_mem_erase ho)
  present := h.present
  pushedLeased other ho := by
    simp only [Ledger.push, List.mem_append, List.mem_singleton] at ho
    rcases ho with ho | rfl
    · exact h.pushedLeased other ho
    · exact hleased
  pushed := by
    refine h.pushed.append (List.nodup_singleton _) ?_
    rwa [List.disjoint_singleton]
  unpushed other ho := by
    have ho := (h.inflight.mem_erase_iff).mp ho
    simp only [Ledger.push, List.mem_append, List.mem_singleton, not_or]
    exact ⟨h.unpushed other ho.2, ho.1⟩
  kept other ho := by
    by_cases heq : other = request
    · exact .inr (.inl (by simp [Ledger.push, heq]))
    · rcases h.kept other ho with hi | hp | hc
      · exact .inl ((List.mem_erase_of_ne heq).mpr hi)
      · exact .inr (.inl (List.mem_append_left _ hp))
      · exact .inr (.inr hc)

/-- `requeue_inflight` after the push of its next request. -/
theorem Stage.Sound.push {spider : σ} {request : Nat} {requests : List Nat} {spiders : List σ}
    (h : (Stage.pushing spider (request :: requests) spiders).Sound l) :
    (Stage.pushing spider requests spiders).Sound (l.push (spider, request)) := by
  obtain ⟨hnodup, hrounds, hpresent⟩ := h
  refine ⟨hnodup.of_cons, fun other ho ↦ ⟨?_, ?_⟩, fun other ho hspider ↦ ?_⟩
  · exact (hrounds other (List.mem_cons_of_mem _ ho)).1
  · simp only [Ledger.push, List.mem_append, List.mem_singleton, Prod.mk.injEq, true_and, not_or]
    refine ⟨(hrounds other (List.mem_cons_of_mem _ ho)).2, ?_⟩
    rintro rfl
    exact (List.nodup_cons.mp hnodup).1 ho
  · rcases hpresent other ho hspider with (hp | hc) | hr
    · exact .inl (.inl (List.mem_append_left _ hp))
    · exact .inl (.inr hc)
    · rcases List.mem_cons.mp hr with heq | hr
      · subst hspider heq
        exact .inl (.inl (List.mem_append_right _ (List.mem_singleton_self _)))
      · exact .inr hr

/-- A settled request stays so when another is completed. -/
theorem Ledger.Settled.complete {request : σ × Nat} (h : l.Settled request) (other : σ × Nat) :
    (l.complete other).Settled request := by
  rw [Ledger.complete]
  split
  · exact h.imp_right (List.mem_append_left _)
  · exact h

/-- A request is completed. -/
theorem Ledger.Sound.complete (h : l.Sound) (request : σ × Nat) : (l.complete request).Sound := by
  rw [Ledger.complete]
  split
  · refine ⟨h.named, h.inflight.erase request, fun other ho ↦ h.leased other ?_, h.present,
      h.pushedLeased, h.pushed, fun other ho ↦ h.unpushed other ?_, fun other ho ↦ ?_⟩
    · exact List.mem_of_mem_erase ho
    · exact List.mem_of_mem_erase ho
    · by_cases heq : other = request
      · exact .inr (.inr (by simp [heq]))
      · rcases h.kept other ho with hi | hp | hc
        · exact .inl ((List.mem_erase_of_ne heq).mpr hi)
        · exact .inr (.inl hp)
        · exact .inr (.inr (List.mem_append_left _ hc))
  · exact h

theorem present_complete (l : Ledger σ) (request : σ × Nat) :
    (l.complete request).present = l.present := by
  rw [Ledger.complete]
  split <;> rfl

/-- A running call after a completion. -/
theorem Stage.Sound.complete {stage : Stage σ} (h : stage.Sound l) (request : σ × Nat) :
    stage.Sound (l.complete request) := by
  have hleases : (l.complete request).leases = l.leases := by
    rw [Ledger.complete]
    split <;> rfl
  have hpushed : (l.complete request).pushed = l.pushed := by
    rw [Ledger.complete]
    split <;> rfl
  cases stage with
  | pushing p requests spiders =>
    obtain ⟨hnodup, hrounds, hsettled⟩ := h
    rw [Stage.Sound, present_complete, hleases, hpushed]
    exact ⟨hnodup, hrounds, fun r hr hp ↦ (hsettled r hr hp).imp_left fun hs ↦ hs.complete request⟩
  | returning p messages added spiders =>
    rw [Stage.Sound, present_complete]
    exact fun r hr hp ↦ (h r hr hp).complete request
  | cancelling | requeueing | persisting | cleaning => trivial

end Requeue

/-! ## The passes -/

/-- What a preparation has still to await. -/
def Stage.remaining (c : Crawler σ) : Stage σ → List (Call σ)
  | .cancelling engines => engines.map .cancelAll ++ c.requeued.map .requeue ++
      c.persisted.map .persist ++ c.cleaned.map .cleanup
  | .requeueing spiders => spiders.map .requeue ++ c.persisted.map .persist ++
      c.cleaned.map .cleanup
  | .pushing spider _ spiders | .returning spider _ _ spiders =>
    .requeue spider :: (spiders.map .requeue ++ c.persisted.map .persist ++
      c.cleaned.map .cleanup)
  | .persisting spiders => spiders.map .persist ++ c.cleaned.map .cleanup
  | .cleaning spiders _ => spiders.map .cleanup

/-- A call that has gone past its `_prepare_shutdown`. -/
def Phase.isPrepared : Phase σ → Bool
  | .closingRuntime | .cleaning _ | .closing => true
  | .running | .signalling | .preparing | .over _ => false

/-- What is known between two events. -/
structure State.Kept (c : Crawler σ) (s : State σ) : Prop where
  sound : s.requests.Sound
  stage : ∀ caller stage, s.shutdownLock = some (caller, stage) →
    stage.Sound s.requests ∧ s.returned ++ stage.remaining c = c.plan
  resumed : ∀ request ∈ s.requests.present, .requeue request.1 ∈ s.returned →
    s.requests.Settled request
  started : s.returned <+: c.plan
  prepared : s.shutdownPrepared = true → s.shutdownLock = none ∧ s.returned = c.plan
  stopped : s.stopEvent = true → s.shutdownPrepared = true
  closing : s.resourcesClosing = true → s.shutdownPrepared = true
  runtime : s.runtimeLock.isSome = true → s.shutdownPrepared = true
  callers : ∀ caller ∈ s.callers, caller.phase.isPrepared = true → s.shutdownPrepared = true

variable {c : Crawler σ} {s t : State σ}

/-- The invariant is enough. -/
theorem State.Kept.orderly (h : s.Kept c) : s.Orderly c where
  ordered hs := (h.prepared (hs.elim h.stopped h.closing)).2
  started := h.started
  once hp := (h.prepared hp).1
  pushed := h.sound.pushed
  resumed := h.resumed
  kept := h.sound.kept

/-- The phase of a call that has gone past its preparation. -/
theorem State.Kept.isPrepared (h : s.Kept c) {caller : Nat} {phase : Phase σ}
    (hphase : s.phase caller = some phase) (hp : phase.isPrepared = true) :
    s.shutdownPrepared = true := by
  obtain ⟨caller, hget, rfl⟩ := Option.map_eq_some_iff.mp hphase
  exact h.callers caller (List.mem_of_getElem? hget) hp

/-- A call goes on. -/
theorem State.Kept.setPhase (h : s.Kept c) {caller : Nat} {phase : Phase σ}
    (hp : phase.isPrepared = true → s.shutdownPrepared = true) :
    (s.setPhase caller phase).Kept c := by
  refine { h with callers := ?_ }
  intro after hafter hphase
  obtain ⟨i, hi⟩ := List.mem_iff_getElem?.mp hafter
  simp only [State.setPhase, List.getElem?_modify, Option.map_eq_map,
    Option.map_eq_some_iff] at hi
  obtain ⟨before, hbefore, rfl⟩ := hi
  by_cases hcaller : caller = i
  · simp only [hcaller, if_true] at hphase
    exact hp hphase
  · simp only [hcaller, if_false] at hphase
    exact h.callers before (List.mem_of_getElem? hbefore) hphase

/-- The preparation goes on: the `calls` have returned, and the requests are those of `l`. -/
theorem State.Kept.setStage {caller : Nat} {before after : Stage σ} (h : s.Kept c)
    (hlock : s.shutdownLock = some (caller, before)) (calls : List (Call σ))
    (hremaining : before.remaining c = calls ++ after.remaining c)
    (hsound : l.Sound) (hpresent : l.present = s.requests.present)
    (hsettled : ∀ request, s.requests.Settled request → l.Settled request)
    (hstage : after.Sound l)
    (hcalls : ∀ request ∈ l.present, .requeue request.1 ∈ calls → l.Settled request) :
    ({ s with requests := l, returned := s.returned ++ calls }.setStage caller after).Kept c := by
  have hplan := (h.stage caller before hlock).2
  rw [hremaining, ← List.append_assoc] at hplan
  have hprepared : s.shutdownPrepared = false := by
    rw [Bool.eq_false_iff]
    intro hp
    rw [(h.prepared hp).1] at hlock
    cases hlock
  refine { h with sound := hsound, stage := ?_, resumed := ?_, started := ?_, prepared := ?_ }
  · rintro _ _ ⟨rfl⟩
    exact ⟨hstage, hplan⟩
  · intro request hr hcall
    rcases List.mem_append.mp hcall with hcall | hcall
    · exact hsettled request (h.resumed request (hpresent ▸ hr) hcall)
    · exact hcalls request hr hcall
  · exact ⟨_, hplan⟩
  · intro hp
    have hp : s.shutdownPrepared = true := hp
    rw [hprepared] at hp
    cases hp

/-- The preparation goes on after a call that is not `requeue_inflight`. -/
theorem State.Kept.returned {caller : Nat} {before after : Stage σ} {call : Call σ} (h : s.Kept c)
    (hlock : s.shutdownLock = some (caller, before))
    (hremaining : before.remaining c = call :: after.remaining c)
    (hstage : after.Sound s.requests)
    (hcall : ∀ request ∈ s.requests.present, call = .requeue request.1 →
      s.requests.Settled request) :
    ((s.record call).setStage caller after).Kept c := by
  refine h.setStage hlock [call] hremaining h.sound rfl (fun _ hs ↦ hs) hstage ?_
  intro request hr hmem
  exact hcall request hr (List.mem_singleton.mp hmem).symm

/-- The preparation goes on and nothing has returned. -/
theorem State.Kept.next {caller : Nat} {before after : Stage σ} (h : s.Kept c)
    (hlock : s.shutdownLock = some (caller, before))
    (hremaining : before.remaining c = after.remaining c) (hstage : after.Sound s.requests) :
    (s.setStage caller after).Kept c := by
  have hkept := h.setStage hlock [] hremaining h.sound rfl (fun _ hs ↦ hs) hstage
    fun _ _ hmem ↦ by cases hmem
  rwa [List.append_nil] at hkept

/-! ## One event -/

/-- A call begins. -/
theorem State.Kept.call (h : s.Kept c) (isShutdown : Bool) : (s.call isShutdown).Kept c := by
  refine { h with callers := ?_ }
  intro caller hc hphase
  rcases List.mem_append.mp hc with hc | hc
  · exact h.callers caller hc hphase
  · rw [List.mem_singleton] at hc
    subst hc
    cases isShutdown <;> cases hphase

/-- A caller gets `_shutdown_lock`. -/
theorem State.Kept.prepareShutdown {caller : Nat} (h : s.Kept c)
    (hs : s.prepareShutdown c caller = some t) : t.Kept c := by
  rw [State.prepareShutdown] at hs
  split at hs
  · next hlock hphase =>
    split at hs
    · next hprepared =>
      cases hs
      exact h.setPhase fun _ ↦ hprepared
    · next hprepared =>
      cases hs
      refine { h with
        sound := h.sound.begin, stage := ?_, resumed := ?_, started := ?_, prepared := ?_ }
      · rintro _ _ ⟨rfl⟩
        exact ⟨trivial, rfl⟩
      · intro request hr hcall
        cases hcall
      · exact List.nil_prefix
      · intro hp
        exact absurd hp hprepared
  · cases hs

/-- `_prepare_shutdown` has succeeded. -/
theorem State.Kept.prepareEnds {caller : Nat} {before : Stage σ} {cleaned : List σ} (h : s.Kept c)
    (hlock : s.shutdownLock = some (caller, before)) (hremaining : before.remaining c = []) :
    (s.prepared c caller cleaned).Kept c := by
  have hplan := (h.stage caller before hlock).2
  rw [hremaining, List.append_nil] at hplan
  refine State.Kept.setPhase ?_ fun _ ↦ rfl
  exact { h with
    stage := fun _ _ hl ↦ (by cases hl)
    prepared := fun _ ↦ ⟨rfl, hplan⟩
    stopped := fun _ ↦ rfl
    closing := fun _ ↦ rfl
    runtime := fun _ ↦ rfl
    callers := fun _ _ _ ↦ rfl }

/-- What the preparation awaits raises. -/
theorem State.Kept.raises (h : s.Kept c) (hs : s.raises = some t) : t.Kept c := by
  rw [State.raises] at hs
  split at hs
  · next caller stage hlock =>
    cases hs
    refine State.Kept.setPhase ?_ fun hp ↦ by cases hp
    exact { h with
      stage := fun _ _ hl ↦ (by cases hl)
      prepared := fun hp ↦ ⟨rfl, (h.prepared hp).2⟩ }
  · cases hs

/-- The runtime is closed. -/
theorem State.Kept.closedRuntime (h : s.Kept c) (hp : s.shutdownPrepared = true) (caller : Nat) :
    (s.closedRuntime c caller).Kept c :=
  h.setPhase fun _ ↦ hp

/-- A caller gets `_runtime_close_lock`. -/
theorem State.Kept.closeRuntime {caller : Nat} (h : s.Kept c)
    (hs : s.closeRuntime c caller = some t) : t.Kept c := by
  rw [State.closeRuntime] at hs
  split at hs
  · next hlock hphase =>
    have hp := h.isPrepared hphase rfl
    split at hs
    · cases hs
      exact h.closedRuntime hp caller
    · cases hs
      exact { h with runtime := fun _ ↦ hp }
  · cases hs

/-- `_close_runtime_state` goes on. -/
theorem State.Kept.runtimeReturns (h : s.Kept c) (hs : s.runtimeReturns c = some t) :
    t.Kept c := by
  have hp : ∀ holder, s.runtimeLock = some holder → s.shutdownPrepared = true := by
    intro holder hlock
    exact h.runtime (by rw [hlock]; rfl)
  rw [State.runtimeReturns] at hs
  split at hs
  · next hlock =>
    cases hs
    exact { h with runtime := fun _ ↦ hp _ hlock }
  · next hlock =>
    cases hs
    exact { h with runtime := fun _ ↦ hp _ hlock }
  · next hlock =>
    cases hs
    exact { h with runtime := fun _ ↦ hp _ hlock }
  · next hlock =>
    cases hs
    have hkept : ({ s with runtimeClosed := true, runtimeLock := none } : State σ).Kept c :=
      { h with runtime := fun hl ↦ by cases hl }
    exact hkept.closedRuntime (hp _ hlock) _
  · cases hs

/-- What `_close_runtime_state` awaits raises. -/
theorem State.Kept.runtimeRaises (h : s.Kept c) (hs : s.runtimeRaises = some t) : t.Kept c := by
  rw [State.runtimeRaises] at hs
  split at hs
  · cases hs
    refine State.Kept.setPhase ?_ fun hp ↦ by cases hp
    exact { h with runtime := fun hl ↦ by cases hl }
  · cases hs

/-- A request is leased. -/
theorem State.Kept.lease (h : s.Kept c) (spider : σ) :
    ({ s with requests := s.requests.lease spider } : State σ).Kept c :=
  { h with
    sound := h.sound.lease spider
    stage := fun _ _ hlock ↦ (h.stage _ _ hlock).imp_left fun hs ↦ hs.lease spider }

variable [DecidableEq σ]

/-- The preparation goes on without an `await`. -/
theorem State.Kept.advance (h : s.Kept c) (hs : s.advance c = some t) : t.Kept c := by
  rw [State.advance] at hs
  split at hs
  · next hlock =>
    cases hs
    exact h.next hlock rfl trivial
  · next hlock =>
    cases hs
    exact h.next hlock rfl trivial
  · next hlock =>
    cases hs
    exact h.next hlock rfl (h.sound.pushing _ _)
  · next spider spiders hlock =>
    cases hs
    refine h.next hlock rfl fun request hr hspider ↦ ?_
    -- there are no rounds left
    rcases (h.stage _ _ hlock).1.2.2 request hr hspider with hsettled | hround
    · exact hsettled
    · cases hround
  · next spider _ spiders hlock =>
    cases hs
    refine h.returned hlock rfl trivial fun request hr heq ↦ ?_
    exact (h.stage _ _ hlock).1 request hr (Call.requeue.inj heq).symm
  · next hlock =>
    cases hs
    exact h.next hlock rfl trivial
  · next hlock =>
    cases hs
    exact h.prepareEnds hlock rfl
  · next hlock =>
    split at hs
    · cases hs
      exact h.returned hlock rfl trivial fun request _ heq ↦ by cases heq
    · cases hs
  · cases hs

/-- What the preparation awaits returns. -/
theorem State.Kept.returns {succeeded : Bool} (h : s.Kept c) (hs : s.returns succeeded = some t) :
    t.Kept c := by
  rw [State.returns] at hs
  split at hs
  · next hlock =>
    cases hs
    exact h.returned hlock rfl trivial fun request _ heq ↦ by cases heq
  · next caller spider request requests spiders hlock =>
    cases hs
    have hstage := (h.stage _ _ hlock).1
    have hround := hstage.2.1 request List.mem_cons_self
    have hkept := h.setStage hlock [] rfl (h.sound.push hround.1 hround.2) rfl
      (fun other ho ↦ ho.imp_left (List.mem_append_left _)) hstage.push fun _ _ hmem ↦ by cases hmem
    rwa [List.append_nil] at hkept
  · next caller spider message messages added spiders hlock =>
    have hsettled := (h.stage _ _ hlock).1
    split at hs
    · cases hs
      exact h.next hlock rfl hsettled
    · cases hs
      have hkept : (s.setStage caller (.returning spider messages false spiders)).Kept c :=
        h.next hlock rfl hsettled
      exact { hkept with }
  · next hlock =>
    cases hs
    exact h.returned hlock rfl trivial fun request _ heq ↦ by cases heq
  · next hlock =>
    split at hs
    · cases hs
    · cases hs
      exact h.returned hlock rfl trivial fun request _ heq ↦ by cases heq
  · cases hs

/-- The clean-up at the end of `shutdown`. -/
theorem State.Kept.cleanup {caller : Nat} {succeeded : Bool} (h : s.Kept c)
    (hs : s.cleanup caller succeeded = some t) : t.Kept c := by
  rw [State.cleanup] at hs
  split at hs
  · next hphase =>
    have hp := h.isPrepared hphase rfl
    cases hs
    refine State.Kept.setPhase ?_ fun _ ↦ hp
    exact { h with closing := fun _ ↦ hp }
  · next hphase =>
    have hp := h.isPrepared hphase rfl
    cases hs
    refine State.Kept.setPhase ?_ fun _ ↦ hp
    exact { h with }
  · cases hs

/-- A request is completed. -/
theorem State.Kept.complete (h : s.Kept c) (request : σ × Nat) :
    ({ s with requests := s.requests.complete request } : State σ).Kept c :=
  { h with
    sound := h.sound.complete request
    stage := fun _ _ hlock ↦ (h.stage _ _ hlock).imp_left fun hs ↦ hs.complete request
    resumed := fun other ho hcall ↦
      (h.resumed other (present_complete _ request ▸ ho) hcall).complete request }

/-- One event. -/
theorem State.Kept.step {e : Event σ} (h : s.Kept c) (hs : s.step c e = some t) : t.Kept c := by
  cases e with
  | call isShutdown =>
    cases hs
    exact h.call isShutdown
  | runOver caller =>
    rw [State.step, State.runOver] at hs
    split at hs
    · cases hs
      exact h.setPhase fun hp ↦ by cases hp
    · cases hs
  | signalled caller =>
    rw [State.step, State.signalled] at hs
    split at hs
    · cases hs
      exact h.setPhase fun hp ↦ by cases hp
    · cases hs
  | prepareShutdown caller => exact h.prepareShutdown hs
  | advance => exact h.advance hs
  | returns succeeded => exact h.returns hs
  | raises => exact h.raises hs
  | closeRuntime caller => exact h.closeRuntime hs
  | runtimeReturns => exact h.runtimeReturns hs
  | runtimeRaises => exact h.runtimeRaises hs
  | cleanup caller succeeded => exact h.cleanup hs
  | closed caller =>
    rw [State.step, State.closed] at hs
    split at hs
    · cases hs
      exact h.setPhase fun hp ↦ by cases hp
    · cases hs
  | abandon caller =>
    rw [State.step, State.abandon] at hs
    split at hs
    · cases hs
    · split at hs
      · cases hs
      · cases hs
      · cases hs
        exact h.setPhase fun hp ↦ by cases hp
  | lease spider =>
    cases hs
    exact h.lease spider
  | attachStartRequest spider message =>
    cases hs
    exact { h with }
  | complete request =>
    cases hs
    exact h.complete request

omit [DecidableEq σ] in
/-- Nothing has begun. -/
theorem kept_init (c : Crawler σ) : State.init.Kept c where
  sound := by constructor <;> simp [State.init]
  stage _ _ hlock := by cases hlock
  resumed _ hr := by cases hr
  started := List.nil_prefix
  prepared hp := by cases hp
  stopped hp := by cases hp
  closing hp := by cases hp
  runtime hl := by cases hl
  callers _ hc := by cases hc

/-- After a preparation that has succeeded none begins. -/
theorem prepared_step {e : Event σ} (hprepared : s.shutdownPrepared = true)
    (hlock : s.shutdownLock = none) (hs : s.step c e = some t) :
    t.shutdownPrepared = true ∧ t.attempts = s.attempts ∧ t.returned = s.returned := by
  cases e with
  | prepareShutdown caller =>
    rw [State.step, State.prepareShutdown] at hs
    split at hs
    · rw [if_pos hprepared] at hs
      cases hs
      exact ⟨hprepared, rfl, rfl⟩
    · cases hs
  | advance =>
    rw [State.step, State.advance, hlock] at hs
    cases hs
  | returns succeeded =>
    rw [State.step, State.returns, hlock] at hs
    cases hs
  | raises =>
    rw [State.step, State.raises, hlock] at hs
    cases hs
  | abandon caller =>
    rw [State.step, State.abandon] at hs
    split at hs
    · cases hs
    · split at hs <;> cases hs
      exact ⟨hprepared, rfl, rfl⟩
  | closeRuntime caller =>
    rw [State.step, State.closeRuntime] at hs
    split at hs
    · split at hs <;> cases hs <;> exact ⟨hprepared, rfl, rfl⟩
    · cases hs
  | runtimeReturns =>
    rw [State.step, State.runtimeReturns] at hs
    split at hs <;> cases hs <;> exact ⟨hprepared, rfl, rfl⟩
  | runtimeRaises =>
    rw [State.step, State.runtimeRaises] at hs
    split at hs <;> cases hs
    exact ⟨hprepared, rfl, rfl⟩
  | runOver caller =>
    rw [State.step, State.runOver] at hs
    split at hs <;> cases hs
    exact ⟨hprepared, rfl, rfl⟩
  | signalled caller =>
    rw [State.step, State.signalled] at hs
    split at hs <;> cases hs
    exact ⟨hprepared, rfl, rfl⟩
  | cleanup caller succeeded =>
    rw [State.step, State.cleanup] at hs
    split at hs <;> cases hs <;> exact ⟨hprepared, rfl, rfl⟩
  | closed caller =>
    rw [State.step, State.closed] at hs
    split at hs <;> cases hs
    exact ⟨hprepared, rfl, rfl⟩
  | call | lease | attachStartRequest | complete =>
    cases hs
    exact ⟨hprepared, rfl, rfl⟩

/-- In every run the preparation keeps its order and its ledger, and after one that has succeeded
no caller begins another. -/
theorem shutdown_resumable (c : Crawler σ) (h : (machine c).Reachable s) :
    s.Orderly c ∧ ∀ e t, (machine c).step s e = some t → s.shutdownPrepared = true →
      t.shutdownPrepared = true ∧ t.attempts = s.attempts ∧ t.returned = s.returned := by
  have hkept : s.Kept c :=
    h.invariant (fun _ hinit ↦ hinit ▸ kept_init c) fun _ _ _ _ ih _ hs ↦ ih.step hs
  exact ⟨hkept.orderly, fun e t hs hp ↦ prepared_step hp (hkept.prepared hp).1 hs⟩

/-- Two spiders of one engine, with persistent sessions. -/
def twoSpiders : Crawler Bool where
  engines := [0]
  spiders := [false, true]
  requeues _ := true
  persists _ := true
  schedulerPersist := true
  persistSessions := true

/-- The preparation of `start_engines` fails after its first push, a `shutdown` that waits for the
lock goes through, and a third call finds the preparation over. -/
def interruptedRequeue : List (Event Bool) :=
  [.lease false, .lease false, .lease true, .attachStartRequest true ⟨7, true⟩, .call false,
    .runOver 0, .signalled 0, .call true, .prepareShutdown 0, .returns true, .advance, .advance,
    .returns true, .raises, .prepareShutdown 1, .returns true, .advance, .advance, .returns true,
    .advance, .advance, .advance, .returns true, .advance, .returns true, .returns true, .advance,
    .advance, .returns true, .returns true, .advance, .advance, .closeRuntime 1, .call true,
    .prepareShutdown 2, .runtimeReturns, .runtimeReturns, .runtimeReturns, .runtimeReturns,
    .cleanup 1 true]

theorem shutdown_resumable_interrupted :
    ((((machine twoSpiders).run State.init interruptedRequeue).getD State.init).Orderly
      twoSpiders) ∧
    (((machine twoSpiders).run State.init interruptedRequeue).any fun s ↦
      s.resourcesClosing && s.requests.pushed = [(false, 0), (false, 1), (true, 2)]) = true :=
  ⟨(shutdown_resumable twoSpiders (.run interruptedRequeue (.init rfl) rfl)).1, by decide⟩

end ScrapyCffi.Shutdown
