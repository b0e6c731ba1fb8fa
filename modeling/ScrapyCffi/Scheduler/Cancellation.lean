import ScrapyCffi.Scheduler.Get

/-!
# Cancelled gets

A popped request is in exactly one pair of hands at a time: the broker's queue, a coroutine
inside `get` or settling its cancellation, the lease table, or the completed requests. Every
event but a cancellation only passes requests on; a cancellation does so as long as the
broker can still be told to take the delivery back.
-/

namespace ScrapyCffi.Scheduler.Get

open ScrapyCffi.Base

/-- The request a suspended loop has taken from the queue and not passed on. -/
def Getting.held : Getting → Option Queued
  | .delivered request => some request
  | .message request => some request
  | .acking request => some request
  | .acked request => some request
  | .restoring request => some request
  | .rejecting request => some request
  | .idle => none
  | .popping => none
  | .settling => none
  | .ended => none

/-- The request is queued, leased, completed, or in the hands of a live coroutine. -/
def State.Located (s : State) (request : Queued) : Prop :=
  request ∈ s.queue ∨ request ∈ s.inflight ∨ request ∈ s.completed ∨
    ∃ loop, (s.loops loop).held = some request

/-- No pushed request is lost. -/
def State.NoneLost (s : State) : Prop := ∀ request ∈ s.pushed, s.Located request

/-- Where a cancellation finds nothing it would have to give back, or can still reject it:
before a Redis pop is answered, and before a RabbitMQ acknowledgement is written unless the
loop is already settling an earlier cancellation. -/
def Getting.settles : Getting → Bool
  | .idle => true
  | .popping => true
  | .message _ => true
  | .acking _ => true
  | .ended => true
  | .delivered _ => false
  | .acked _ => false
  | .restoring _ => false
  | .settling => false
  | .rejecting _ => false

/-- Cancellations hit loops where they settle. -/
def SettledCancel (s : State) : Event → Prop
  | .cancel loop => (s.loops loop).settles = true
  | _ => True

instance (s : State) : ∀ e, Decidable (SettledCancel s e)
  | .cancel loop => inferInstanceAs (Decidable ((s.loops loop).settles = true))
  | .push _ => isTrue trivial
  | .poll _ => isTrue trivial
  | .empty _ => isTrue trivial
  | .deliver _ => isTrue trivial
  | .deliverAbandoned => isTrue trivial
  | .acknowledge _ => isTrue trivial
  | .resume _ => isTrue trivial
  | .complete _ => isTrue trivial
  | .requeue _ => isTrue trivial

variable {config : Config} {s t : State} {request : Queued}

/-- A step at one loop locates a request when it does so for what it moved. -/
theorem State.Located.move (h : s.Located request) {loop : Nat}
    (hloops : ∀ other, other ≠ loop → t.loops other = s.loops other)
    (hqueue : request ∈ s.queue → t.Located request)
    (hinflight : request ∈ s.inflight → t.Located request)
    (hcompleted : request ∈ s.completed → t.Located request)
    (hheld : (s.loops loop).held = some request → t.Located request) : t.Located request := by
  obtain hq | hf | hc | ⟨other, ho⟩ := h
  · exact hqueue hq
  · exact hinflight hf
  · exact hcompleted hc
  · by_cases he : other = loop
    · exact hheld (he ▸ ho)
    · exact .inr (.inr (.inr ⟨other, by rw [hloops other he]; exact ho⟩))

/-- A loop that still holds what it held loses nothing. -/
theorem State.Located.setLoop (h : s.Located request) {loop : Nat} {getting : Getting}
    (hheld : (s.loops loop).held = some request → getting.held = some request) :
    (s.setLoop loop getting).Located request := by
  refine h.move (fun other ho ↦ Function.update_of_ne ho _ _) .inl (fun hf ↦ .inr (.inl hf))
    (fun hc ↦ .inr (.inr (.inl hc))) (fun ho ↦ .inr (.inr (.inr ⟨loop, ?_⟩)))
  simpa [State.setLoop] using hheld ho

/-- Leasing moves the held request to the table. -/
theorem State.Located.leaseRequest (h : s.Located request) {loop : Nat} {popped : Queued}
    (hheld : (s.loops loop).held = some popped) :
    (s.leaseRequest loop popped).Located request := by
  refine h.move (fun other ho ↦ Function.update_of_ne ho _ _) .inl
    (fun hf ↦ .inr (.inl (List.mem_append_left _ hf))) (fun hc ↦ .inr (.inr (.inl hc)))
    (fun ho ↦ .inr (.inl (List.mem_append_right _ ?_)))
  simpa using Option.some.inj (ho.symm.trans hheld)

/-- Restoring the session keeps the request held or leases it. -/
theorem State.Located.restoreRequestSession (h : s.Located request) {loop : Nat}
    {popped : Queued} (hheld : (s.loops loop).held = some popped) :
    (s.restoreRequestSession config loop popped).Located request := by
  unfold State.restoreRequestSession
  split
  · exact h.setLoop fun ho ↦ hheld.symm.trans ho
  · exact h.leaseRequest hheld

/-- Delivering moves the first queued request into a loop's hands. -/
theorem State.Located.deliver (h : s.Located request) {loop : Nat}
    (hs : s.deliver config loop = some t) : t.Located request := by
  have hmove : ∀ {first rest getting}, s.queue = first :: rest → (s.loops loop).held = none →
      getting.held = some first →
        State.Located { s.setLoop loop getting with queue := rest } request := by
    intro first rest getting hq hidle hgets
    refine h.move (fun other ho ↦ Function.update_of_ne ho _ _) (fun hm ↦ ?_)
      (fun hf ↦ .inr (.inl hf)) (fun hc ↦ .inr (.inr (.inl hc))) (fun ho ↦ ?_)
    · rw [hq] at hm
      rcases List.mem_cons.mp hm with rfl | hrest
      · exact .inr (.inr (.inr ⟨loop, by simpa [State.setLoop] using hgets⟩))
      · exact .inl hrest
    · rw [hidle] at ho
      cases ho
  unfold State.deliver at hs
  split at hs
  · next first rest hq hl =>
    cases hs
    exact hmove hq (by rw [hl]; rfl) (by cases config.broker <;> rfl)
  · next first rest hq hl =>
    cases hs
    exact hmove hq (by rw [hl]; rfl) rfl
  · cases hs

/-- Running a loop to its next await passes its request on. -/
theorem State.Located.resume (h : s.Located request) {loop : Nat}
    (hs : s.resume config loop = some t) : t.Located request := by
  unfold State.resume at hs
  split at hs
  · next popped hl =>
    cases hs
    exact h.restoreRequestSession (by rw [hl]; rfl)
  · next popped hl =>
    cases hs
    exact h.setLoop fun ho ↦ by rw [hl] at ho; exact ho
  · next popped hl =>
    cases hs
    exact h.restoreRequestSession (by rw [hl]; rfl)
  · next popped hl =>
    cases hs
    exact h.leaseRequest (by rw [hl]; rfl)
  · next popped hl =>
    cases hs
    refine h.move (fun other ho ↦ Function.update_of_ne ho _ _)
      (fun hq ↦ .inl (List.mem_cons_of_mem _ hq)) (fun hf ↦ .inr (.inl hf))
      (fun hc ↦ .inr (.inr (.inl hc))) (fun ho ↦ .inl ?_)
    rw [hl] at ho
    obtain rfl : popped = request := Option.some.inj ho
    exact List.mem_cons_self ..
  · cases hs

/-- A cancellation where it settles keeps or rejects the delivery. -/
theorem State.Located.cancel (h : s.Located request) {loop : Nat}
    (hsettles : (s.loops loop).settles = true) : (s.cancel config loop).Located request := by
  unfold State.cancel
  cases hl : s.loops loop with
  | idle => exact h.setLoop fun ho ↦ by rw [hl] at ho; cases ho
  | popping => exact h.setLoop fun ho ↦ by rw [hl] at ho; cases ho
  | message popped => exact h.setLoop fun ho ↦ by rw [hl] at ho; exact ho
  | acking popped => exact h.setLoop fun ho ↦ by rw [hl] at ho; exact ho
  | ended => exact h
  | delivered popped => simp [hl, Getting.settles] at hsettles
  | acked popped => simp [hl, Getting.settles] at hsettles
  | restoring popped => simp [hl, Getting.settles] at hsettles
  | settling => simp [hl, Getting.settles] at hsettles
  | rejecting popped => simp [hl, Getting.settles] at hsettles

/-- Without abandoned gets none of them receives anything. -/
theorem step_deliverAbandoned (hzero : s.abandoned = 0) :
    s.step config .deliverAbandoned = none := by
  cases hq : s.queue <;> simp [State.step, hzero, hq]

/-- Every event but an unsettled cancellation keeps a located request located. -/
theorem State.Located.step (h : s.Located request) (hzero : s.abandoned = 0) {e : Event}
    (hg : SettledCancel s e) (hs : s.step config e = some t) : t.Located request := by
  cases e with
  | push sessionId =>
    cases hs
    exact h.imp_left (List.mem_append_left _)
  | poll loop =>
    simp only [State.step] at hs
    split at hs
    · next hl =>
      cases hs
      exact h.setLoop fun ho ↦ by rw [hl] at ho; cases ho
    · cases hs
  | empty loop =>
    simp only [State.step] at hs
    split at hs
    · next hl =>
      cases hs
      exact h.setLoop fun ho ↦ by rw [hl] at ho; cases ho
    · next hl =>
      cases hs
      exact h.setLoop fun ho ↦ by rw [hl] at ho; cases ho
    · cases hs
  | deliver loop => exact h.deliver hs
  | deliverAbandoned =>
    rw [step_deliverAbandoned hzero] at hs
    cases hs
  | acknowledge loop =>
    simp only [State.step] at hs
    split at hs
    · next popped hl =>
      cases hs
      exact h.setLoop fun ho ↦ by rw [hl] at ho; exact ho
    · cases hs
  | resume loop => exact h.resume hs
  | cancel loop =>
    cases hs
    exact h.cancel hg
  | complete done =>
    simp only [State.step] at hs
    split at hs
    · cases hs
      obtain hq | hf | hc | hl := h
      · exact .inl hq
      · by_cases he : request = done
        · exact .inr (.inr (.inl (by simp [he])))
        · exact .inr (.inl ((List.mem_erase_of_ne he).mpr hf))
      · exact .inr (.inr (.inl (List.mem_cons_of_mem _ hc)))
      · exact .inr (.inr (.inr hl))
    · cases hs
  | requeue pushed =>
    simp only [State.step] at hs
    split at hs
    · cases hs
      obtain hq | hf | hc | hl := h
      · exact .inl (List.mem_append_left _ hq)
      · by_cases he : request = pushed
        · exact .inl (by simp [he])
        · exact .inr (.inl ((List.mem_erase_of_ne he).mpr hf))
      · exact .inr (.inr (.inl hc))
      · exact .inr (.inr (.inr hl))
    · cases hs

/-- What a step never touches: the abandoned gets and, but for a push, the history. -/
def State.Frame (s t : State) : Prop :=
  t.abandoned = s.abandoned ∧ ∀ request ∈ t.pushed, request ∈ s.pushed ∨ request ∈ t.queue

/-- Steps that set neither field are framed. -/
theorem frame_of_eq (ha : t.abandoned = s.abandoned) (hp : t.pushed = s.pushed) : s.Frame t :=
  ⟨ha, fun _ hr ↦ .inl (hp ▸ hr)⟩

/-- Restoring the session is framed. -/
theorem frame_restoreRequestSession (config : Config) (s : State) (loop : Nat) (popped : Queued) :
    s.Frame (s.restoreRequestSession config loop popped) := by
  unfold State.restoreRequestSession
  split <;> exact frame_of_eq rfl rfl

/-- Running a loop is framed. -/
theorem frame_resume {loop : Nat} (hs : s.resume config loop = some t) : s.Frame t := by
  unfold State.resume at hs
  split at hs
  · cases hs
    exact frame_restoreRequestSession ..
  · cases hs
    exact frame_of_eq rfl rfl
  · cases hs
    exact frame_restoreRequestSession ..
  · cases hs
    exact frame_of_eq rfl rfl
  · cases hs
    exact frame_of_eq rfl rfl
  · cases hs

/-- Delivering is framed. -/
theorem frame_deliver {loop : Nat} (hs : s.deliver config loop = some t) : s.Frame t := by
  unfold State.deliver at hs
  split at hs
  · cases hs
    exact frame_of_eq rfl rfl
  · cases hs
    exact frame_of_eq rfl rfl
  · cases hs

/-- A settled cancellation abandons no get. -/
theorem frame_cancel (config : Config) {loop : Nat} (hsettles : (s.loops loop).settles = true) :
    s.Frame (s.cancel config loop) := by
  unfold State.cancel
  cases hl : s.loops loop with
  | settling => simp [hl, Getting.settles] at hsettles
  | idle => exact frame_of_eq rfl rfl
  | popping => exact frame_of_eq rfl rfl
  | message popped => exact frame_of_eq rfl rfl
  | acking popped => exact frame_of_eq rfl rfl
  | ended => exact frame_of_eq rfl rfl
  | delivered popped => exact frame_of_eq rfl rfl
  | acked popped => exact frame_of_eq rfl rfl
  | restoring popped => exact frame_of_eq rfl rfl
  | rejecting popped => exact frame_of_eq rfl rfl

/-- Without abandoned gets every step is framed. -/
theorem frame_step (hzero : s.abandoned = 0) {e : Event} (hg : SettledCancel s e)
    (hs : s.step config e = some t) : s.Frame t := by
  cases e with
  | push sessionId =>
    cases hs
    refine ⟨rfl, fun request hr ↦ ?_⟩
    rcases List.mem_append.mp hr with hold | hnew
    · exact .inl hold
    · exact .inr (List.mem_append_right _ hnew)
  | deliver loop => exact frame_deliver hs
  | deliverAbandoned =>
    rw [step_deliverAbandoned hzero] at hs
    cases hs
  | resume loop => exact frame_resume hs
  | cancel loop =>
    cases hs
    exact frame_cancel config hg
  | poll loop =>
    simp only [State.step] at hs
    split at hs <;> cases hs
    exact frame_of_eq rfl rfl
  | empty loop =>
    simp only [State.step] at hs
    split at hs <;> cases hs <;> exact frame_of_eq rfl rfl
  | acknowledge loop =>
    simp only [State.step] at hs
    split at hs <;> cases hs
    exact frame_of_eq rfl rfl
  | complete done =>
    simp only [State.step] at hs
    split at hs <;> cases hs
    exact frame_of_eq rfl rfl
  | requeue pushed =>
    simp only [State.step] at hs
    split at hs <;> cases hs
    exact frame_of_eq rfl rfl

/-- In every run whose cancellations settle, no state has lost a request. -/
theorem noneLost_of_reach (h : (machine config).Reach SettledCancel s) :
    s.abandoned = 0 ∧ s.NoneLost := by
  refine Machine.Reach.invariant (I := fun s ↦ s.abandoned = 0 ∧ s.NoneLost) ?_ ?_ h
  · rintro s rfl
    exact ⟨rfl, fun request hr ↦ by cases hr⟩
  · rintro s e t - ⟨hzero, hnone⟩ hg hs
    obtain ⟨ha, hp⟩ := frame_step hzero hg hs
    refine ⟨ha.trans hzero, fun request hr ↦ ?_⟩
    obtain hold | hnew := hp request hr
    · exact (hnone request hold).step hzero hg hs
    · exact .inl hnew

/-- In every run of either scheduler whose cancellations settle, every pushed request is
queued, leased, completed or in the hands of a live coroutine; once no coroutine is inside
`get`, it is queued, leased or completed. -/
theorem popped_never_lost (config : Config) {s : State}
    (h : (machine config).Reach SettledCancel s) :
    s.NoneLost ∧ ((∀ loop, s.loops loop = .idle ∨ s.loops loop = .ended) →
      ∀ request ∈ s.pushed, request ∈ s.queue ∨ request ∈ s.inflight ∨ request ∈ s.completed) := by
  have hnone := (noneLost_of_reach h).2
  refine ⟨hnone, fun hquiet request hr ↦ ?_⟩
  obtain hq | hf | hc | ⟨loop, hl⟩ := hnone request hr
  · exact .inl hq
  · exact .inr (.inl hf)
  · exact .inr (.inr hc)
  · rcases hquiet loop with hidle | hended
    · rw [hidle] at hl
      cases hl
    · rw [hended] at hl
      cases hl

/-- A RabbitMQ get that is cancelled with a delivery in `get_task` rejects it. -/
theorem popped_never_lost_rejected :
    let config : Config := ⟨.rabbitMq, true⟩
    ∃ s, (machine config).runIf SettledCancel State.start
        [.push "session", .poll 0, .deliver 0, .cancel 0, .resume 0] = some s ∧ s.NoneLost := by
  intro config
  obtain ⟨s, hs⟩ : ∃ s, (machine config).runIf SettledCancel State.start
      [.push "session", .poll 0, .deliver 0, .cancel 0, .resume 0] = some s := ⟨_, rfl⟩
  exact ⟨s, hs, (popped_never_lost config (Machine.Reach.runIf _ (.init rfl) hs)).1⟩

/-- Elsewhere a cancellation loses the request, unless it is somewhere else too. -/
theorem not_located_cancel (loop : Nat) (hheld : (s.loops loop).held = some request)
    (hsettles : (s.loops loop).settles = false)
    (hqueue : request ∉ s.queue) (hinflight : request ∉ s.inflight)
    (hcompleted : request ∉ s.completed)
    (hothers : ∀ other, other ≠ loop → (s.loops other).held ≠ some request) :
    ¬(s.cancel config loop).Located request := by
  have hended : (s.cancel config loop).loops = Function.update s.loops loop .ended ∧
      (s.cancel config loop).queue = s.queue ∧ (s.cancel config loop).inflight = s.inflight ∧
      (s.cancel config loop).completed = s.completed := by
    unfold State.cancel
    cases hl : s.loops loop with
    | delivered popped => exact ⟨rfl, rfl, rfl, rfl⟩
    | acked popped => exact ⟨rfl, rfl, rfl, rfl⟩
    | restoring popped => exact ⟨rfl, rfl, rfl, rfl⟩
    | rejecting popped => exact ⟨rfl, rfl, rfl, rfl⟩
    | settling => simp [hl, Getting.held] at hheld
    | idle => simp [hl, Getting.settles] at hsettles
    | popping => simp [hl, Getting.settles] at hsettles
    | message popped => simp [hl, Getting.settles] at hsettles
    | acking popped => simp [hl, Getting.settles] at hsettles
    | ended => simp [hl, Getting.settles] at hsettles
  obtain ⟨hl, hq, hf, hc⟩ := hended
  rintro (h | h | h | ⟨other, ho⟩)
  · exact hqueue (hq ▸ h)
  · exact hinflight (hf ▸ h)
  · exact hcompleted (hc ▸ h)
  · rw [hl] at ho
    by_cases he : other = loop
    · subst he
      simp [Getting.held] at ho
    · rw [Function.update_of_ne he] at ho
      exact hothers other he ho

/-- A Redis get that is cancelled with its reply unread loses the popped request. -/
theorem popped_lost_redis :
    ∃ s, (machine ⟨.redis, false⟩).run State.start
        [.push "session", .poll 0, .deliver 0, .cancel 0] = some s ∧ ¬s.NoneLost := by
  refine ⟨_, rfl, fun h ↦ ?_⟩
  have hlocated := h ⟨0, "session"⟩ (by decide)
  revert hlocated
  refine not_located_cancel 0 rfl rfl (by decide) (by decide) (by decide) fun other ho ↦ ?_
  simp [State.setLoop, State.start, ho, Getting.held]

end ScrapyCffi.Scheduler.Get
