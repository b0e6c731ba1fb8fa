import ScrapyCffi.Base.Machine
import ScrapyCffi.Dupefilter.Redis

/-!
# Duplicate filters agree and accept each request once

The Redis sets hold the memory filter's sets, spread over the keys of the router. Concurrent
puts and marks reach a filter one at a time: the local `Scheduler.put`
(`scrapy_cffi/core/scheduler/base.py:119–136`) and `mark_sent` hold `dupefilter.lock`, and
the script and `SADD` run at the Redis server.
-/

namespace ScrapyCffi.Dupefilter

open ScrapyCffi.Base

universe u

variable {β δ : Type u} [DecidableEq δ]

/-! ### Agreement -/

/-- The sets of a fingerprint's keys say of it what the memory filter says. -/
def Refines (getNode : List String → δ → String) (router : DedupKeyRouter)
    (sets : RedisSets δ) (filter : MemoryDupeFilter δ) : Prop :=
  ∀ fingerprint,
    (fingerprint ∈ sets (router.forFingerprint getNode fingerprint).newSeen ↔
      fingerprint ∈ filter.newSeen) ∧
    (fingerprint ∈ sets (router.forFingerprint getNode fingerprint).sentSeen ↔
      fingerprint ∈ filter.sentSeen)

variable {getNode : List String → δ → String} {router : DedupKeyRouter} {digest : β → δ}
  {sets : RedisSets δ} {filter : MemoryDupeFilter δ}

omit [DecidableEq δ] in
/-- Empty sets refine a new filter. -/
theorem refines_empty : Refines getNode router (fun _ ↦ ∅) (.empty : MemoryDupeFilter δ) :=
  fun _ ↦ ⟨Iff.rfl, Iff.rfl⟩

/-- `request_seen` decides alike and keeps the refinement. -/
theorem Refines.requestSeen (h : Refines getNode router sets filter) (fingerprint : δ) :
    (!(doFilter sets fingerprint (router.forFingerprint getNode fingerprint)).1) =
        (filter.requestSeen fingerprint).1 ∧
      Refines getNode router
        (doFilter sets fingerprint (router.forFingerprint getNode fingerprint)).2
        (filter.requestSeen fingerprint).2 := by
  have hkeys := router.newSeen_ne_sentSeen getNode fingerprint fingerprint
  constructor
  · rw [Bool.eq_iff_iff, MemoryDupeFilter.requestSeen_fst, Bool.not_eq_true', ← Bool.not_eq_true,
      doFilter_fst hkeys, (h fingerprint).1, (h fingerprint).2]
    tauto
  · intro other
    rw [mem_doFilter hkeys, mem_doFilter hkeys, MemoryDupeFilter.mem_newSeen_requestSeen,
      MemoryDupeFilter.sentSeen_requestSeen, (h other).1, (h other).2]
    constructor
    · constructor
      · exact Or.imp_left And.right
      · rintro (rfl | hm)
        · exact .inl ⟨rfl, rfl⟩
        · exact .inr hm
    · refine ⟨fun hm ↦ hm.resolve_left fun hc ↦ ?_, .inr⟩
      exact router.newSeen_ne_sentSeen getNode _ _ hc.1.symm

/-- `mark_sent` keeps the refinement. -/
theorem Refines.markSent (h : Refines getNode router sets filter) (request : Request β)
    (hf : request.dontFilter = false) :
    Refines getNode router
      (sadd sets (router.forFingerprint getNode (digest request.bytes)).sentSeen
        (digest request.bytes)).2
      (filter.markSent digest request) := by
  intro other
  rw [mem_sadd, mem_sadd, MemoryDupeFilter.newSeen_markSent,
    MemoryDupeFilter.mem_sentSeen_markSent, (h other).1, (h other).2]
  constructor
  · refine ⟨fun hm ↦ hm.resolve_left fun hc ↦ ?_, .inr⟩
    exact router.newSeen_ne_sentSeen getNode _ _ hc.1
  · constructor
    · exact Or.imp_left fun hc ↦ ⟨hf, hc.2⟩
    · rintro (⟨-, rfl⟩ | hm)
      · exact .inl ⟨rfl, rfl⟩
      · exact .inr hm

/-- Every operation on a filtered request is answered alike and keeps the refinement. -/
theorem Refines.step (h : Refines getNode router sets filter) (op : Operation β)
    (hf : op.request.dontFilter = false) :
    (redis getNode router digest sets op).1 = (memory digest filter op).1 ∧
      Refines getNode router (redis getNode router digest sets op).2
        (memory digest filter op).2 := by
  cases op with
  | requestSeen request =>
    replace hf : request.dontFilter = false := hf
    obtain ⟨hanswer, hnext⟩ := h.requestSeen (digest request.bytes)
    simp only [redis, memory, hf]
    exact ⟨congrArg some hanswer, hnext⟩
  | markSent request =>
    replace hf : request.dontFilter = false := hf
    simp only [redis, memory, hf]
    exact ⟨rfl, h.markSent request hf⟩

/-- The two filters make the same decisions on every sequence of operations. -/
theorem redis_answers_eq (getNode : List String → δ → String) (router : DedupKeyRouter)
    (digest : β → δ) (ops : List (Operation β)) (hops : ∀ op ∈ ops, op.request.dontFilter = false) :
    (redis getNode router digest).answers (fun _ ↦ ∅) ops =
      (memory digest).answers .empty ops :=
  Service.answers_eq (R := Refines getNode router) (fun _ _ op ho h ↦ h.step op (hops op ho))
    refines_empty

/-! ### One acceptance for each fingerprint -/

/-- The request that a decision accepts. -/
def acceptedBy : Operation β → Option Bool → Option (Request β)
  | .requestSeen request, some false => some request
  | _, _ => none

/-- The requests that a filter accepts in a sequence of operations. -/
def accepted {σ : Type u} (service : Service σ (Operation β) (Option Bool)) (s : σ) :
    List (Operation β) → List (Request β)
  | [] => []
  | op :: ops => (acceptedBy op (service s op).1).toList ++ accepted service (service s op).2 ops

/-- The first operation on the fingerprint is a put: it was not marked sent before. -/
def putFirst (digest : β → δ) (fingerprint : δ) (ops : List (Operation β)) : Bool :=
  match ops.find? fun op ↦ digest op.request.bytes = fingerprint with
  | some (.requestSeen _) => true
  | _ => false

/-- One more operation at the end. -/
theorem accepted_concat {σ : Type u} (service : Service σ (Operation β) (Option Bool)) (s : σ)
    (ops : List (Operation β)) (op : Operation β) :
    accepted service s (ops ++ [op]) =
      accepted service s ops ++ (acceptedBy op (service (service.final s ops) op).1).toList := by
  induction ops generalizing s with
  | nil => simp [accepted]
  | cons first ops ih => simp [accepted, ih]

/-- What is accepted depends on the answers only. -/
theorem accepted_congr {σ τ : Type u} {f : Service σ (Operation β) (Option Bool)}
    {g : Service τ (Operation β) (Option Bool)} {ops : List (Operation β)} {s : σ} {t : τ}
    (h : f.answers s ops = g.answers t ops) : accepted f s ops = accepted g t ops := by
  induction ops generalizing s t with
  | nil => rfl
  | cons op ops ih =>
    obtain ⟨hanswer, hrest⟩ := List.cons.inj h
    rw [accepted, accepted, hanswer, ih hrest]

/-- An operation on another fingerprint does not matter. -/
theorem putFirst_cons_of_ne {fingerprint : δ} {op : Operation β} (ops : List (Operation β))
    (h : digest op.request.bytes ≠ fingerprint) :
    putFirst digest fingerprint (op :: ops) = putFirst digest fingerprint ops := by
  rw [putFirst, List.find?_cons_of_neg (by simpa using h), putFirst]

/-- The memory filter accepts a fingerprint once, if it has neither seen nor marked it and its
first operation is a put. -/
theorem count_accepted_memory (fingerprint : δ) (ops : List (Operation β))
    (hops : ∀ op ∈ ops, op.request.dontFilter = false) (filter : MemoryDupeFilter δ) :
    ((accepted (memory digest) filter ops).map fun request ↦ digest request.bytes).count
        fingerprint =
      if fingerprint ∉ filter.newSeen ∧ fingerprint ∉ filter.sentSeen ∧
        putFirst digest fingerprint ops = true then 1 else 0 := by
  induction ops generalizing filter with
  | nil => simp [accepted, putFirst]
  | cons op ops ih =>
    obtain ⟨hop, hrest⟩ := List.forall_mem_cons.mp hops
    rw [accepted, List.map_append, List.count_append, ih hrest]
    by_cases he : digest op.request.bytes = fingerprint
    · subst he
      cases op with
      | requestSeen request =>
        have hput : putFirst digest (digest request.bytes) (.requestSeen request :: ops) = true := by
          simp [putFirst, Operation.request]
        simp only [memory, Operation.request, hput, MemoryDupeFilter.mem_newSeen_requestSeen]
        cases hseen : (filter.requestSeen (digest request.bytes)).1 with
        | true =>
          have := MemoryDupeFilter.requestSeen_fst.mp hseen
          simp [acceptedBy]
          tauto
        | false =>
          have := mt MemoryDupeFilter.requestSeen_fst.mpr (by simpa using hseen)
          simp [acceptedBy]
          tauto
      | markSent request =>
        have hmark : putFirst digest (digest request.bytes) (.markSent request :: ops) = false := by
          simp [putFirst, Operation.request]
        replace hop : request.dontFilter = false := hop
        simp [memory, acceptedBy, Operation.request, hmark, hop]
    · rw [putFirst_cons_of_ne ops he]
      cases op with
      | requestSeen request =>
        have hne : ¬ digest request.bytes = fingerprint := he
        have hcount : (((acceptedBy (.requestSeen request)
            (memory digest filter (.requestSeen request)).1).toList).map
              fun request ↦ digest request.bytes).count fingerprint = 0 := by
          refine List.count_eq_zero.mpr fun hm ↦ ?_
          obtain ⟨found, hf, rfl⟩ := List.mem_map.mp hm
          simp only [acceptedBy] at hf
          split at hf <;> simp_all
        rw [hcount]
        simp [memory, Ne.symm hne]
      | markSent request =>
        have hne : ¬ digest request.bytes = fingerprint := he
        simp [memory, acceptedBy, Ne.symm hne]

/-! ### Concurrent puts -/

/-- A concurrent `put` or `mark_sent` of a filtered request: before its turn at the filter, or
with a duplicate while it waits for `sessions_lock`. -/
inductive Phase (β : Type u)
  | put (request : Request β)
  | mark (request : Request β)
  | rejecting
  | done
  deriving DecidableEq, Repr

/-- The filter, the holder of `dupefilter.lock` and the calls. `accepted` and `log` are
history: the accepted requests, and the operations in the order of their turns. -/
structure Puts (σ β : Type u) where
  filter : σ
  holder : Option Nat
  calls : List (Phase β)
  accepted : List (Request β)
  log : List (Operation β)

/-- A call starts, or goes on to its next suspension. -/
inductive PutEvent (β : Type u)
  | put (request : Request β)
  | mark (request : Request β)
  | run (call : Nat)

variable {σ : Type u}

/-- One turn of a call at the filter. `locked` says that the filter has a lock, which a put
keeps while it releases the session of a duplicate. -/
def Puts.turn (service : Service σ (Operation β) (Option Bool)) (locked : Bool) (s : Puts σ β)
    (call : Nat) (op : Operation β) : Puts σ β :=
  let (answer, filter) := service s.filter op
  let rejects := answer == some true && locked
  { filter
    holder := if rejects then some call else none
    calls := s.calls.set call (if rejects then .rejecting else .done)
    accepted := s.accepted ++ (acceptedBy op answer).toList
    log := s.log ++ [op] }

/-- One event. -/
def Puts.step (service : Service σ (Operation β) (Option Bool)) (locked : Bool) (s : Puts σ β) :
    PutEvent β → Option (Puts σ β)
  | .put request =>
    if request.dontFilter then none else some { s with calls := s.calls ++ [.put request] }
  | .mark request =>
    if request.dontFilter then none else some { s with calls := s.calls ++ [.mark request] }
  | .run call =>
    match s.calls[call]? with
    | some (.put request) =>
      if s.holder.isSome then none else some (s.turn service locked call (.requestSeen request))
    | some (.mark request) =>
      if s.holder.isSome then none else some (s.turn service locked call (.markSent request))
    | some .rejecting => some { s with holder := none, calls := s.calls.set call .done }
    | some .done | none => none

/-- Every interleaving of puts and marks of filtered requests. -/
def puts (service : Service σ (Operation β) (Option Bool)) (locked : Bool) (start : σ) :
    Machine (Puts σ β) (PutEvent β) where
  init s := s = ⟨start, none, [], [], []⟩
  step := Puts.step service locked

/-- The calls left the filter and the accepted requests that their turns one after the other
give. -/
structure Puts.Serial (service : Service σ (Operation β) (Option Bool)) (start : σ)
    (s : Puts σ β) : Prop where
  filter : s.filter = service.final start s.log
  accepted : s.accepted = Dupefilter.accepted service start s.log
  calls : ∀ request, .put request ∈ s.calls ∨ .mark request ∈ s.calls → request.dontFilter = false
  log : ∀ op ∈ s.log, op.request.dontFilter = false

variable {service : Service σ (Operation β) (Option Bool)} {locked : Bool} {start : σ}
  {s t : Puts σ β}

/-- A new call of a filtered request. -/
theorem Puts.Serial.call (h : s.Serial service start) {phase : Phase β}
    (hp : ∀ request, phase = .put request ∨ phase = .mark request → request.dontFilter = false) :
    Puts.Serial service start { s with calls := s.calls ++ [phase] } where
  filter := h.filter
  accepted := h.accepted
  calls request hr := by
    simp only [List.mem_append, List.mem_singleton] at hr
    rcases hr with (hr | hr) | (hr | hr)
    · exact h.calls request (.inl hr)
    · exact hp request (.inl hr.symm)
    · exact h.calls request (.inr hr)
    · exact hp request (.inr hr.symm)
  log := h.log

/-- A call that takes its turn. -/
theorem Puts.Serial.turn (h : s.Serial service start) (locked : Bool) (call : Nat)
    {op : Operation β} (hop : op.request.dontFilter = false) :
    (s.turn service locked call op).Serial service start where
  filter := by rw [Puts.turn, Service.final_concat, ← h.filter]
  accepted := by rw [Puts.turn, accepted_concat, ← h.filter, ← h.accepted]
  calls request hr := by
    refine h.calls request (hr.imp (fun hm ↦ ?_) fun hm ↦ ?_)
    all_goals
      rcases List.mem_or_eq_of_mem_set hm with hm | he
      · exact hm
      · split at he <;> cases he
  log op hm := by
    rcases List.mem_append.mp hm with hm | hm
    · exact h.log op hm
    · rwa [List.mem_singleton.mp hm]

/-- Every step of a call is serial. -/
theorem Puts.Serial.step (h : s.Serial service start) {event : PutEvent β}
    (hs : s.step service locked event = some t) : t.Serial service start := by
  cases event with
  | put request =>
    simp only [Puts.step] at hs
    split at hs
    · cases hs
    · next hf =>
      cases hs
      exact h.call (by simpa using hf)
  | mark request =>
    simp only [Puts.step] at hs
    split at hs
    · cases hs
    · next hf =>
      cases hs
      exact h.call (by simpa using hf)
  | run call =>
    simp only [Puts.step] at hs
    split at hs
    · next request hc =>
      split at hs
      · cases hs
      · cases hs
        exact h.turn locked call (h.calls request (.inl (List.mem_of_getElem? hc)))
    · next request hc =>
      split at hs
      · cases hs
      · cases hs
        exact h.turn locked call (h.calls request (.inr (List.mem_of_getElem? hc)))
    · cases hs
      refine { h with calls := fun request hr ↦ h.calls request ?_ }
      refine hr.imp (fun hm ↦ ?_) fun hm ↦ ?_
      all_goals
        rcases List.mem_or_eq_of_mem_set hm with hm | he
        · exact hm
        · cases he
    · cases hs
    · cases hs

/-- Every interleaving is serial. -/
theorem serial (h : (puts service locked start).Reachable s) : s.Serial service start := by
  refine Machine.Reach.invariant (fun s hs ↦ ?_) (fun _ _ _ _ ih _ hs ↦ ih.step hs) h
  subst hs
  exact ⟨rfl, rfl, by simp, by simp⟩

/-- The Redis filter decides like the memory filter on every sequence of operations, and in
every interleaving of concurrent puts and marks both of them have accepted a fingerprint once
if its first turn was a put, and never otherwise. -/
theorem filters_agree_and_accept_once (getNode : List String → δ → String)
    (router : DedupKeyRouter) (digest : β → δ) :
    (∀ ops : List (Operation β), (∀ op ∈ ops, op.request.dontFilter = false) →
      (redis getNode router digest).answers (fun _ ↦ ∅) ops =
        (memory digest).answers .empty ops) ∧
    (∀ s, (puts (memory digest) true .empty).Reachable s → ∀ fingerprint,
      (s.accepted.map fun request ↦ digest request.bytes).count fingerprint =
        if putFirst digest fingerprint s.log then 1 else 0) ∧
    (∀ s, (puts (redis getNode router digest) false fun _ ↦ ∅).Reachable s → ∀ fingerprint,
      (s.accepted.map fun request ↦ digest request.bytes).count fingerprint =
        if putFirst digest fingerprint s.log then 1 else 0) := by
  have hmemory : ∀ ops : List (Operation β), (∀ op ∈ ops, op.request.dontFilter = false) →
      ∀ fingerprint, ((accepted (memory digest) .empty ops).map
        fun request ↦ digest request.bytes).count fingerprint =
          if putFirst digest fingerprint ops then 1 else 0 := by
    intro ops hops fingerprint
    rw [count_accepted_memory fingerprint ops hops]
    simp [MemoryDupeFilter.empty]
  refine ⟨redis_answers_eq getNode router digest, fun s hs ↦ ?_, fun s hs ↦ ?_⟩
  · have h := serial hs
    rw [h.accepted]
    exact hmemory s.log h.log
  · have h := serial hs
    rw [h.accepted, accepted_congr (redis_answers_eq getNode router digest s.log h.log)]
    exact hmemory s.log h.log

end ScrapyCffi.Dupefilter
