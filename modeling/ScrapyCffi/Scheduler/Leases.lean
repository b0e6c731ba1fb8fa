import Mathlib.Data.List.Perm.Basic
import ScrapyCffi.Base.Machine
import ScrapyCffi.Scheduler.Put

/-!
# The queue and the leases of unfinished requests

`put`, `get`, `complete_request` and `requeue_inflight` of `RedisScheduler`
(`scrapy_cffi/core/scheduler/redis.py:87–121,173–217`), and the engine that puts a leased
request back when an interceptor returns it (`scrapy_cffi/core/engine.py:322–349`). A logical
request is the number of its first put. `put` pushes a copy of a request that is put back while
`_inflight_requests` keeps its lease, and `requeue_inflight` later pushes it once more.
-/

namespace ScrapyCffi.Scheduler.Leases

open ScrapyCffi.Base

/-- A request object that `get` returned: its `id` and the logical request. -/
structure Leased where
  address : Nat
  request : Nat
  deriving DecidableEq, Repr

/-- An `rpush` under the retry policy: how often Redis executed it, and what it reports. A
reply that is lost repeats or fails a push that was executed. -/
structure Push where
  executed : Nat
  reported : Put.Push
  deriving DecidableEq, Repr

/-- The broker's queue, `_inflight_requests`, the objects that the engine works with and what a
running `requeue_inflight` has still to push. The last three fields are history: the number of
requests created, the accepted ones and those given to `complete_request`. -/
structure State where
  queue : List Nat
  inflightRequests : List Leased
  working : List Leased
  requeueing : List Leased
  created : Nat
  accepted : List Nat
  finished : List Nat
  deriving DecidableEq, Repr

/-- A new scheduler. -/
def State.start : State := ⟨[], [], [], [], 0, [], []⟩

/-- What happens at the scheduler. `isSeen` is the answer of the duplicate filter, `false` when
the request skips it; `snapshot` says that `_request_to_bytes` returns. -/
inductive Event
  | put (isSeen snapshot : Bool) (push : Push)
  | get (address : Nat) (restored : Bool)
  | complete (address : Nat)
  | reschedule (address : Nat) (isSeen snapshot : Bool) (push : Push)
  | requeueInflight
  | requeueNext (snapshot : Bool) (push : Push)
  deriving DecidableEq, Repr

/-- Append what the push of `put` executed. -/
def State.push (s : State) (request : Nat) (isSeen snapshot : Bool) (push : Push) : State :=
  if isSeen || !snapshot then s
  else { s with queue := s.queue ++ List.replicate push.executed request }

/-- `put` of a new request. -/
def State.put (s : State) (isSeen snapshot : Bool) (push : Push) : State :=
  { s.push s.created isSeen snapshot push with
    created := s.created + 1
    accepted := if !isSeen && snapshot && push.reported = .accepted then s.created :: s.accepted
      else s.accepted }

/-- `get`: the new object has an address of its own, and is not leased when the restore of its
session raises. -/
def State.get (s : State) (address : Nat) (restored : Bool) : Option State :=
  match s.queue with
  | [] => none
  | request :: queue =>
    if ∀ leased ∈ s.working ++ s.inflightRequests ++ s.requeueing, leased.address ≠ address then
      if restored then some { s with
        queue
        inflightRequests := s.inflightRequests ++ [⟨address, request⟩]
        working := ⟨address, request⟩ :: s.working }
      else some { s with queue }
    else none

/-- `_inflight_requests.pop(id(request), None)`. -/
def State.pop (s : State) (address : Nat) : State :=
  { s with inflightRequests := s.inflightRequests.filter (·.address ≠ address) }

/-- The object at an address that the engine works with. -/
def State.object (s : State) (address : Nat) : Option Leased :=
  s.working.find? (·.address = address)

/-- `complete_request`. -/
def State.complete (s : State) (address : Nat) : Option State :=
  (s.object address).map fun leased ↦
    { s.pop address with
      working := s.working.erase leased
      finished := leased.request :: s.finished }

/-- `put` of an object that the engine puts back and then leaves. -/
def State.reschedule (s : State) (address : Nat) (isSeen snapshot : Bool) (push : Push) :
    Option State :=
  (s.object address).map fun leased ↦
    { s.push leased.request isSeen snapshot push with working := s.working.erase leased }

/-- One round of `requeue_inflight`, which ends when a call of it raises. -/
def State.requeueNext (s : State) (snapshot : Bool) (push : Push) : Option State :=
  match s.requeueing with
  | [] => none
  | leased :: requeueing =>
    let t := s.push leased.request false snapshot push
    if snapshot then
      match push.reported with
      | .accepted => some { t.pop leased.address with requeueing }
      | .refused => some { t with requeueing }
      | .raises => some { t with requeueing := [] }
    else some { s with requeueing := [] }

/-- One event. -/
def State.step (s : State) : Event → Option State
  | .put isSeen snapshot push => some (s.put isSeen snapshot push)
  | .get address restored => s.get address restored
  | .complete address => s.complete address
  | .reschedule address isSeen snapshot push => s.reschedule address isSeen snapshot push
  | .requeueInflight => some { s with requeueing := s.inflightRequests }
  | .requeueNext snapshot push => s.requeueNext snapshot push

/-- Every sequence of calls. -/
def machine : Machine State Event where
  init s := s = State.start
  step := State.step

/-- The queue together with the leases. -/
def State.held (s : State) : List Nat := s.queue ++ s.inflightRequests.map Leased.request

/-- Every accepted and unfinished request is held once, and nothing else is. -/
def State.HeldOnce (s : State) : Prop :=
  ∀ request, s.held.count request = if request ∈ s.accepted ∧ request ∉ s.finished then 1 else 0

/-- A push that is executed once when it reports success and not at all otherwise. -/
def Push.Exact (push : Push) : Prop :=
  push.executed = if push.reported = .accepted then 1 else 0

/-- No put back is pushed, no pushed-back request is completed or pushed again, no popped one
loses its lease to an exception and no reply of a push is lost. -/
def Settled (s : State) : Event → Prop
  | .put _ _ push => push.Exact
  | .get _ restored => restored = true
  | .complete address => ∃ leased ∈ s.inflightRequests, leased.address = address
  | .reschedule _ isSeen snapshot push => isSeen = true ∨ snapshot = false ∨ push.executed = 0
  | .requeueInflight => True
  | .requeueNext _ push => push.Exact ∧ ∀ leased ∈ s.requeueing.head?, leased ∈ s.inflightRequests

instance (s : State) : ∀ event, Decidable (Settled s event)
  | .put .. => inferInstanceAs (Decidable (_ = _))
  | .get .. => inferInstanceAs (Decidable (_ = _))
  | .complete _ => inferInstanceAs (Decidable (∃ leased ∈ s.inflightRequests, _))
  | .reschedule .. => inferInstanceAs (Decidable (_ ∨ _))
  | .requeueInflight => .isTrue trivial
  | .requeueNext .. => inferInstanceAs (Decidable (_ = _ ∧ _))

variable {s t : State} {event : Event}

/-- A table without its entry of one key. -/
theorem perm_cons_filter {α κ : Type} [DecidableEq κ] {key : α → κ} {l : List α} {a : α}
    (hnodup : (l.map key).Nodup) (ha : a ∈ l) : l.Perm (a :: l.filter (key · ≠ key a)) := by
  induction l with
  | nil => cases ha
  | cons b l ih =>
    obtain ⟨hb, hl⟩ := List.nodup_cons.mp hnodup
    rcases List.mem_cons.mp ha with rfl | ha
    · have hall : l.filter (key · ≠ key a) = l := by
        refine List.filter_eq_self.mpr fun c hc ↦ decide_eq_true fun he ↦ hb ?_
        exact he ▸ List.mem_map_of_mem hc
      rw [List.filter_cons_of_neg (by simp), hall]
    · have hne : key b ≠ key a := fun he ↦ hb (he ▸ List.mem_map_of_mem ha)
      rw [List.filter_cons_of_pos (by simpa using hne)]
      exact ((ih hl ha).cons b).trans (.swap ..)

/-- What the calls keep: everything held is accepted, addresses name one object, and an object
that the engine works with is the one in the table. -/
structure Once (s : State) : Prop where
  held : s.HeldOnce
  accepted_lt : ∀ request ∈ s.accepted, request < s.created
  finished_lt : ∀ request ∈ s.finished, request < s.created
  working_lt : ∀ leased ∈ s.working, leased.request < s.created
  addresses : (s.inflightRequests.map Leased.address).Nodup
  same : ∀ leased ∈ s.inflightRequests, ∀ other ∈ s.working,
    leased.address = other.address → leased = other

/-- What is held is accepted and unfinished. -/
theorem Once.accepted (h : Once s) {request : Nat} (hm : request ∈ s.held) :
    request ∈ s.accepted ∧ request ∉ s.finished := by
  by_contra hn
  have := h.held request
  rw [if_neg hn] at this
  exact absurd hm (List.count_eq_zero.mp this)

/-- A request of the table leaves it. -/
theorem Once.pop_perm (h : Once s) {leased : Leased} (hl : leased ∈ s.inflightRequests) :
    s.held.Perm (leased.request :: (s.pop leased.address).held) := by
  have hperm := (perm_cons_filter h.addresses hl).map Leased.request
  exact (hperm.append_left s.queue).trans List.perm_middle

/-- Steps that only move requests between the queue and the table. -/
theorem State.HeldOnce.of_perm (h : s.HeldOnce) (hp : t.held.Perm s.held)
    (ha : t.accepted = s.accepted) (hf : t.finished = s.finished) : t.HeldOnce := by
  intro request
  rw [hp.count_eq, ha, hf]
  exact h request

/-- A step that adds a new request. -/
theorem State.HeldOnce.accept (h : s.HeldOnce) {request : Nat} (hnew : request ∉ s.accepted)
    (hunfinished : request ∉ s.finished) (hp : t.held.Perm (request :: s.held))
    (ha : t.accepted = request :: s.accepted) (hf : t.finished = s.finished) : t.HeldOnce := by
  intro other
  rw [hp.count_eq, ha, hf, List.count_cons, h other]
  by_cases he : other = request
  · subst he
    simp [hnew, hunfinished]
  · simp [he, Ne.symm he]

/-- A step that removes a request and finishes it. -/
theorem State.HeldOnce.finish (h : s.HeldOnce) {request : Nat} (hp : s.held.Perm (request :: t.held))
    (ha : t.accepted = s.accepted) (hf : t.finished = request :: s.finished) : t.HeldOnce := by
  intro other
  have hcount := h other
  rw [hp.count_eq, List.count_cons] at hcount
  rw [ha, hf]
  by_cases he : other = request
  · subst he
    have hzero : t.held.count other = 0 := by
      by_cases hm : other ∈ s.accepted ∧ other ∉ s.finished
      · simpa [hm] using hcount
      · simp [hm] at hcount
    simp [hzero]
  · simpa [he, Ne.symm he] using hcount

/-- What an exact push of the scheduler does. -/
theorem push_of_exact {push : Push} (h : push.Exact) (request : Nat) (isSeen snapshot : Bool) :
    s.push request isSeen snapshot push =
      if !isSeen && snapshot && push.reported = .accepted then
        { s with queue := s.queue ++ [request] }
      else s := by
  rw [Push.Exact] at h
  unfold State.push
  by_cases hskip : (isSeen || !snapshot) = true
  · have : (!isSeen && snapshot) = false := by cases isSeen <;> simp_all
    simp [hskip, this]
  · have : (!isSeen && snapshot) = true := by cases isSeen <;> simp_all
    by_cases ha : push.reported = .accepted <;> simp [hskip, this, h, ha]

/-- A `put` of a new request. -/
theorem Once.put (h : Once s) {push : Push} (hpush : push.Exact) (isSeen snapshot : Bool) :
    Once (s.put isSeen snapshot push) := by
  have hlt {requests : List Nat} (hr : ∀ request ∈ requests, request < s.created) :
      ∀ request ∈ requests, request < s.created + 1 :=
    fun request hm ↦ Nat.lt_succ_of_lt (hr request hm)
  rw [State.put, push_of_exact hpush]
  split
  · have hnew : s.created ∉ s.accepted := fun hm ↦ Nat.lt_irrefl _ (h.accepted_lt _ hm)
    have hunfinished : s.created ∉ s.finished := fun hm ↦ Nat.lt_irrefl _ (h.finished_lt _ hm)
    refine ⟨h.held.accept hnew hunfinished ?_ rfl rfl, ?_, hlt h.finished_lt,
      fun leased hm ↦ Nat.lt_succ_of_lt (h.working_lt leased hm), h.addresses, h.same⟩
    · show (s.queue ++ [s.created] ++ _).Perm _
      rw [List.append_assoc]
      exact List.perm_middle
    · exact List.forall_mem_cons.mpr ⟨Nat.lt_succ_self _, hlt h.accepted_lt⟩
  · exact ⟨h.held.of_perm .rfl rfl rfl, hlt h.accepted_lt, hlt h.finished_lt,
      fun leased hm ↦ Nat.lt_succ_of_lt (h.working_lt leased hm), h.addresses, h.same⟩

/-- A `get` whose session is restored. -/
theorem Once.get (h : Once s) {address : Nat} (hg : s.get address true = some t) : Once t := by
  rw [State.get] at hg
  split at hg
  · cases hg
  · next request queue hq =>
    split at hg
    · next hfresh =>
      cases hg
      have hlt : request < s.created := by
        refine h.accepted_lt _ (h.accepted ?_).1
        simp [State.held, hq]
      have htable : ∀ leased ∈ s.inflightRequests, leased.address ≠ address :=
        fun leased hm ↦ hfresh leased (by simp [hm])
      refine ⟨h.held.of_perm ?_ rfl rfl, h.accepted_lt, h.finished_lt,
        List.forall_mem_cons.mpr ⟨hlt, h.working_lt⟩, ?_, ?_⟩
      · simp only [State.held, hq, List.map_append, List.map_cons, List.map_nil, List.cons_append,
          ← List.append_assoc]
        exact List.perm_append_singleton ..
      · rw [List.map_append, List.nodup_append]
        refine ⟨h.addresses, List.nodup_singleton _, ?_⟩
        simpa using htable
      · intro leased hl other ho he
        rcases List.mem_append.mp hl with hl | hl
        · rcases List.mem_cons.mp ho with rfl | ho
          · exact absurd he (htable leased hl)
          · exact h.same leased hl other ho he
        · rw [List.mem_singleton.mp hl] at he ⊢
          rcases List.mem_cons.mp ho with rfl | ho
          · rfl
          · exact absurd he.symm (hfresh other (by simp [ho]))
    · cases hg

/-- `complete_request` of a leased request. -/
theorem Once.complete (h : Once s) {address : Nat}
    (hleased : ∃ leased ∈ s.inflightRequests, leased.address = address)
    (hc : s.complete address = some t) : Once t := by
  obtain ⟨object, hobject, rfl⟩ := Option.map_eq_some_iff.mp hc
  obtain ⟨leased, hl, rfl⟩ := hleased
  have hworking := List.mem_of_find?_eq_some hobject
  have haddress : object.address = leased.address := by
    simpa using List.find?_some hobject
  obtain rfl := h.same leased hl object hworking haddress.symm
  refine ⟨h.held.finish (h.pop_perm hl) rfl rfl, h.accepted_lt,
    List.forall_mem_cons.mpr ⟨h.working_lt _ hworking, h.finished_lt⟩,
    fun other hm ↦ h.working_lt other (List.mem_of_mem_erase hm), ?_,
    fun other ho working hw ↦ h.same other (List.mem_of_mem_filter ho) working
      (List.mem_of_mem_erase hw)⟩
  exact h.addresses.sublist (List.filter_sublist.map _)

/-- A put back that is not pushed. -/
theorem Once.reschedule (h : Once s) {address : Nat} {isSeen snapshot : Bool} {push : Push}
    (hg : isSeen = true ∨ snapshot = false ∨ push.executed = 0)
    (hr : s.reschedule address isSeen snapshot push = some t) : Once t := by
  obtain ⟨object, _, rfl⟩ := Option.map_eq_some_iff.mp hr
  have hpush : s.push object.request isSeen snapshot push = s := by
    unfold State.push
    rcases hg with rfl | rfl | hg
    · rfl
    · simp
    · simp [hg]
  rw [hpush]
  exact ⟨h.held.of_perm .rfl rfl rfl, h.accepted_lt, h.finished_lt,
    fun other hm ↦ h.working_lt other (List.mem_of_mem_erase hm), h.addresses,
    fun other ho working hw ↦ h.same other ho working (List.mem_of_mem_erase hw)⟩

/-- The requests that `requeue_inflight` has still to push. -/
theorem Once.requeue (h : Once s) (requeueing : List Leased) : Once { s with requeueing } :=
  ⟨h.held, h.accepted_lt, h.finished_lt, h.working_lt, h.addresses, h.same⟩

/-- A round of `requeue_inflight` for a request that is still leased. -/
theorem Once.requeueNext (h : Once s) {snapshot : Bool} {push : Push} (hpush : push.Exact)
    (hg : ∀ leased ∈ s.requeueing.head?, leased ∈ s.inflightRequests)
    (hr : s.requeueNext snapshot push = some t) : Once t := by
  rw [State.requeueNext] at hr
  split at hr
  · cases hr
  · next leased requeueing hq =>
    have hl : leased ∈ s.inflightRequests := hg leased (by simp [hq])
    cases snapshot with
    | false =>
      cases hr
      exact h.requeue []
    | true =>
      rw [push_of_exact hpush] at hr
      cases hreported : push.reported with
      | accepted =>
        simp only [hreported] at hr
        cases hr
        refine ⟨h.held.of_perm ?_ rfl rfl, h.accepted_lt, h.finished_lt, h.working_lt,
          h.addresses.sublist (List.filter_sublist.map _),
          fun other ho ↦ h.same other (List.mem_of_mem_filter ho)⟩
        refine .trans ?_ (h.pop_perm hl).symm
        show (s.queue ++ [leased.request] ++ _).Perm _
        rw [List.append_assoc]
        exact List.perm_middle
      | refused =>
        simp only [hreported] at hr
        cases hr
        exact h.requeue requeueing
      | raises =>
        simp only [hreported] at hr
        cases hr
        exact h.requeue []

/-- One call. -/
theorem Once.step (h : Once s) (hg : Settled s event) (hs : s.step event = some t) : Once t := by
  cases event with
  | put isSeen snapshot push =>
    cases hs
    exact h.put hg isSeen snapshot
  | get address restored =>
    cases (hg : restored = true)
    exact h.get hs
  | complete address => exact h.complete hg hs
  | reschedule address isSeen snapshot push => exact h.reschedule hg hs
  | requeueInflight =>
    cases hs
    exact h.requeue s.inflightRequests
  | requeueNext snapshot push => exact h.requeueNext hg.1 hg.2 hs

end ScrapyCffi.Scheduler.Leases
