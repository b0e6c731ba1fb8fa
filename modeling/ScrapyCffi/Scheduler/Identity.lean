import ScrapyCffi.Base.Table
import ScrapyCffi.Scheduler.Tables

/-!
# Acknowledgements and reused identities

As long as no object is created at an address that still keys a message table, the entry an
object finds under its `id` is its own, so every acknowledgement is caused by the request
built from the message. The lease table of Redis needs no such condition: it keeps its
objects alive.
-/

namespace ScrapyCffi.Scheduler.Tables

open ScrapyCffi.Base

/-- Neither message table has an entry under the address. -/
def State.Unkeyed (s : State) (address : Nat) : Prop :=
  s.startTable address = none ∧ s.inflightMessages address = none

/-- Objects are created at unkeyed addresses. -/
def FreshAddress (s : State) : Event → Prop
  | .create address _ _ => s.Unkeyed address
  | .attachStartReq address _ _ _ => s.Unkeyed address
  | .get address _ _ => s.Unkeyed address
  | _ => True

instance (s : State) (address : Nat) : Decidable (s.Unkeyed address) :=
  inferInstanceAs (Decidable (_ ∧ _))

instance (s : State) : ∀ e, Decidable (FreshAddress s e)
  | .create address _ _ => inferInstanceAs (Decidable (s.Unkeyed address))
  | .attachStartReq address _ _ _ => inferInstanceAs (Decidable (s.Unkeyed address))
  | .get address _ _ => inferInstanceAs (Decidable (s.Unkeyed address))
  | .markAsStart _ => isTrue trivial
  | .popStartUrl _ => isTrue trivial
  | .putCheck _ => isTrue trivial
  | .putPushed _ _ => isTrue trivial
  | .completeRequest _ => isTrue trivial
  | .discard _ => isTrue trivial

/-- What the tables hold under the address of a live object belongs to that object. -/
structure Owned (s : State) : Prop where
  created : ∀ request ∈ s.live, request.object < s.created
  start : ∀ request ∈ s.live, ∀ message, s.startTable request.address = some message →
    s.origin request.object = some message
  inflight : ∀ request ∈ s.live, ∀ message, s.inflightMessages request.address = some message →
    s.origin request.object = some message
  starts : ∀ address message, s.startTable address = some message → message.start = true
  works : ∀ address message, s.inflightMessages address = some message → message.start = false
  acks : ∀ ack ∈ s.acks, ack.2 < s.created ∧ s.origin ack.2 = some ack.1 ∧
    (ack.1.start = true → ack.2 ∈ s.accepted)
  overwritten : s.overwritten = []
  leases : ∀ address object, s.inflightRequests address = some object →
    ∃ request ∈ s.live, request.address = address ∧ request.object = object

variable {transport : Transport} {s t : State}

/-- An object created at an unkeyed address owns nothing yet. -/
theorem Owned.create (h : Owned s) {address : Nat} {fingerprint : String} {dontFilter : Bool}
    {origin : Option Message} (hfree : s.Unkeyed address)
    (hs : s.create address fingerprint dontFilter origin = some t) : Owned t := by
  obtain ⟨-, rfl⟩ := create_spec hs
  have horigin : ∀ object, object < s.created →
      Function.update s.origin s.created origin object = s.origin object :=
    fun object ho ↦ Function.update_of_ne (Nat.ne_of_lt ho) _ _
  constructor
  case created =>
    intro request hr
    rcases List.mem_cons.mp hr with rfl | hold
    · exact Nat.lt_succ_self _
    · exact Nat.lt_succ_of_lt (h.created request hold)
  case start =>
    intro request hr message hm
    rcases List.mem_cons.mp hr with rfl | hold
    · rw [hfree.1] at hm
      cases hm
    · exact (horigin _ (h.created request hold)).trans (h.start request hold message hm)
  case inflight =>
    intro request hr message hm
    rcases List.mem_cons.mp hr with rfl | hold
    · rw [hfree.2] at hm
      cases hm
    · exact (horigin _ (h.created request hold)).trans (h.inflight request hold message hm)
  case starts => exact h.starts
  case works => exact h.works
  case acks =>
    intro ack ha
    obtain ⟨hlt, ho, hstart⟩ := h.acks ack ha
    exact ⟨Nat.lt_succ_of_lt hlt, (horigin _ hlt).trans ho, hstart⟩
  case overwritten => exact h.overwritten
  case leases =>
    intro lease object hl
    obtain ⟨request, hr, hrest⟩ := h.leases lease object hl
    exact ⟨request, List.mem_cons_of_mem _ hr, hrest⟩

/-- The attached message is the new object's own. -/
theorem Owned.attachStartReq (h : Owned s) {address : Nat} {fingerprint : String}
    {dontFilter identified : Bool} (hfree : s.Unkeyed address)
    (hs : s.attachStartReq address fingerprint dontFilter identified = some t) : Owned t := by
  obtain ⟨u, hu, rfl⟩ := Option.map_eq_some_iff.mp hs
  have howned := h.create hfree hu
  obtain ⟨haddress, rfl⟩ := create_spec hu
  refine { howned with start := ?_, starts := ?_ }
  · intro request hr message hm
    obtain ⟨hk, rfl⟩ | ⟨-, hold⟩ := entry_of_insert hm
    · rcases List.mem_cons.mp hr with rfl | hr
      · exact Function.update_self ..
      · exact absurd hk (haddress request hr)
    · exact howned.start request hr message hold
  · intro key message hm
    obtain ⟨-, rfl⟩ | ⟨-, hold⟩ := entry_of_insert hm
    · rfl
    · exact h.starts key message hold

/-- The leased message is the new object's own, and a Redis lease keeps its object. -/
theorem Owned.get (h : Owned s) {address : Nat} {fingerprint : String} {dontFilter : Bool}
    (hfree : s.Unkeyed address)
    (hs : s.get transport address fingerprint dontFilter = some t) : Owned t := by
  unfold State.get at hs
  cases transport with
  | kafka =>
    obtain ⟨u, hu, rfl⟩ := Option.map_eq_some_iff.mp hs
    have howned := h.create hfree hu
    obtain ⟨haddress, rfl⟩ := create_spec hu
    refine { howned with inflight := ?_, works := ?_, overwritten := ?_ }
    · intro request hr message hm
      obtain ⟨hk, rfl⟩ | ⟨-, hold⟩ := entry_of_insert hm
      · rcases List.mem_cons.mp hr with rfl | hr
        · exact Function.update_self ..
        · exact absurd hk (haddress request hr)
      · exact howned.inflight request hr message hold
    · intro key message hm
      obtain ⟨-, rfl⟩ | ⟨-, hold⟩ := entry_of_insert hm
      · rfl
      · exact h.works key message hold
    · simp [h.overwritten, hfree.2]
  | redis =>
    obtain ⟨u, hu, rfl⟩ := Option.map_eq_some_iff.mp hs
    have howned := h.create hfree hu
    obtain ⟨-, rfl⟩ := create_spec hu
    refine { howned with leases := ?_ }
    intro key object hl
    obtain ⟨rfl, rfl⟩ | ⟨-, hold⟩ := entry_of_insert hl
    · exact ⟨_, List.mem_cons_self .., rfl, rfl⟩
    · exact howned.leases key object hold

/-- Popping an entry keeps every other one, and acknowledges for the object's own message. -/
theorem Owned.completeStartRequest (h : Owned s) {request : Request} (hr : request ∈ s.live) :
    Owned { s.completeStartRequest transport request with
      accepted := request.object :: (s.completeStartRequest transport request).accepted } := by
  unfold State.completeStartRequest
  split
  · exact { h with acks := fun ack ha ↦
      ⟨(h.acks ack ha).1, (h.acks ack ha).2.1, fun hs ↦
        List.mem_cons_of_mem _ ((h.acks ack ha).2.2 hs)⟩ }
  · next message hm =>
    refine { h with start := ?_, starts := ?_, acks := ?_ }
    · intro other ho found hf
      exact h.start other ho found (entry_of_remove hf).2
    · intro key found hf
      exact h.starts key found (entry_of_remove hf).2
    · have hown : ∀ ack ∈ s.acks ++ [(message, request.object)], ack.2 < s.created ∧
          s.origin ack.2 = some ack.1 ∧
            (ack.1.start = true → ack.2 ∈ request.object :: s.accepted) := by
        intro ack ha
        rcases List.mem_append.mp ha with hold | hnew
        · obtain ⟨hlt, ho, hs⟩ := h.acks ack hold
          exact ⟨hlt, ho, fun hstart ↦ List.mem_cons_of_mem _ (hs hstart)⟩
        · obtain rfl := List.mem_singleton.mp hnew
          exact ⟨h.created request hr, h.start request hr message hm, fun _ ↦
            List.mem_cons_self ..⟩
      intro ack ha
      dsimp only at ha
      split at ha
      · exact hown ack ha
      · exact hown ack (List.mem_append_left _ ha)

/-- Completing a request acknowledges its own work message. -/
theorem Owned.completeRequest (h : Owned s) {request : Request}
    (hs : s.completeRequest transport request = some t) : Owned t := by
  unfold State.completeRequest at hs
  split at hs
  · cases hs
  · next hlive =>
    have hr : request ∈ s.live := not_not.mp hlive
    cases transport with
    | kafka =>
      dsimp only at hs
      split at hs
      · cases hs
        exact h
      · next message hm =>
        cases hs
        refine { h with inflight := ?_, works := ?_, acks := ?_ }
        · intro other ho found hf
          exact h.inflight other ho found (entry_of_remove hf).2
        · intro key found hf
          exact h.works key found (entry_of_remove hf).2
        · intro ack ha
          rcases List.mem_append.mp ha with hold | hnew
          · exact h.acks ack hold
          · obtain rfl := List.mem_singleton.mp hnew
            refine ⟨h.created request hr, h.inflight request hr message hm, fun hstart ↦ ?_⟩
            rw [h.works _ message hm] at hstart
            cases hstart
    | redis =>
      cases hs
      refine { h with leases := ?_ }
      intro key object hl
      exact h.leases key object (entry_of_remove hl).2

/-- Discarding an object leaves the others theirs. -/
theorem Owned.discard (h : Owned s) {request : Request} (hs : s.discard request = some t) :
    Owned t := by
  unfold State.discard at hs
  split at hs
  · next hunused =>
    cases hs
    have hlive : ∀ other, other ∈ s.live.filter (· ≠ request) → other ∈ s.live :=
      fun other ho ↦ (List.mem_filter.mp ho).1
    refine { h with created := fun other ho ↦ h.created other (hlive other ho),
                    start := fun other ho ↦ h.start other (hlive other ho),
                    inflight := fun other ho ↦ h.inflight other (hlive other ho), leases := ?_ }
    intro address object hl
    obtain ⟨kept, hk, rfl, rfl⟩ := h.leases address object hl
    refine ⟨kept, List.mem_filter.mpr ⟨hk, ?_⟩, rfl, rfl⟩
    have hne : kept ≠ request := fun he ↦ hunused.2 (he ▸ hl)
    simpa using hne
  · cases hs

/-- Every step at fresh addresses keeps the tables owned. -/
theorem Owned.step (h : Owned s) {e : Event} (hg : FreshAddress s e)
    (hs : s.step transport e = some t) : Owned t := by
  cases e with
  | create address fingerprint dontFilter => exact h.create hg hs
  | attachStartReq address fingerprint dontFilter identified => exact h.attachStartReq hg hs
  | get address fingerprint dontFilter => exact h.get hg hs
  | markAsStart request =>
    simp only [State.step] at hs
    split at hs <;> cases hs
    exact { h with }
  | popStartUrl request =>
    simp only [State.step] at hs
    split at hs <;> cases hs
    exact { h with }
  | putCheck request =>
    simp only [State.step, State.putCheck] at hs
    repeat' split at hs
    all_goals cases hs
    all_goals exact { h with }
  | putPushed request pushed =>
    simp only [State.step, State.putPushed] at hs
    split at hs
    · next hlive =>
      split at hs
      · cases hs
        have hput : Owned { s with putting := s.putting.erase request.object } := { h with }
        exact hput.completeStartRequest hlive.1
      · cases hs
        exact { h with }
    · cases hs
  | completeRequest request => exact h.completeRequest hs
  | discard request => exact h.discard hs

/-- In every run whose objects are created at unkeyed addresses, each acknowledgement of a
message was caused by the request built from it, that of a start message by an accepted one;
no leased message's entry was overwritten, and Redis leases keep their requests. -/
theorem acknowledged_by_own_request {s : State}
    (h : (machine transport).Reach FreshAddress s) :
    (∀ ack ∈ s.acks, s.origin ack.2 = some ack.1 ∧ (ack.1.start = true → ack.2 ∈ s.accepted)) ∧
      s.overwritten = [] ∧
      ∀ address object, s.inflightRequests address = some object →
        ∃ request ∈ s.live, request.address = address ∧ request.object = object := by
  have howned : Owned s := by
    refine Machine.Reach.invariant (I := Owned) ?_ (fun s e t _ hs hg ht ↦ hs.step hg ht) h
    rintro s rfl
    constructor <;> simp [State.start]
  exact ⟨fun ack ha ↦ (howned.acks ack ha).2, howned.overwritten, howned.leases⟩

/-- A start request is put and a work request completed; both messages are acknowledged. -/
theorem acknowledged_by_own_request_two :
    ∃ s, (machine .kafka).runIf FreshAddress State.start
        [.attachStartReq 1 "start" false true, .putCheck ⟨0, 1, "start", false⟩,
          .putPushed ⟨0, 1, "start", false⟩ true, .discard ⟨0, 1, "start", false⟩,
          .get 1 "start" false, .completeRequest ⟨1, 1, "start", false⟩] = some s ∧
      s.acks = [(⟨0, true, true⟩, 0), (⟨1, false, true⟩, 1)] ∧
      ∀ ack ∈ s.acks, s.origin ack.2 = some ack.1 := by
  obtain ⟨s, hs, hacks⟩ : ∃ s, (machine .kafka).runIf FreshAddress State.start
      [.attachStartReq 1 "start" false true, .putCheck ⟨0, 1, "start", false⟩,
        .putPushed ⟨0, 1, "start", false⟩ true, .discard ⟨0, 1, "start", false⟩,
        .get 1 "start" false, .completeRequest ⟨1, 1, "start", false⟩] = some s ∧
      s.acks = [(⟨0, true, true⟩, 0), (⟨1, false, true⟩, 1)] := ⟨_, rfl, rfl⟩
  have h := acknowledged_by_own_request (Machine.Reach.runIf _ (.init rfl) hs)
  exact ⟨s, hs, hacks, fun ack ha ↦ (h.1 ack ha).1⟩

/-- A start request is replaced by a request that gets its address: putting the new one
acknowledges the start message, and a leased message loses its entry the same way. -/
theorem acknowledged_by_other_request :
    ∃ s, (machine .kafka).run State.start
        [.attachStartReq 1 "start" false true, .discard ⟨0, 1, "start", false⟩,
          .create 1 "other" false, .putCheck ⟨1, 1, "other", false⟩,
          .putPushed ⟨1, 1, "other", false⟩ true, .get 2 "work" false,
          .discard ⟨2, 2, "work", false⟩, .get 2 "next" false] = some s ∧
      (⟨0, true, true⟩, 1) ∈ s.acks ∧ s.origin 1 = none ∧
      s.overwritten = [⟨1, false, true⟩] :=
  ⟨_, rfl, by decide, rfl, rfl⟩

end ScrapyCffi.Scheduler.Tables
