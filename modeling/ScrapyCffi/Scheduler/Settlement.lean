import ScrapyCffi.Base.Table
import ScrapyCffi.Scheduler.Tables

/-!
# Settled start messages

A start message is settled when its entry is gone from the start table and, where there is
something to acknowledge, the acknowledgement is made. Only the accepting branch of `put`
settles, so a start request that reaches the duplicate filter must not have been seen.
-/

namespace ScrapyCffi.Scheduler.Tables

open ScrapyCffi.Base

/-- A request built from a start message that no `put` has accepted yet. -/
def State.Unsettled (s : State) (request : Request) : Prop :=
  (s.origin request.object).any Message.start = true ∧ request.object ∉ s.accepted

/-- A start request skips the filter, as `dont_filter` or still marked, or is not seen. -/
def NotSeen (s : State) : Event → Prop
  | .putCheck request => s.Unsettled request → request.dontFilter = true ∨
      request.object ∈ s.marked ∨ request.fingerprint ∉ s.seen
  | _ => True

instance (s : State) (request : Request) : Decidable (s.Unsettled request) :=
  inferInstanceAs (Decidable (_ ∧ _))

instance (s : State) : ∀ e, Decidable (NotSeen s e)
  | .putCheck request => inferInstanceAs (Decidable (s.Unsettled request → _))
  | .create _ _ _ => isTrue trivial
  | .attachStartReq _ _ _ _ => isTrue trivial
  | .get _ _ _ => isTrue trivial
  | .markAsStart _ => isTrue trivial
  | .popStartUrl _ => isTrue trivial
  | .putPushed _ _ => isTrue trivial
  | .completeRequest _ => isTrue trivial
  | .discard _ => isTrue trivial

/-- The message has no entry left, and is acknowledged if it can be. -/
def State.Settled (transport : Transport) (s : State) (message : Message) : Prop :=
  (∀ address, s.startTable address ≠ some message) ∧
    (transport = .kafka ∨ message.identified = true → ∃ object, (message, object) ∈ s.acks)

/-- Every start message whose request a `put` has accepted or dropped as a duplicate is
settled. -/
def State.AllSettled (transport : Transport) (s : State) : Prop :=
  ∀ object, object ∈ s.accepted ∨ object ∈ s.duplicates →
    ∀ message, s.origin object = some message → message.start = true →
      s.Settled transport message

/-- Live objects have addresses of their own, and histories speak of created objects. -/
structure Heap (s : State) : Prop where
  distinct : ∀ first ∈ s.live, ∀ second ∈ s.live, first.address = second.address → first = second
  created : ∀ request ∈ s.live, request.object < s.created
  origins : ∀ object message, s.origin object = some message → object < s.created
  done : ∀ object, object ∈ s.accepted ∨ object ∈ s.duplicates → object < s.created

/-- What the runs of the condition preserve: the entry of a live object waits in the table
until a `put` accepts the object. -/
structure Accounted (transport : Transport) (s : State) : Prop extends Heap s where
  serials : ∀ object message, s.origin object = some message → message.start = true →
    message.serial < s.delivered
  entries : ∀ address message, s.startTable address = some message →
    message.serial < s.delivered
  unique : ∀ first second message, s.startTable first = some message →
    s.startTable second = some message → first = second
  waiting : ∀ request ∈ s.live, ∀ message, s.origin request.object = some message →
    message.start = true → request.object ∉ s.accepted →
      s.startTable request.address = some message
  accepted : ∀ object ∈ s.accepted, ∀ message, s.origin object = some message →
    message.start = true → s.Settled transport message
  duplicates : ∀ object ∈ s.duplicates, ∀ message, s.origin object = some message →
    message.start = true → object ∈ s.accepted

variable {transport : Transport} {s t : State}

/-- The accounts settle every message of a finished `put`. -/
theorem Accounted.allSettled (h : Accounted transport s) : s.AllSettled transport := by
  rintro object (ha | hd) message ho hstart
  · exact h.accepted object ha message ho hstart
  · exact h.accepted object (h.duplicates object hd message ho hstart) message ho hstart

/-- A settled message stays settled while its entries and acknowledgements do. -/
theorem State.Settled.mono {message : Message} (h : s.Settled transport message)
    (htable : ∀ address, t.startTable address = some message →
      s.startTable address = some message)
    (hacks : ∀ ack ∈ s.acks, ack ∈ t.acks) : t.Settled transport message :=
  ⟨fun address he ↦ h.1 address (htable address he),
    fun hk ↦ (h.2 hk).imp fun _ ha ↦ hacks _ ha⟩

/-! ### Creation -/

/-- The origin of an object that existed before is unchanged. -/
theorem origin_of_lt {origin : Option Message} {object : Nat} (hlt : object < s.created)
    {message : Message}
    (ho : Function.update s.origin s.created origin object = some message) :
    s.origin object = some message :=
  ((entry_of_update ho).resolve_left fun he ↦ Nat.ne_of_lt hlt he.1).2

/-- A created object gets an address of its own. -/
theorem Heap.create (h : Heap s) {address : Nat} {fingerprint : String} {dontFilter : Bool}
    {origin : Option Message} (hs : s.create address fingerprint dontFilter origin = some t) :
    Heap t := by
  obtain ⟨haddress, rfl⟩ := create_spec hs
  constructor
  case distinct =>
    intro first hf second hsec he
    rcases List.mem_cons.mp hf with rfl | hf' <;> rcases List.mem_cons.mp hsec with rfl | hs'
    · rfl
    · exact absurd he.symm (haddress second hs')
    · exact absurd he (haddress first hf')
    · exact h.distinct first hf' second hs' he
  case created =>
    intro request hr
    rcases List.mem_cons.mp hr with rfl | hr
    · exact Nat.lt_succ_self _
    · exact Nat.lt_succ_of_lt (h.created request hr)
  case origins =>
    intro object message ho
    obtain ⟨rfl, -⟩ | ⟨-, ho⟩ := entry_of_update ho
    · exact Nat.lt_succ_self _
    · exact Nat.lt_succ_of_lt (h.origins object message ho)
  case done => exact fun object ho ↦ Nat.lt_succ_of_lt (h.done object ho)

/-- An object that is not built from a start message changes no account. -/
theorem Accounted.create (h : Accounted transport s) {address : Nat} {fingerprint : String}
    {dontFilter : Bool} {origin : Option Message}
    (hwork : ∀ message, origin = some message → message.start = false)
    (hs : s.create address fingerprint dontFilter origin = some t) : Accounted transport t := by
  have hheap := h.toHeap.create hs
  obtain ⟨haddress, rfl⟩ := create_spec hs
  have horigin : ∀ object message,
      Function.update s.origin s.created origin object = some message → message.start = true →
        s.origin object = some message := by
    intro object message ho hstart
    obtain ⟨-, hm⟩ | ⟨-, ho⟩ := entry_of_update ho
    · rw [hwork message hm] at hstart
      cases hstart
    · exact ho
  refine { hheap with
    serials := fun object message ho hstart ↦
      h.serials object message (horigin object message ho hstart) hstart
    entries := h.entries
    unique := h.unique
    waiting := ?_
    accepted := fun object ha message ho hstart ↦
      h.accepted object ha message (horigin object message ho hstart) hstart
    duplicates := fun object hd message ho hstart ↦
      h.duplicates object hd message (horigin object message ho hstart) hstart }
  intro request hr message ho hstart ha
  have hold := horigin _ message ho hstart
  rcases List.mem_cons.mp hr with rfl | hr
  · exact absurd (h.origins _ message hold) (Nat.lt_irrefl _)
  · exact h.waiting request hr message hold hstart ha

/-- An attached message waits under the new object's address. -/
theorem Accounted.attachStartReq (h : Accounted transport s) {address : Nat}
    {fingerprint : String} {dontFilter identified : Bool}
    (hs : s.attachStartReq address fingerprint dontFilter identified = some t) :
    Accounted transport t := by
  obtain ⟨u, hu, rfl⟩ := Option.map_eq_some_iff.mp hs
  have hheap := h.toHeap.create hu
  obtain ⟨haddress, rfl⟩ := create_spec hu
  -- the attached message is newer than every message in the table or in an account
  have hfresh : ∀ message : Message, message.serial < s.delivered →
      message ≠ ⟨s.delivered, true, identified⟩ := by
    rintro message hlt rfl
    exact Nat.lt_irrefl _ hlt
  refine { hheap with serials := ?_, entries := ?_, unique := ?_, waiting := ?_,
                      accepted := ?_, duplicates := ?_ }
  · intro object message ho hstart
    obtain ⟨-, hm⟩ | ⟨-, ho⟩ := entry_of_update ho
    · obtain rfl := Option.some.inj hm
      exact Nat.lt_succ_self _
    · exact Nat.lt_succ_of_lt (h.serials object message ho hstart)
  · intro key message hm
    obtain ⟨-, rfl⟩ | ⟨-, hm⟩ := entry_of_insert hm
    · exact Nat.lt_succ_self _
    · exact Nat.lt_succ_of_lt (h.entries key message hm)
  · intro first second message hf hsec
    obtain ⟨rfl, rfl⟩ | ⟨-, hf⟩ := entry_of_insert hf
    · obtain ⟨rfl, -⟩ | ⟨-, hsec⟩ := entry_of_insert hsec
      · rfl
      · exact absurd rfl (hfresh _ (h.entries second _ hsec))
    · obtain ⟨-, rfl⟩ | ⟨-, hsec⟩ := entry_of_insert hsec
      · exact absurd rfl (hfresh _ (h.entries first _ hf))
      · exact h.unique first second message hf hsec
  · intro request hr message ho hstart ha
    rcases List.mem_cons.mp hr with rfl | hr
    · obtain ⟨-, hm⟩ | ⟨hne, -⟩ := entry_of_update ho
      · exact (Function.update_self ..).trans hm
      · exact absurd rfl hne
    · have hold := origin_of_lt (h.created request hr) ho
      exact (Function.update_of_ne (haddress request hr) _ _).trans
        (h.waiting request hr message hold hstart ha)
  · intro object ha message ho hstart
    have hold := origin_of_lt (h.done object (.inl ha)) ho
    refine (h.accepted object ha message hold hstart).mono (fun key he ↦ ?_) fun _ hk ↦ hk
    obtain ⟨-, rfl⟩ | ⟨-, he⟩ := entry_of_insert he
    · exact absurd rfl (hfresh _ (h.serials object _ hold hstart))
    · exact he
  · intro object hd message ho hstart
    exact h.duplicates object hd message (origin_of_lt (h.done object (.inr hd)) ho) hstart

/-- A lease touches no start message. -/
theorem Accounted.get (h : Accounted transport s) {address : Nat} {fingerprint : String}
    {dontFilter : Bool} (hs : s.get transport address fingerprint dontFilter = some t) :
    Accounted transport t := by
  unfold State.get at hs
  cases transport with
  | kafka =>
    obtain ⟨u, hu, rfl⟩ := Option.map_eq_some_iff.mp hs
    have hcreated := h.create (by rintro message ⟨⟩; rfl) hu
    exact { hcreated with
      serials := fun object message ho hstart ↦
        Nat.lt_succ_of_lt (hcreated.serials object message ho hstart)
      entries := fun key message hm ↦ Nat.lt_succ_of_lt (hcreated.entries key message hm) }
  | redis =>
    obtain ⟨u, hu, rfl⟩ := Option.map_eq_some_iff.mp hs
    exact { h.create (by rintro message ⟨⟩) hu with }

/-! ### Putting, completing and discarding -/

/-- A duplicate that is no unsettled start request is accounted for. -/
theorem Accounted.putCheck (h : Accounted transport s) {request : Request}
    (hg : NotSeen s (.putCheck request)) (hs : s.putCheck request = some t) :
    Accounted transport t := by
  unfold State.putCheck at hs
  split at hs
  · cases hs
  · next hlive =>
    have hr : request ∈ s.live := not_not.mp hlive
    split at hs
    · cases hs
      exact { h with }
    · next hfiltered =>
      split at hs
      · next hseen =>
        cases hs
        refine { h with done := ?_, duplicates := ?_ }
        · rintro object (ha | hd)
          · exact h.done object (.inl ha)
          · rcases List.mem_cons.mp hd with rfl | hd
            · exact h.created request hr
            · exact h.done object (.inr hd)
        · intro object hd message ho hstart
          rcases List.mem_cons.mp hd with rfl | hd
          · by_contra hna
            have horigin : s.origin request.object = some message := ho
            obtain hdont | hmarked | hnew := hg ⟨by simp [horigin, hstart], hna⟩
            · exact hfiltered (.inl hdont)
            · exact hfiltered (.inr hmarked)
            · exact hnew hseen
          · exact h.duplicates object hd message ho hstart
      · cases hs
        exact { h with }

/-- An accepted object's entry is popped and acknowledged. -/
theorem Accounted.completeStartRequest (h : Accounted transport s) {request : Request}
    (hr : request ∈ s.live) :
    Accounted transport { s.completeStartRequest transport request with
      accepted := request.object :: (s.completeStartRequest transport request).accepted } := by
  have hdone : ∀ object, object ∈ request.object :: s.accepted ∨ object ∈ s.duplicates →
      object < s.created := by
    rintro object (ha | hd)
    · rcases List.mem_cons.mp ha with rfl | ha
      · exact h.created request hr
      · exact h.done object (.inl ha)
    · exact h.done object (.inr hd)
  have hduplicates : ∀ object ∈ s.duplicates, ∀ message, s.origin object = some message →
      message.start = true → object ∈ request.object :: s.accepted :=
    fun object hd message ho hstart ↦
      List.mem_cons_of_mem _ (h.duplicates object hd message ho hstart)
  unfold State.completeStartRequest
  split
  · next hnone =>
    refine { h with waiting := ?_, accepted := ?_, duplicates := hduplicates, done := hdone }
    · intro other ho message hm hstart hna
      exact h.waiting other ho message hm hstart fun ha ↦ hna (List.mem_cons_of_mem _ ha)
    · intro object ha message ho hstart
      by_cases hold : object ∈ s.accepted
      · exact (h.accepted object hold message ho hstart).mono (fun _ he ↦ he) fun _ hk ↦ hk
      · obtain rfl : object = request.object := (List.mem_cons.mp ha).resolve_right hold
        cases hnone.symm.trans (h.waiting request hr message ho hstart hold)
  · next message hentry =>
    have hacks : ∀ ack ∈ s.acks, ack ∈ (if transport = .kafka ∨ message.identified = true then
        s.acks ++ [(message, request.object)] else s.acks) := by
      intro ack ha
      split
      · exact List.mem_append_left _ ha
      · exact ha
    refine { h with entries := ?_, unique := ?_, waiting := ?_, accepted := ?_,
                    duplicates := hduplicates, done := hdone }
    · exact fun key found hf ↦ h.entries key found (entry_of_remove hf).2
    · exact fun first second found hf hsec ↦
        h.unique first second found (entry_of_remove hf).2 (entry_of_remove hsec).2
    · intro other ho found hm hstart hna
      have hne : other.address ≠ request.address := fun he ↦
        hna (h.distinct other ho request hr he ▸ List.mem_cons_self ..)
      exact (Function.update_of_ne hne _ _).trans
        (h.waiting other ho found hm hstart fun ha ↦ hna (List.mem_cons_of_mem _ ha))
    · intro object ha found ho hstart
      by_cases hold : object ∈ s.accepted
      · exact (h.accepted object hold found ho hstart).mono
          (fun _ he ↦ (entry_of_remove he).2) hacks
      · obtain rfl : object = request.object := (List.mem_cons.mp ha).resolve_right hold
        have hwaits := h.waiting request hr found ho hstart hold
        obtain rfl : message = found := Option.some.inj (hentry.symm.trans hwaits)
        refine ⟨fun key he ↦ ?_, fun hk ↦ ⟨request.object, ?_⟩⟩
        · obtain ⟨hne, he⟩ := entry_of_remove he
          exact hne (h.unique key request.address message he hentry)
        · simp [hk]

/-- Completing a leased request leaves the start messages alone. -/
theorem Accounted.completeRequest (h : Accounted transport s) {request : Request}
    (hs : s.completeRequest transport request = some t) : Accounted transport t := by
  unfold State.completeRequest at hs
  split at hs
  · cases hs
  · cases transport with
    | kafka =>
      dsimp only at hs
      split at hs
      · cases hs
        exact h
      · cases hs
        refine { h with accepted := fun object ha message ho hstart ↦ ?_ }
        exact (h.accepted object ha message ho hstart).mono (fun _ he ↦ he)
          fun _ hk ↦ List.mem_append_left _ hk
    | redis =>
      cases hs
      exact { h with }

/-- Discarding an object needs no account. -/
theorem Accounted.discard (h : Accounted transport s) {request : Request}
    (hs : s.discard request = some t) : Accounted transport t := by
  unfold State.discard at hs
  split at hs
  · cases hs
    have hlive : ∀ other, other ∈ s.live.filter (· ≠ request) → other ∈ s.live :=
      fun other ho ↦ (List.mem_filter.mp ho).1
    exact { h with
      distinct := fun first hf second hsec ↦
        h.distinct first (hlive first hf) second (hlive second hsec)
      created := fun other ho ↦ h.created other (hlive other ho)
      waiting := fun other ho ↦ h.waiting other (hlive other ho) }
  · cases hs

/-- Every step under the condition keeps the accounts. -/
theorem Accounted.step (h : Accounted transport s) {e : Event} (hg : NotSeen s e)
    (hs : s.step transport e = some t) : Accounted transport t := by
  cases e with
  | create address fingerprint dontFilter => exact h.create (by rintro message ⟨⟩) hs
  | attachStartReq address fingerprint dontFilter identified => exact h.attachStartReq hs
  | get address fingerprint dontFilter => exact h.get hs
  | markAsStart request =>
    simp only [State.step] at hs
    split at hs <;> cases hs
    exact { h with }
  | popStartUrl request =>
    simp only [State.step] at hs
    split at hs <;> cases hs
    exact { h with }
  | putCheck request => exact h.putCheck hg hs
  | putPushed request pushed =>
    simp only [State.step, State.putPushed] at hs
    split at hs
    · next hlive =>
      split at hs
      · cases hs
        have hput : Accounted transport { s with putting := s.putting.erase request.object } :=
          { h with }
        exact hput.completeStartRequest hlive.1
      · cases hs
        exact { h with }
    · cases hs
  | completeRequest request => exact h.completeRequest hs
  | discard request => exact h.discard hs

/-- A duplicate that is an unsettled start request leaves its message outstanding. -/
theorem Accounted.not_allSettled (h : Accounted transport s) {e : Event} (hg : ¬NotSeen s e)
    (hs : s.step transport e = some t) : ¬t.AllSettled transport := by
  cases e with
  | putCheck request =>
    simp only [NotSeen, not_forall, not_or, not_not] at hg
    obtain ⟨⟨hstart, hna⟩, hdont, hmarked, hseen⟩ := hg
    obtain ⟨message, ho, hm⟩ : ∃ message, s.origin request.object = some message ∧
        message.start = true := by
      cases ho : s.origin request.object with
      | none => simp [ho] at hstart
      | some message => exact ⟨message, rfl, by simpa [ho] using hstart⟩
    simp only [State.step, State.putCheck] at hs
    split at hs
    · cases hs
    · next hlive =>
      simp only [hdont, hmarked, or_self, ↓reduceIte, Bool.false_eq_true] at hs
      cases hs
      intro hall
      have hsettled := hall request.object (.inr (List.mem_cons_self ..)) message ho hm
      exact hsettled.1 request.address
        (h.waiting request (not_not.mp hlive) message ho hm hna)
  | create _ _ _ => exact absurd trivial hg
  | attachStartReq _ _ _ _ => exact absurd trivial hg
  | get _ _ _ => exact absurd trivial hg
  | markAsStart _ => exact absurd trivial hg
  | popStartUrl _ => exact absurd trivial hg
  | putPushed _ _ => exact absurd trivial hg
  | completeRequest _ => exact absurd trivial hg
  | discard _ => exact absurd trivial hg

end ScrapyCffi.Scheduler.Tables
