import ScrapyCffi.Repo.RedisStream

/-!
# What the calls on a stream return

Calls that read ">" return each entry of the group at most once, in order. An entry that is
delivered and not returned, since it came behind another one, was not decoded, or since the reply
was lost, is pending for good: no call returns it, and none acknowledges it.
-/

namespace ScrapyCffi.Repo

open ScrapyCffi.Base

variable {ι π : Type} {config : π → RedisIngressConfig} {process : ι → π} {s t : State ι π}
  {e : Event ι} {r r' : RedisStream} {place : Nat}

/-! ### Steps -/

/-- What happens to a stream when nothing is delivered or acknowledged. -/
inductive Change (r : RedisStream) : RedisStream → Prop
  | same : Change r r
  | added (fields : StreamFields) : Change r (r.xadd fields)
  | grouped (id : StartId) (none : r.group = none) :
    Change r { entries := some r.log, group := some (.create (r.start id)) }

theorem Change.exists_log (h : Change r r') : ∃ more, r'.log = r.log ++ more := by
  cases h with
  | same => exact ⟨[], (List.append_nil _).symm⟩
  | added fields => exact ⟨[fields], rfl⟩
  | grouped id none => exact ⟨[], (List.append_nil _).symm⟩

theorem Change.group (h : Change r r') : r'.group = r.group ∨ r.group = none ∧
    ∃ start, start ≤ r'.log.length ∧ r'.group = some (.create start) := by
  cases h with
  | same => exact .inl rfl
  | added fields => exact .inl rfl
  | grouped id none =>
    right
    refine ⟨none, r.start id, ?_, rfl⟩
    show r.start id ≤ r.log.length
    cases id with
    | zero => exact Nat.zero_le _
    | dollar => exact Nat.le_refl _

theorem change_xgroupCreate (r : RedisStream) (id : StartId) (mkstream : Bool) :
    Change r (r.xgroupCreate id mkstream).2 := by
  rw [RedisStream.xgroupCreate]
  split
  · exact .same
  · next hgroup =>
    split
    · exact .same
    · exact .grouped id (Option.not_isSome_iff_eq_none.mp hgroup)

/-- The entries that a read of a call delivers. -/
def batch (config : π → RedisIngressConfig) (process : ι → π) (s : State ι π)
    (g : ConsumerGroup Text) (i : ι) : List (StreamFields × Nat) :=
  g.fresh s.stream.log (config (process i)).count.toNat

/-- What a call returns for a batch. -/
def result (config : π → RedisIngressConfig) (process : ι → π) (s : State ι π)
    (g : ConsumerGroup Text) (i : ι) : Except StreamError (Option RedisStreamMessage) :=
  received (config (process i)).field (.ok (batch config process s g i))

/-- What a step does where every call reads ">". -/
inductive Move (config : π → RedisIngressConfig) (process : ι → π) (s : State ι π) :
    Event ι → State ι π → Prop
  | quiet {e : Event ι} {t : State ι π} (stream : Change s.stream t.stream)
    (returned : t.returned = s.returned)
    (calls : ∀ i m, t.calls i = .ended (.ok (some m)) → s.calls i = .ended (.ok (some m))) :
    Move config process s e t
  | acknowledged {i : ι} {m : RedisStreamMessage} (call : s.calls i = .ended (.ok (some m))) :
    Move config process s (.acknowledge i) { s with stream := s.stream.xack m.messageId }
  | delivered {i : ι} {arrives : Bool} {g : ConsumerGroup Text} {t : State ι π}
    (group : s.stream.group = some g)
    (stream : t.stream = { s.stream with
      group := some (g.deliver (config (process i)).consumerName
        (batch config process s g i).length) })
    (returned : t.returned = s.returned ++
      (if arrives then message? (result config process s g i) else none).toList)
    (calls : ∀ j m, t.calls j = .ended (.ok (some m)) → s.calls j = .ended (.ok (some m)) ∨
      arrives = true ∧ result config process s g i = .ok (some m)) :
    Move config process s (.read i arrives) t

section Steps

variable [DecidableEq ι]

theorem ended_of_update {calls : ι → Call} {i j : ι} {call : Call} {m : RedisStreamMessage}
    (h : Function.update calls i call j = .ended (.ok (some m))) :
    calls j = .ended (.ok (some m)) ∨ call = .ended (.ok (some m)) := by
  rw [Function.update_apply] at h
  split at h
  · exact .inr h
  · exact .inl h

/-- A call that goes on has returned nothing. -/
theorem ended_of_goTo {i j : ι} {call : Call} {m : RedisStreamMessage}
    (hcall : call ≠ .ended (.ok (some m)))
    (h : (s.goTo i call).calls j = .ended (.ok (some m))) : s.calls j = .ended (.ok (some m)) := by
  rcases ended_of_update h with hold | hnew
  · exact hold
  · exact absurd hnew hcall

/-- A call that raises has returned nothing. -/
theorem move_finish_error {u : State ι π} (hstream : Change s.stream u.stream)
    (hreturned : u.returned = s.returned) (hcalls : u.calls = s.calls) (i : ι)
    (error : StreamError) : Move config process s e (u.finish i (.error error)) := by
  apply Move.quiet
  · exact hstream
  · show u.returned ++ [] = s.returned
    rw [List.append_nil, hreturned]
  · intro j m hj
    rcases ended_of_update hj with hold | hnew
    · rwa [← hcalls]
    · cases hnew

/-- A read takes the entries of its batch, and returns what its call makes of them. -/
theorem read_delivers (hnew : ∀ p, (config p).readId = .new) {g : ConsumerGroup Text}
    (hg : s.stream.group = some g) {i : ι} (hcount : ¬(config (process i)).count < 1)
    (arrives : Bool) :
    (s.read config process i arrives).stream = { s.stream with
        group := some (g.deliver (config (process i)).consumerName
          (batch config process s g i).length) } ∧
      (s.read config process i arrives).returned = s.returned ++
        (if arrives then message? (result config process s g i) else none).toList ∧
      ∀ j m, (s.read config process i arrives).calls j = .ended (.ok (some m)) →
        s.calls j = .ended (.ok (some m)) ∨
          arrives = true ∧ result config process s g i = .ok (some m) := by
  rw [State.read]
  dsimp only
  rw [if_neg hcount, RedisStream.xreadgroup, hnew, hg]
  cases arrives with
  | true =>
    refine ⟨rfl, rfl, fun j m hj ↦ ?_⟩
    rcases ended_of_update hj with hold | hended
    · exact .inl hold
    · exact .inr ⟨rfl, Call.ended.inj hended⟩
  | false => exact ⟨rfl, (List.append_nil _).symm, fun j m hj ↦ .inl hj⟩

theorem move_read (hnew : ∀ p, (config p).readId = .new) (s : State ι π) (i : ι) (arrives : Bool) :
    Move config process s (.read i arrives) (s.read config process i arrives) := by
  by_cases hcount : (config (process i)).count < 1
  · rw [State.read]
    dsimp only
    rw [if_pos hcount]
    exact move_finish_error .same rfl rfl i .data
  · cases hgroup : s.stream.group with
    | none =>
      rw [State.read]
      dsimp only
      rw [if_neg hcount, RedisStream.xreadgroup, hgroup]
      cases arrives with
      | true => exact move_finish_error .same rfl rfl i _
      | false => exact .quiet .same rfl fun _ _ h ↦ h
    | some g =>
      obtain ⟨hstream, hreturned, hcalls⟩ := read_delivers hnew hgroup hcount arrives
      exact .delivered hgroup hstream hreturned hcalls

variable [DecidableEq π]

theorem move_grouped {u : State ι π} (hstream : Change s.stream u.stream)
    (hreturned : u.returned = s.returned) (hcalls : u.calls = s.calls) (i : ι)
    (error : Option String) : Move config process s e (u.grouped process i error) := by
  have hgo : Move config process s e ({ u with
      initialized := Function.update u.initialized (process i) true }.goTo i .reading) := by
    apply Move.quiet
    · exact hstream
    · exact hreturned
    · intro j m hj
      rw [← hcalls]
      exact ended_of_goTo (s := u) (fun heq ↦ by cases heq) hj
  cases error with
  | none => exact hgo
  | some text =>
    rw [State.grouped]
    split
    · exact hgo
    · exact move_finish_error hstream hreturned hcalls i _

theorem move_of_step (hnew : ∀ p, (config p).readId = .new)
    (h : s.step config process e = some t) : Move config process s e t := by
  cases e with
  | add fields =>
    cases h
    exact .quiet (.added fields) rfl fun _ _ hm ↦ hm
  | begin i =>
    rw [State.step] at h
    split at h
    · cases h
      apply Move.quiet
      · exact .same
      · rfl
      · intro j m hj
        apply ended_of_goTo _ hj
        split
        · exact fun heq ↦ by cases heq
        · exact fun heq ↦ by cases heq
    · cases h
  | create i arrives =>
    rw [State.step] at h
    split at h
    · cases h
      rw [State.create]
      dsimp only
      split
      · exact move_grouped (u := { s with stream := _ }) (change_xgroupCreate s.stream _ _)
          rfl rfl i _
      · exact .quiet (change_xgroupCreate _ _ _) rfl fun _ _ hm ↦ hm
    · cases h
  | read i arrives =>
    rw [State.step] at h
    split at h
    · cases h
      exact move_read hnew s i arrives
    · cases h
  | abandon i =>
    rw [State.step] at h
    split at h
    · cases h
      exact move_finish_error .same rfl rfl i .abandoned
    · cases h
      exact move_finish_error .same rfl rfl i .abandoned
    · cases h
  | acknowledge i =>
    rw [State.step] at h
    split at h
    · next m hcall =>
      cases h
      exact .acknowledged hcall
    · cases h

end Steps

/-! ### What is delivered -/

/-- The places of the entries that calls have returned. -/
def State.places (s : State ι π) : List Nat := s.returned.map RedisStreamMessage.messageId

theorem places_of_returned {found : Option RedisStreamMessage}
    (h : t.returned = s.returned ++ found.toList) :
    t.places = s.places ++ found.toList.map RedisStreamMessage.messageId := by
  rw [State.places, h, List.map_append]
  rfl

/-- An entry is pending that no call has returned. -/
def State.Stuck (s : State ι π) (place : Nat) : Prop :=
  (∃ g, s.stream.group = some g ∧ g.IsPending place) ∧ place ∉ s.places

/-- A message is that of the entry at its place. -/
def RedisStreamMessage.Of (config : π → RedisIngressConfig) (log : List StreamFields)
    (m : RedisStreamMessage) : Prop :=
  ∃ fields p, log[m.messageId]? = some fields ∧ m.fields = fields.1 ∧
    extractStreamData m.fields (some (config p).field) = .ok (some m.data)

theorem RedisStreamMessage.Of.append {log : List StreamFields} {m : RedisStreamMessage}
    (h : m.Of config log) (more : List StreamFields) : m.Of config (log ++ more) := by
  obtain ⟨fields, p, hfields, hrest⟩ := h
  obtain ⟨hlt, -⟩ := List.getElem?_eq_some_iff.mp hfields
  exact ⟨fields, p, by rw [List.getElem?_append_left hlt, hfields], hrest⟩

/-- A message is that of the first entry of a batch. -/
theorem exists_of_received {field : Text} {entries : List (StreamFields × Nat)}
    {m : RedisStreamMessage} (h : received field (.ok entries) = .ok (some m)) :
    ∃ fields rest, entries = (fields, m.messageId) :: rest ∧ m.fields = fields.1 ∧
      extractStreamData m.fields (some field) = .ok (some m.data) := by
  cases entries with
  | nil => cases h
  | cons entry rest =>
    obtain ⟨fields, place⟩ := entry
    rw [received] at h
    cases hdata : extractStreamData fields.1 (some field) with
    | error error =>
      rw [hdata] at h
      cases h
    | ok data =>
      rw [hdata] at h
      cases data with
      | none => cases h
      | some data =>
        cases h
        exact ⟨fields, rest, rfl, rfl, hdata⟩

/-- The message that a read returns is that of the next entry of the log. -/
theorem of_result {g : ConsumerGroup Text} {i : ι} {m : RedisStreamMessage}
    (h : result config process s g i = .ok (some m)) :
    m.messageId = g.last ∧ 0 < (batch config process s g i).length ∧ m.Of config s.stream.log := by
  obtain ⟨fields, rest, hbatch, hfields, hdata⟩ := exists_of_received h
  obtain ⟨hplace, hentry⟩ := ConsumerGroup.fresh_eq_cons hbatch
  refine ⟨hplace, ?_, fields, process i, ?_, hfields, hdata⟩
  · rw [hbatch]
    exact Nat.succ_pos _
  · rw [hplace]
    exact hentry

theorem message?_eq_some {found : Except StreamError (Option RedisStreamMessage)}
    {m : RedisStreamMessage} (h : message? found = some m) : found = .ok (some m) := by
  cases found with
  | error error => cases h
  | ok message => exact congrArg Except.ok h

theorem last_add_length_batch_le {g : ConsumerGroup Text} (h : g.Sound s.stream.log) (i : ι) :
    g.last + (batch config process s g i).length ≤ s.stream.log.length := by
  have hlast := h.1
  rw [batch, ConsumerGroup.length_fresh]
  omega

/-- Every entry from where the group began to where it is was returned or is pending. -/
structure Sound (config : π → RedisIngressConfig) (s : State ι π) : Prop where
  group : ∀ g, s.stream.group = some g → g.Sound s.stream.log ∧
    ∀ place, g.first ≤ place → place < g.last → place ∈ s.places ∨ g.IsPending place
  bounds : ∀ m ∈ s.returned, ∃ g, s.stream.group = some g ∧ g.first ≤ m.messageId ∧
    m.messageId < g.last
  increasing : s.places.Pairwise (· < ·)
  shows : ∀ m ∈ s.returned, m.Of config s.stream.log
  kept : ∀ i m, s.calls i = .ended (.ok (some m)) → m ∈ s.returned

theorem Sound.place_lt (h : Sound config s) {g : ConsumerGroup Text}
    (hg : s.stream.group = some g) (hplace : place ∈ s.places) : place < g.last := by
  obtain ⟨m, hm, rfl⟩ := List.mem_map.mp hplace
  obtain ⟨g', hg', -, hlt⟩ := h.bounds m hm
  cases hg.symm.trans hg'
  exact hlt

theorem sound_start (h : r.Observed) : Sound config (.start r : State ι π) where
  group g hg := by
    obtain ⟨hfirst, hsound⟩ := h g hg
    refine ⟨hsound, fun place hle hlt ↦ ?_⟩
    omega
  bounds m hm := absurd hm List.not_mem_nil
  increasing := List.Pairwise.nil
  shows m hm := absurd hm List.not_mem_nil
  kept i m hm := by cases hm

theorem Sound.quiet (h : Sound config s) (stream : Change s.stream t.stream)
    (returned : t.returned = s.returned)
    (calls : ∀ i m, t.calls i = .ended (.ok (some m)) → s.calls i = .ended (.ok (some m))) :
    Sound config t := by
  have hplaces : t.places = s.places := congrArg (List.map _) returned
  obtain ⟨more, hlog⟩ := stream.exists_log
  constructor
  · intro g hg
    rw [hplaces]
    rcases stream.group with hsame | ⟨-, start, hstart, hcreated⟩
    · obtain ⟨hsound, hcovers⟩ := h.group g (hsame.symm.trans hg)
      rw [hlog]
      exact ⟨hsound.append more, hcovers⟩
    · cases hcreated.symm.trans hg
      exact ⟨ConsumerGroup.sound_create hstart, fun place hle hlt ↦ absurd hle (Nat.not_le.mpr hlt)⟩
  · intro m hm
    rw [returned] at hm
    obtain ⟨g, hg, hbounds⟩ := h.bounds m hm
    rcases stream.group with hsame | ⟨hnone, -⟩
    · exact ⟨g, hsame.trans hg, hbounds⟩
    · cases hnone.symm.trans hg
  · rw [hplaces]
    exact h.increasing
  · intro m hm
    rw [returned] at hm
    rw [hlog]
    exact (h.shows m hm).append more
  · intro i m hm
    rw [returned]
    exact h.kept i m (calls i m hm)

theorem Sound.acknowledged (h : Sound config s) (place : Nat)
    (hplace : place ∈ s.places) : Sound config { s with stream := s.stream.xack place } := by
  constructor
  · intro g hg
    obtain ⟨g', hg', rfl⟩ := Option.map_eq_some_iff.mp hg
    obtain ⟨hsound, hcovers⟩ := h.group g' hg'
    refine ⟨hsound.acknowledge place, fun other hle hlt ↦ ?_⟩
    rcases hcovers other hle hlt with hreturned | hpending
    · exact .inl hreturned
    · by_cases heq : other = place
      · exact .inl (heq ▸ hplace)
      · exact .inr (ConsumerGroup.isPending_acknowledge.mpr ⟨hpending, heq⟩)
  · intro m hm
    obtain ⟨g, hg, hbounds⟩ := h.bounds m hm
    exact ⟨g.acknowledge place, congrArg (Option.map _) hg, hbounds⟩
  · exact h.increasing
  · exact h.shows
  · exact h.kept

theorem Sound.delivered (h : Sound config s) {i : ι} {g : ConsumerGroup Text}
    (group : s.stream.group = some g) {consumer : Text} {found : Option RedisStreamMessage}
    (hfound : ∀ m, found = some m → result config process s g i = .ok (some m))
    (stream : t.stream = { s.stream with
      group := some (g.deliver consumer (batch config process s g i).length) })
    (returned : t.returned = s.returned ++ found.toList)
    (calls : ∀ j m, t.calls j = .ended (.ok (some m)) → s.calls j = .ended (.ok (some m)) ∨
      found = some m) : Sound config t := by
  obtain ⟨hsound, hcovers⟩ := h.group g group
  have hlog : t.stream.log = s.stream.log := by
    rw [stream]
    rfl
  have hgroup : t.stream.group =
      some (g.deliver consumer (batch config process s g i).length) := by rw [stream]
  have hplaces := places_of_returned returned
  constructor
  · intro g' hg'
    cases hgroup.symm.trans hg'
    rw [hlog, hplaces]
    refine ⟨hsound.deliver consumer (last_add_length_batch_le hsound i), fun place hle hlt ↦ ?_⟩
    by_cases hold : place < g.last
    · rcases hcovers place hle hold with hreturned | hpending
      · exact .inl (List.mem_append_left _ hreturned)
      · exact .inr (ConsumerGroup.isPending_deliver.mpr (.inl hpending))
    · exact .inr (ConsumerGroup.isPending_deliver.mpr (.inr ⟨Nat.not_lt.mp hold, hlt⟩))
  · intro m hm
    refine ⟨_, hgroup, ?_⟩
    rw [returned] at hm
    rcases List.mem_append.mp hm with hold | hnew
    · obtain ⟨g', hg', hle, hlt⟩ := h.bounds m hold
      cases group.symm.trans hg'
      exact ⟨hle, Nat.lt_add_right _ hlt⟩
    · obtain ⟨hplace, hpos, -⟩ := of_result (hfound m (Option.mem_toList.mp hnew))
      rw [hplace]
      exact ⟨g.first_le, Nat.lt_add_of_pos_right hpos⟩
  · rw [hplaces, List.pairwise_append]
    refine ⟨h.increasing, ?_, fun place hplace other hother ↦ ?_⟩
    · cases found with
      | none => exact List.Pairwise.nil
      | some m => exact List.pairwise_singleton _ _
    · obtain ⟨m, hm, rfl⟩ := List.mem_map.mp hother
      rw [(of_result (hfound m (Option.mem_toList.mp hm))).1]
      exact h.place_lt group hplace
  · intro m hm
    rw [hlog]
    rw [returned] at hm
    rcases List.mem_append.mp hm with hold | hnew
    · exact h.shows m hold
    · exact (of_result (hfound m (Option.mem_toList.mp hnew))).2.2
  · intro j m hj
    rw [returned]
    rcases calls j m hj with hold | hnew
    · exact List.mem_append_left _ (h.kept j m hold)
    · exact List.mem_append_right _ (Option.mem_toList.mpr hnew)

theorem Sound.move (h : Sound config s) (hmove : Move config process s e t) : Sound config t := by
  cases hmove with
  | quiet stream returned calls => exact h.quiet stream returned calls
  | @acknowledged i m call => exact h.acknowledged _ (List.mem_map_of_mem (h.kept i m call))
  | @delivered i arrives g t group stream returned calls =>
    refine h.delivered group (fun m hm ↦ ?_) stream returned fun j m hj ↦ ?_
    · split at hm
      · exact message?_eq_some hm
      · cases hm
    · rcases calls j m hj with hold | ⟨harrives, hresult⟩
      · exact .inl hold
      · rw [if_pos harrives, hresult]
        exact .inr rfl

/-- What is stuck stays stuck. -/
theorem State.Stuck.move (hstuck : s.Stuck place) (h : Sound config s)
    (hmove : Move config process s e t) : t.Stuck place := by
  obtain ⟨⟨g, hg, hpending⟩, hnot⟩ := hstuck
  cases hmove with
  | quiet stream returned calls =>
    constructor
    · rcases stream.group with hsame | ⟨hnone, -⟩
      · exact ⟨g, hsame.trans hg, hpending⟩
      · cases hnone.symm.trans hg
    · rw [State.places, returned]
      exact hnot
  | @acknowledged i m call =>
    refine ⟨⟨g.acknowledge m.messageId, congrArg (Option.map _) hg, ?_⟩, hnot⟩
    apply ConsumerGroup.isPending_acknowledge.mpr
    refine ⟨hpending, ?_⟩
    rintro rfl
    exact hnot (List.mem_map_of_mem (h.kept i m call))
  | @delivered i arrives g' t group stream returned calls =>
    cases hg.symm.trans group
    constructor
    · exact ⟨_, by rw [stream], ConsumerGroup.isPending_deliver.mpr (.inl hpending)⟩
    · have hlt := (h.group g hg).1.2 place hpending
      rw [places_of_returned returned, List.mem_append, not_or]
      refine ⟨hnot, fun hnew ↦ ?_⟩
      obtain ⟨m, hm, rfl⟩ := List.mem_map.mp hnew
      have hfound := Option.mem_toList.mp hm
      split at hfound
      · rw [(of_result (message?_eq_some hfound)).1] at hlt
        exact Nat.lt_irrefl _ hlt
      · cases hfound

/-! ### What is returned where nothing is lost -/

/-- A call finds the data of an entry. -/
def Readable (field : Text) (fields : StreamFields) : Prop :=
  ∃ data, extractStreamData fields.1 (some field) = .ok (some data)

theorem readable_iff {field : Text} {fields : StreamFields} :
    Readable field fields ↔
      (extractStreamData fields.1 (some field)).toOption.join.isSome = true := by
  rw [Readable]
  cases extractStreamData fields.1 (some field) with
  | error error => simp [Except.toOption]
  | ok data => cases data <;> simp [Except.toOption]

instance (field : Text) (fields : StreamFields) : Decidable (Readable field fields) :=
  decidable_of_iff _ readable_iff.symm

/-- The reply of a read arrives, and every entry is readable for the call. -/
def Clear (config : π → RedisIngressConfig) (process : ι → π) (s : State ι π) : Event ι → Prop
  | .read i arrives => arrives = true ∧
    ∀ fields ∈ s.stream.log, Readable (config (process i)).field fields
  | _ => True

instance (s : State ι π) (e : Event ι) : Decidable (Clear config process s e) :=
  match e with
  | .read i arrives => inferInstanceAs (Decidable (arrives = true ∧
      ∀ fields ∈ s.stream.log, Readable (config (process i)).field fields))
  | .add _ | .begin _ | .create _ _ | .abandon _ | .acknowledge _ => .isTrue True.intro

theorem received_of_readable {field : Text} {fields : StreamFields} (h : Readable field fields)
    (place : Nat) (rest : List (StreamFields × Nat)) :
    ∃ m, received field (.ok ((fields, place) :: rest)) = .ok (some m) ∧ m.messageId = place := by
  obtain ⟨data, hdata⟩ := h
  refine ⟨⟨place, data, fields.1⟩, ?_, rfl⟩
  rw [received, hdata]
  rfl

/-- The calls have returned what the group has delivered, in order. -/
def State.InOrder (s : State ι π) : Prop :=
  ∀ g, s.stream.group = some g → s.places = List.range' g.first (g.last - g.first)

theorem inOrder_start (h : r.Observed) : (State.start r : State ι π).InOrder := by
  intro g hg
  rw [(h g hg).1, Nat.sub_self]
  rfl

/-- Nothing is returned before the group was created. -/
theorem Sound.places_eq_nil (h : Sound config s) (hg : s.stream.group = none) : s.places = [] := by
  apply List.map_eq_nil_iff.mpr
  apply List.eq_nil_iff_forall_not_mem.mpr
  intro m hm
  obtain ⟨g, hg', -⟩ := h.bounds m hm
  cases hg.symm.trans hg'

theorem State.InOrder.deliver (h : s.InOrder) (hone : ∀ p, (config p).count = 1) {i : ι}
    (hread : ∀ fields ∈ s.stream.log, Readable (config (process i)).field fields)
    {g : ConsumerGroup Text} (hg : s.stream.group = some g) (consumer : Text)
    (stream : t.stream = { s.stream with
      group := some (g.deliver consumer (batch config process s g i).length) })
    (returned : t.returned =
      s.returned ++ (message? (result config process s g i)).toList) : t.InOrder := by
  intro g' hg'
  rw [stream] at hg'
  cases hg'
  rw [places_of_returned returned, h g hg]
  show _ = List.range' g.first (g.last + (batch config process s g i).length - g.first)
  have hlength : (batch config process s g i).length ≤ 1 := by
    rw [batch, ConsumerGroup.length_fresh, hone]
    exact Nat.min_le_left _ _
  rw [result]
  cases hbatch : batch config process s g i with
  | nil => exact List.append_nil _
  | cons entry rest =>
    obtain ⟨fields, place⟩ := entry
    obtain ⟨rfl, hentry⟩ := ConsumerGroup.fresh_eq_cons hbatch
    obtain ⟨m, hm, hplace⟩ :=
      received_of_readable (hread fields (List.mem_of_getElem? hentry)) g.last rest
    have hrest : rest = [] := by
      rw [hbatch, List.length_cons] at hlength
      exact List.eq_nil_of_length_eq_zero (by omega)
    rw [hm, hrest]
    show _ ++ [m.messageId] = List.range' g.first (g.last + 1 - g.first)
    rw [Nat.succ_sub g.first_le, List.range'_1_concat, Nat.add_sub_of_le g.first_le, hplace]

theorem State.InOrder.move (h : s.InOrder) (hsound : Sound config s)
    (hone : ∀ p, (config p).count = 1) (hclear : Clear config process s e)
    (hmove : Move config process s e t) : t.InOrder := by
  cases hmove with
  | quiet stream returned calls =>
    have hplaces : t.places = s.places := congrArg (List.map _) returned
    intro g hg
    rw [hplaces]
    rcases stream.group with hsame | ⟨hnone, start, -, hcreated⟩
    · exact h g (hsame.symm.trans hg)
    · cases hcreated.symm.trans hg
      rw [hsound.places_eq_nil hnone]
      show [] = List.range' start (start - start)
      rw [Nat.sub_self]
      rfl
  | acknowledged call =>
    intro g hg
    obtain ⟨g', hg', rfl⟩ := Option.map_eq_some_iff.mp hg
    exact h g' hg'
  | @delivered i arrives g t group stream returned calls =>
    rw [if_pos hclear.1] at returned
    exact h.deliver hone hclear.2 group _ stream returned

/-- Consumers of one repository that read a number of entries at a time. -/
def readers (count : Int) : Unit → RedisIngressConfig := fun _ ↦
  { consumerName := ['w'], field := ['d'], count, groupStartId := .zero, readId := .new,
    mkstream := true }

def oneField : Dict RedisData RedisData :=
  ⟨[(.bytes [100], .bytes [123, 125])], List.nodup_singleton _⟩

theorem oneField_ne_nil : oneField.entries ≠ [] := List.cons_ne_nil _ _

/-- Two entries are added, and a call goes up to its read. -/
def twoAdded : List (Event Bool) :=
  [.add ⟨oneField, oneField_ne_nil⟩, .add ⟨oneField, oneField_ne_nil⟩, .begin false,
    .create false true]

theorem observed_empty : RedisStream.Observed ⟨none, none⟩ := fun g hg ↦ by cases hg

/-- A run from an empty server. -/
theorem exists_run {count : Int} {es : List (Event Bool)} {places : List Nat} {bounds : Nat × Nat}
    (h : ((consumers (readers count) fun _ : Bool ↦ ()).run (.start ⟨none, none⟩) es).map
      (fun s ↦ (s.places, s.stream.group.map fun g ↦ (g.first, g.last))) =
        some (places, some bounds)) :
    ∃ s g, (consumers (readers count) fun _ ↦ ()).run (.start ⟨none, none⟩) es = some s ∧
      (consumers (readers count) fun _ ↦ ()).Reachable s ∧ s.places = places ∧
      s.stream.group = some g ∧ g.first = bounds.1 ∧ g.last = bounds.2 := by
  obtain ⟨s, hs, hfacts⟩ := Option.map_eq_some_iff.mp h
  obtain ⟨hplaces, hgroup⟩ := Prod.mk.inj hfacts
  obtain ⟨g, hg, hbounds⟩ := Option.map_eq_some_iff.mp hgroup
  refine ⟨s, g, hs, ?_, hplaces, hg, congrArg Prod.fst hbounds, congrArg Prod.snd hbounds⟩
  exact Machine.Reachable.run es (.init ⟨_, observed_empty, rfl⟩) hs

/-! ### Whole runs -/

section Runs

variable [DecidableEq ι] [DecidableEq π]

theorem Sound.reach {guard : State ι π → Event ι → Prop} (hnew : ∀ p, (config p).readId = .new)
    (h : (consumers config process).Reach guard s) : Sound config s := by
  apply Machine.Reach.invariant _ _ h
  · rintro s ⟨stream, hstream, rfl⟩
    exact sound_start hstream
  · intro s e t _ hsound _ hstep
    exact hsound.move (move_of_step hnew hstep)

theorem State.Stuck.run (hnew : ∀ p, (config p).readId = .new) (es : List (Event ι))
    (h : (consumers config process).Reachable s) (hstuck : s.Stuck place)
    (hrun : (consumers config process).run s es = some t) : t.Stuck place := by
  induction es generalizing s with
  | nil =>
    cases hrun
    exact hstuck
  | cons e es ih =>
    rw [Machine.run_cons, Option.bind_eq_some_iff] at hrun
    obtain ⟨next, hstep, hrest⟩ := hrun
    apply ih (h.step True.intro hstep) _ hrest
    exact hstuck.move (Sound.reach hnew h) (move_of_step hnew hstep)

/-- Of the entries that a read takes, only the first can be returned: the others are stuck from then
on, and so is the first where the reply is lost. -/
theorem batch_stuck (hnew : ∀ p, (config p).readId = .new)
    (h : (consumers config process).Reachable s) {g : ConsumerGroup Text}
    (hg : s.stream.group = some g) {i : ι} {arrives : Bool} {es : List (Event ι)}
    (hrun : (consumers config process).run s (.read i arrives :: es) = some t)
    (hafter : g.last < place ∨ arrives = false ∧ g.last = place)
    (hcount : place < g.last + (config (process i)).count.toNat)
    (hlog : place < s.stream.log.length) : t.Stuck place := by
  have hsound := Sound.reach hnew h
  rw [Machine.run_cons, Option.bind_eq_some_iff] at hrun
  obtain ⟨u, hstep, hrest⟩ := hrun
  apply State.Stuck.run hnew es (h.step True.intro hstep) _ hrest
  have hle : g.last ≤ place := by omega
  have hpositive : ¬(config (process i)).count < 1 := by omega
  have hu : u = s.read config process i arrives := by
    change s.step config process (.read i arrives) = some u at hstep
    rw [State.step] at hstep
    split at hstep
    · exact (Option.some.inj hstep).symm
    · cases hstep
  obtain ⟨hstream, hreturned, -⟩ := read_delivers (s := s) hnew hg hpositive arrives
  rw [← hu] at hstream hreturned
  constructor
  · refine ⟨_, by rw [hstream], ConsumerGroup.isPending_deliver.mpr (.inr ⟨hle, ?_⟩)⟩
    rw [batch, ConsumerGroup.length_fresh]
    omega
  · rw [places_of_returned hreturned, List.mem_append, not_or]
    constructor
    · intro hplace
      have := hsound.place_lt hg hplace
      omega
    · intro hplace
      obtain ⟨m, hm, rfl⟩ := List.mem_map.mp hplace
      have hfound := Option.mem_toList.mp hm
      split at hfound
      · next harrives =>
        have hfirst := (of_result (message?_eq_some hfound)).1
        rcases hafter with hlt | ⟨hlost, -⟩
        · omega
        · cases harrives.symm.trans hlost
      · cases hfound

theorem batch_stuck_example :
    ∃ s t, (consumers (readers 2) fun _ : Bool ↦ ()).run s [.read false true, .acknowledge false] =
      some t ∧ t.Stuck 1 := by
  obtain ⟨s, g, hfrom, hs, -, hg, -, hlast⟩ := @exists_run 2 twoAdded [] (0, 0) (by decide +kernel)
  have hrest : ((consumers (readers 2) fun _ : Bool ↦ ()).run (.start ⟨none, none⟩) twoAdded).map
      (fun s ↦ (s.stream.log.length, ((consumers (readers 2) fun _ : Bool ↦ ()).run s
        [.read false true, .acknowledge false]).isSome)) = some (2, true) := by
    decide +kernel
  rw [hfrom] at hrest
  obtain ⟨hlength, hsome⟩ := Prod.mk.inj (Option.some.inj hrest)
  obtain ⟨t, ht⟩ := Option.isSome_iff_exists.mp hsome
  refine ⟨s, t, ht, ?_⟩
  apply batch_stuck (fun _ ↦ rfl) hs hg ht
  · left
    rw [hlast]
    exact Nat.zero_lt_one
  · rw [hlast]
    decide
  · rw [hlength]
    exact Nat.lt_succ_self 1

end Runs

end ScrapyCffi.Repo
