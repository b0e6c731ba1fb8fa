import ScrapyCffi.Dupefilter.Redis

/-!
# What a failed put leaves behind

`RedisScheduler.put` (`scrapy_cffi/core/scheduler/redis.py:173–204`), `RabbitMqScheduler.put`
(`scheduler/rabbitmq.py:63–93`) and `KafkaScheduler.put` (`scheduler/kafka.py:77–101`), which
differ in the push and in the text of its failure. `request_seen` of the Redis filter records
the fingerprint before the request is serialised and pushed, and no failure in between takes it
back.
-/

namespace ScrapyCffi.Scheduler.Put

open ScrapyCffi.Base ScrapyCffi.Dupefilter

universe u

/-- The transports of the work queue. -/
inductive Transport
  | redis
  | rabbitmq
  | kafka
  deriving DecidableEq, Repr

/-- The transport as the drop reason names it. -/
def Transport.text : Transport → String
  | .redis => "redis"
  | .rabbitmq => "rabbitmq"
  | .kafka => "kafka"

/-- What `put` reads of a request. -/
structure Request (β : Type u) where
  filtered : Dupefilter.Request β
  isStartUrl : Bool
  url : String
  sessionId : String
  deriving DecidableEq, Repr

/-- What the broker says to a push. -/
inductive Push
  | accepted
  | refused
  | raises
  deriving DecidableEq, Repr

/-- Whether `_request_to_bytes` returns, and the answer to the push. -/
structure Answers where
  snapshot : Bool
  push : Push
  deriving DecidableEq, Repr

/-- `put` returns `True`, drops the request and returns `False`, or raises. -/
inductive PutResult
  | scheduled
  | dropped (reason : String)
  | raised
  deriving DecidableEq, Repr

/-- The sets of the duplicate filter, the broker's queue and the released sessions. -/
structure State (β δ : Type u) where
  sets : RedisSets δ
  queue : List (Request β)
  released : List String

variable {β δ : Type u} [DecidableEq δ]

/-- Drop a request and release its session. -/
def State.drop (s : State β δ) (request : Request β) (reason : String) : PutResult × State β δ :=
  (.dropped reason, { s with released := request.sessionId :: s.released })

/-- The part of `put` after the duplicate check. -/
def State.push (transport : Transport) (s : State β δ) (request : Request β) (answers : Answers) :
    PutResult × State β δ :=
  if answers.snapshot then
    match answers.push with
    | .accepted => (.scheduled, { s with queue := s.queue ++ [request] })
    | .refused => s.drop request ("insert " ++ transport.text ++ " error: " ++ request.url)
    | .raises => (.raised, s)
  else (.raised, s)

/-- `put`. -/
def State.put (getNode : List String → δ → String) (router : DedupKeyRouter) (digest : β → δ)
    (transport : Transport) (s : State β δ) (request : Request β) (answers : Answers) :
    PutResult × State β δ :=
  if request.filtered.dontFilter || request.isStartUrl then s.push transport request answers
  else
    let (isSeen, sets) := redis getNode router digest s.sets (.requestSeen request.filtered)
    let s := { s with sets }
    if isSeen = some true then s.drop request ("filter: " ++ request.url)
    else s.push transport request answers

/-- A later call of any scheduler of the same queue: a put, or the mark of a sent request. -/
inductive Call (β : Type u)
  | put (transport : Transport) (request : Request β) (answers : Answers)
  | putIsReq (request : Request β)

/-- The state after a call. -/
def State.call (getNode : List String → δ → String) (router : DedupKeyRouter) (digest : β → δ)
    (s : State β δ) : Call β → State β δ
  | .put transport request answers => (s.put getNode router digest transport request answers).2
  | .putIsReq request =>
    { s with sets := (redis getNode router digest s.sets (.markSent request.filtered)).2 }

/-- The state after several calls. -/
def State.calls (getNode : List String → δ → String) (router : DedupKeyRouter) (digest : β → δ)
    (s : State β δ) (later : List (Call β)) : State β δ :=
  later.foldl (State.call getNode router digest) s

/-- A put that is subject to the duplicate filter. -/
def Request.Subject (request : Request β) : Prop :=
  request.filtered.dontFilter = false ∧ request.isStartUrl = false

/-- A failure after the duplicate check. -/
def Answers.Fails (answers : Answers) : Prop :=
  answers.snapshot = false ∨ answers.push ≠ .accepted

variable {getNode : List String → δ → String} {router : DedupKeyRouter} {digest : β → δ}
  {transport : Transport} {s : State β δ} {request again : Request β} {answers : Answers}

/-- The fingerprint of the data is in the set of seen requests. -/
def State.Recorded (getNode : List String → δ → String) (router : DedupKeyRouter) (digest : β → δ)
    (s : State β δ) (data : β) : Prop :=
  digest data ∈ s.sets (router.forFingerprint getNode (digest data)).newSeen

omit [DecidableEq δ] in
/-- A push leaves the filter alone. -/
@[simp] theorem sets_push : (s.push transport request answers).2.sets = s.sets := by
  unfold State.push
  split
  · split <;> rfl
  · rfl

omit [DecidableEq δ] in
/-- A push that fails schedules nothing. -/
theorem push_of_fails (h : answers.Fails) : (s.push transport request answers).1 ≠ .scheduled ∧
    (s.push transport request answers).2.queue = s.queue := by
  unfold State.push
  split
  · next hs =>
    split
    · next ha => exact absurd ha (h.resolve_left (by simp [hs]))
    · exact ⟨nofun, rfl⟩
    · exact ⟨nofun, rfl⟩
  · exact ⟨nofun, rfl⟩

/-- A put of a filtered request leaves the sets of its check. -/
theorem sets_put (h : request.Subject) : (s.put getNode router digest transport request answers).2.sets =
    (doFilter s.sets (digest request.filtered.bytes)
      (router.forFingerprint getNode (digest request.filtered.bytes))).2 := by
  obtain ⟨hf, hs⟩ := h
  simp only [State.put, hf, hs, redis, Bool.or_self, Bool.false_eq_true, if_false]
  split
  · rfl
  · exact sets_push

/-- Every call keeps what is recorded. -/
theorem recorded_call {data : β} (h : s.Recorded getNode router digest data) (call : Call β) :
    (s.call getNode router digest call).Recorded getNode router digest data := by
  have hkeys := router.newSeen_ne_sentSeen getNode
  cases call with
  | put transport request answers =>
    by_cases hsubject : request.Subject
    · rw [State.call, State.Recorded, sets_put hsubject, mem_doFilter (hkeys _ _)]
      exact .inr h
    · have hskip : (request.filtered.dontFilter || request.isStartUrl) = true := by
        rw [Request.Subject] at hsubject
        cases hf : request.filtered.dontFilter <;> cases hs : request.isStartUrl <;> simp_all
      rw [State.call, State.Recorded, State.put, if_pos hskip, sets_push]
      exact h
  | putIsReq request =>
    simp only [State.call, State.Recorded, redis]
    split
    · exact h
    · exact mem_sadd.mpr (.inr h)

/-- So do several calls. -/
theorem recorded_calls {data : β} (h : s.Recorded getNode router digest data)
    (later : List (Call β)) :
    (s.calls getNode router digest later).Recorded getNode router digest data := by
  induction later generalizing s with
  | nil => exact h
  | cons call later ih => exact ih (recorded_call h call)

/-- A put of a recorded request is dropped as a duplicate. -/
theorem put_of_recorded (h : again.Subject)
    (hr : s.Recorded getNode router digest again.filtered.bytes) :
    (s.put getNode router digest transport again answers).1 =
      .dropped ("filter: " ++ again.url) := by
  have hkeys := router.newSeen_ne_sentSeen getNode (digest again.filtered.bytes)
    (digest again.filtered.bytes)
  have hseen : (doFilter s.sets (digest again.filtered.bytes)
      (router.forFingerprint getNode (digest again.filtered.bytes))).1 = false := by
    by_contra hnew
    exact ((doFilter_fst hkeys).mp (by simpa using hnew)).1 hr
  obtain ⟨hf, hs⟩ := h
  simp [State.put, hf, hs, redis, hseen, State.drop]

/-- A put of a new request that fails after the duplicate check schedules nothing, and no later
put of an equal request is accepted, whatever is put and marked in between. -/
theorem failed_put_consumes_fingerprint (hsubject : request.Subject)
    (hnew : (redis getNode router digest s.sets (.requestSeen request.filtered)).1 = some false)
    (hfails : answers.Fails) :
    (s.put getNode router digest transport request answers).1 ≠ .scheduled ∧
    (s.put getNode router digest transport request answers).2.queue = s.queue ∧
    ∀ (later : List (Call β)) (other : Transport) (again : Request β) (others : Answers),
      again.Subject → again.filtered.bytes = request.filtered.bytes →
      (((s.put getNode router digest transport request answers).2.calls getNode router digest
        later).put getNode router digest other again others).1 ≠ .scheduled := by
  have hput : s.put getNode router digest transport request answers =
      State.push transport
        { s with sets := (redis getNode router digest s.sets (.requestSeen request.filtered)).2 }
        request answers := by
    simp [State.put, hsubject.1, hsubject.2, hnew]
  have hrecorded : (s.put getNode router digest transport request answers).2.Recorded getNode
      router digest request.filtered.bytes := by
    rw [State.Recorded, sets_put hsubject, mem_doFilter (router.newSeen_ne_sentSeen getNode _ _)]
    exact .inl ⟨rfl, rfl⟩
  refine ⟨?_, ?_, fun later other again others ha hb ↦ ?_⟩
  · rw [hput]
    exact (push_of_fails hfails).1
  · rw [hput]
    exact (push_of_fails hfails).2
  · rw [put_of_recorded ha (hb ▸ recorded_calls hrecorded later)]
    exact nofun

/-- A filter with one key for each set. -/
def singleNode : DedupKeyRouter := ⟨"cffiFilter", "demo", "", false, []⟩

/-- A link found on a page. -/
def link : Request Nat := ⟨⟨7, false⟩, false, "https://example.com/a", "1"⟩

/-- The scheduler before anything is put. -/
def State.start : State Nat Nat := ⟨fun _ ↦ ∅, [], []⟩

/-- A link whose push was refused is not accepted after a mark either. -/
theorem failed_put_consumes_fingerprint_link :
    (((State.start.put (fun _ _ ↦ "") singleNode id .redis link ⟨true, .refused⟩).2.calls
      (fun _ _ ↦ "") singleNode id [.putIsReq link]).put (fun _ _ ↦ "") singleNode id .kafka link
        ⟨true, .accepted⟩).1 ≠ .scheduled :=
  (failed_put_consumes_fingerprint ⟨rfl, rfl⟩ (by decide) (.inr (by decide))).2.2
    [.putIsReq link] .kafka link ⟨true, .accepted⟩ ⟨rfl, rfl⟩ rfl

/-- After a refused push the next put of the same link is dropped as a duplicate. -/
theorem refused_link_dropped :
    (State.start.put (fun _ _ ↦ "") singleNode id .redis link ⟨true, .refused⟩).1 =
        .dropped "insert redis error: https://example.com/a" ∧
      ((State.start.put (fun _ _ ↦ "") singleNode id .redis link ⟨true, .refused⟩).2.put
        (fun _ _ ↦ "") singleNode id .redis link ⟨true, .accepted⟩).1 ≠ .scheduled := by
  decide

end ScrapyCffi.Scheduler.Put
