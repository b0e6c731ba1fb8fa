import ScrapyCffi.Base.Machine
import ScrapyCffi.Base.Permits

/-!
# The permits of live streams

`Downloader._fetch_stream` (`core/downloader/fetch.py:153–193`), the chains that its response goes
through (`interceptors/chains.py:163–264`), `StreamResponse.aclose`
(`core/downloader/internet/response.py:107–194`) and the task of the spider's output
(`core/engine.py:244–387`). A fetch is followed from the acquisition of its permit, through each
await, to the end of the task that has its stream last. The response of another kind that takes the
place of a stream, and the handling of exceptions, have no stream any more.
-/

namespace ScrapyCffi.Downloader.Streams

open ScrapyCffi.Base

/-- Where a fetch awaits. -/
inductive Point
  /-- In `_stream_semaphore.acquire()`. -/
  | acquiring
  /-- In `wrapper.open_stream`. -/
  | opening
  /-- In a `response_intercept`. -/
  | intercepting
  /-- In a `process_spider_input`. -/
  | inspecting
  /-- In `scheduler.put_is_req`. -/
  | registering
  /-- In `taskManager.create`. -/
  | creating
  /-- The output task is created and has not entered `get_spider_output`. -/
  | queued
  /-- In the `try` block of `get_spider_output`. -/
  | output
  /-- In a call that goes on without the stream. -/
  | elsewhere
  /-- In `stream.close()`. -/
  | closing (next : Point)
  | ended
  deriving DecidableEq, Repr

/-- What a response interceptor does: `kept` is `None` or the stream itself. -/
inductive Interception
  | kept
  | response
  | request
  | exception
  | raised
  deriving DecidableEq, Repr

/-- What a spider-input interceptor does. -/
inductive Inspection
  | passed
  | exception
  | raised
  deriving DecidableEq, Repr

/-- A fetch with its stream; `closed` is `_closed`, `streamOpen` tells that the stream has been
opened and its `close` is not over, and the rest counts the calls. -/
structure Fetch where
  point : Point
  closed : Bool
  streamOpen : Bool
  acquired : Nat
  released : Nat
  opened : Nat
  closes : Nat
  deriving DecidableEq, Repr

/-- What happens to a fetch. -/
inductive FetchEvent
  | acquired
  | opened
  | intercepted (result : Interception)
  /-- No response interceptor is left. -/
  | intercepts
  | inspected (result : Inspection)
  /-- No spider-input interceptor is left. -/
  | inspects
  /-- `put_is_req` returns, and the spider's callback is called. -/
  | registered (raises : Bool)
  | created
  /-- The output task enters `get_spider_output`. -/
  | started
  /-- Its `try` block ends. -/
  | outputEnds
  /-- An interceptor or the callback calls `aclose` itself. -/
  | userCloses
  /-- `stream.close()` returns or raises. -/
  | closed
  /-- The call without the stream ends. -/
  | returned
  /-- An exception or a cancellation is raised at the await. -/
  | fails
  deriving DecidableEq, Repr

namespace Fetch

/-- `fetch_http` of a request with `stream`. -/
def start : Fetch := ⟨.acquiring, false, false, 0, 0, 0, 0⟩

/-- `aclose` up to its await. -/
def aclose (f : Fetch) (next : Point) : Fetch :=
  if f.closed then { f with point := next }
  else { f with point := .closing next, closed := true, closes := f.closes + 1 }

/-- `_stream_semaphore.release()`, where there is a semaphore. -/
def release (limited : Bool) (f : Fetch) : Fetch :=
  { f with released := if limited then f.released + 1 else f.released }

/-- The `finally` of `aclose`. -/
def afterClose (limited : Bool) (f : Fetch) (next : Point) : Fetch :=
  { f.release limited with point := next, streamOpen := false }

/-- An exception or a cancellation at the await. -/
def fail (limited : Bool) (f : Fetch) : Fetch :=
  match f.point with
  | .acquiring => { f with point := .ended }
  | .opening => { f.release limited with point := .ended }
  | .intercepting | .inspecting | .registering | .creating | .elsewhere => f.aclose .ended
  | .queued => { f with point := .ended }
  | .output => f.aclose .ended
  | .closing _ => f.afterClose limited .ended
  | .ended => f

/-- `response_intercept_chain` with the result of an interceptor. -/
def intercept (f : Fetch) : Interception → Fetch
  | .kept => f
  | .response | .request | .exception => f.aclose .elsewhere
  | .raised => f.aclose .ended

/-- `process_spider_input_chain` with the result of an interceptor. -/
def inspect (f : Fetch) : Inspection → Fetch
  | .passed => f
  | .exception => f.aclose .elsewhere
  | .raised => f.aclose .ended

/-- One event of a fetch. -/
def step (limited stopEvent : Bool) (f : Fetch) (e : FetchEvent) : Option Fetch :=
  match f.point, e with
  | .acquiring, .acquired => some { f with
      point := .opening
      acquired := if limited then f.acquired + 1 else f.acquired }
  | .opening, .opened => some { f with
      point := .intercepting
      streamOpen := true
      opened := f.opened + 1 }
  | .intercepting, .intercepted result => some (f.intercept result)
  | .intercepting, .intercepts => some { f with point := .inspecting }
  | .inspecting, .inspected result => some (f.inspect result)
  | .inspecting, .inspects => some { f with point := .registering }
  | .registering, .registered raises =>
    some (if raises then f.aclose .ended
      else if stopEvent then { f with point := .ended }
      else { f with point := .creating })
  | .creating, .created => some { f with point := .queued }
  | .queued, .started => some { f with point := .output }
  | .output, .outputEnds => some (f.aclose .ended)
  | .intercepting, .userCloses => some (f.aclose .intercepting)
  | .inspecting, .userCloses => some (f.aclose .inspecting)
  | .output, .userCloses => some (f.aclose .output)
  | .closing next, .closed => some (f.afterClose limited next)
  | .elsewhere, .returned => some { f with point := .ended }
  | .ended, .fails => none
  | _, .fails => some (f.fail limited)
  | _, _ => none

/-- A pending open, or an open stream. -/
def occupies (f : Fetch) : Bool := decide (f.point = .opening) || f.streamOpen

end Fetch

/-- The downloader with all its stream fetches; `free` is the value of `_stream_semaphore`, which is
absent without `MAX_CONCURRENT_REQ`. -/
structure State where
  maxConcurrentReq : Option Nat
  free : Nat
  stopEvent : Bool
  fetches : List Fetch
  deriving DecidableEq, Repr

/-- What happens to the downloader. -/
inductive Event
  | start
  | stop
  | fetch (i : Nat) (event : FetchEvent)
  deriving DecidableEq, Repr

namespace State

/-- A downloader without fetches. -/
def init (maxConcurrentReq : Option Nat) : State :=
  ⟨maxConcurrentReq, maxConcurrentReq.getD 0, false, []⟩

/-- A fetch goes on; the semaphore counts its acquisitions and releases. -/
def update (s : State) (i : Nat) (old new : Fetch) : State :=
  { s with
    free := s.free + (new.released - old.released) - (new.acquired - old.acquired)
    fetches := s.fetches.set i new }

/-- One event. -/
def step (s : State) : Event → Option State
  | .start => some { s with fetches := s.fetches ++ [.start] }
  | .stop => some { s with stopEvent := true }
  | .fetch i e => s.fetches[i]?.bind fun f ↦
    if e = .acquired ∧ s.maxConcurrentReq.isSome ∧ s.free = 0 then none
    else (f.step s.maxConcurrentReq.isSome s.stopEvent e).map (s.update i f)

end State

/-- The runs of a downloader with any limit. -/
def machine : Machine State Event where
  init s := ∃ maxConcurrentReq, s = .init maxConcurrentReq
  step := State.step

/-- The free permits, the open streams and the pending opens are as many as the limit, nothing is
released or closed more often than acquired or opened, and a fetch that has ended has released its
permit and closed its stream. -/
structure State.Balanced (s : State) : Prop where
  conserved : ∀ limit, s.maxConcurrentReq = some limit →
    Conserved Fetch.occupies limit s.free s.fetches
  once : ∀ f ∈ s.fetches, f.released ≤ f.acquired ∧ f.acquired ≤ 1 ∧ f.closes ≤ f.opened ∧
    f.opened ≤ 1
  settled : ∀ f ∈ s.fetches, f.point = .ended → f.released = f.acquired ∧ f.closes = f.opened

/-- Whether an open stream is dropped: there is no output task because the stop event is set, or
the task is cancelled before it starts. -/
def State.drops (s : State) : Event → Bool
  | .fetch i (.registered false) => s.fetches[i]?.any fun f ↦ s.stopEvent && !f.closed
  | .fetch i .fails => s.fetches[i]?.any fun f ↦ decide (f.point = .queued) && !f.closed
  | _ => false

/-- Every open stream is handed to an output task, which starts. -/
def HandsOver (s : State) (e : Event) : Prop := s.drops e = false

instance (s : State) (e : Event) : Decidable (HandsOver s e) :=
  inferInstanceAs (Decidable (s.drops e = false))

/-! ## One fetch -/

/-- The points at which a stream is in somebody's hands. -/
def Point.holdsStream : Point → Bool
  | .intercepting | .inspecting | .registering | .creating | .queued | .output => true
  | _ => false

/-- The calls that a fetch has made at each point; `permit` is 0 without a semaphore. -/
inductive Fetch.Valid (permit : Nat) : Fetch → Prop
  | acquiring : Valid permit ⟨.acquiring, false, false, 0, 0, 0, 0⟩
  | opening : Valid permit ⟨.opening, false, false, permit, 0, 0, 0⟩
  | unopened (count : Nat) : count = 0 ∨ count = permit →
    Valid permit ⟨.ended, false, false, count, count, 0, 0⟩
  | live (point : Point) : point.holdsStream = true →
    Valid permit ⟨point, false, true, permit, 0, 1, 0⟩
  | closing (next : Point) : next.holdsStream = true ∨ next = .elsewhere ∨ next = .ended →
    Valid permit ⟨.closing next, true, true, permit, 0, 1, 1⟩
  | closed (point : Point) : point.holdsStream = true ∨ point = .elsewhere ∨ point = .ended →
    Valid permit ⟨point, true, false, permit, permit, 1, 1⟩

namespace Fetch

variable {f g : Fetch} {limited stopEvent : Bool}

/-- The permits that a fetch takes. -/
def permits (limited : Bool) : Nat := if limited then 1 else 0

theorem Valid.once (h : f.Valid (permits limited)) :
    f.released ≤ f.acquired ∧ f.acquired ≤ 1 ∧ f.closes ≤ f.opened ∧ f.opened ≤ 1 := by
  cases h with
  | unopened count hcount => rcases hcount with rfl | rfl <;> cases limited <;> simp [permits]
  | _ => cases limited <;> simp [permits]

theorem Valid.settled (h : f.Valid (permits limited)) (hended : f.point = .ended) :
    f.released = f.acquired ∧ f.closes = f.opened := by
  cases h with
  | live point hpoint =>
    cases hended
    cases hpoint
  | closed point => exact ⟨rfl, rfl⟩
  | unopened count => exact ⟨rfl, rfl⟩
  | _ => cases hended

/-- With a limit, a fetch holds a permit for its pending open and its open stream. -/
theorem Valid.occupies (h : f.Valid (permits true)) :
    f.acquired = f.released + if f.occupies then 1 else 0 := by
  cases h with
  | unopened count => rfl
  | live point hpoint => simp [Fetch.occupies, permits]
  | closed point hpoint =>
    have hne : point ≠ .opening := by
      rintro rfl
      rcases hpoint with hpoint | hpoint | hpoint <;> cases hpoint
    simp [Fetch.occupies, hne]
  | _ => rfl

/-- The calls that a fetch has made while its stream is in somebody's hands: it is open, or user
code has closed it. -/
inductive Held (permit : Nat) : Fetch → Prop
  | live (point : Point) : Held permit ⟨point, false, true, permit, 0, 1, 0⟩
  | closed (point : Point) : Held permit ⟨point, true, false, permit, permit, 1, 1⟩

theorem Held.move {permit : Nat} (h : f.Held permit) {point : Point}
    (hpoint : point.holdsStream = true) : Valid permit { f with point } := by
  cases h with
  | live => exact .live point hpoint
  | closed => exact .closed point (.inl hpoint)

/-- A stream that is given up is closed once. -/
theorem Held.aclose {permit : Nat} (h : f.Held permit) {next : Point}
    (hnext : next.holdsStream = true ∨ next = .elsewhere ∨ next = .ended) :
    (f.aclose next).Valid permit := by
  cases h with
  | live => exact .closing next hnext
  | closed => exact .closed next hnext

/-- A stream that is dropped was closed. -/
theorem Held.drop {permit : Nat} (h : f.Held permit) (hclosed : f.closed ≠ false) :
    Valid permit { f with point := .ended } := by
  cases h with
  | live => exact absurd rfl hclosed
  | closed => exact .closed _ (.inr (.inr rfl))

/-- A step while the stream is in somebody's hands. -/
theorem Held.step {permit : Nat} (h : f.Held permit) (hpoint : f.point.holdsStream = true)
    {e : FetchEvent} (hstop : e = .registered false → f.closed = false → stopEvent = false)
    (hstart : e = .fails → f.closed = false → f.point ≠ .queued)
    (hstep : f.step limited stopEvent e = some g) : g.Valid permit := by
  obtain ⟨point, closed, streamOpen, acquired, released, opened, closes⟩ := f
  cases point with
  | intercepting =>
    cases e <;> cases hstep
    case intercepted.refl result =>
      cases result with
      | kept => exact h.move rfl
      | raised => exact h.aclose (.inr (.inr rfl))
      | _ => exact h.aclose (.inr (.inl rfl))
    case intercepts.refl => exact h.move rfl
    case userCloses.refl => exact h.aclose (.inl rfl)
    case fails.refl => exact h.aclose (.inr (.inr rfl))
  | inspecting =>
    cases e <;> cases hstep
    case inspected.refl result =>
      cases result with
      | passed => exact h.move rfl
      | exception => exact h.aclose (.inr (.inl rfl))
      | raised => exact h.aclose (.inr (.inr rfl))
    case inspects.refl => exact h.move rfl
    case userCloses.refl => exact h.aclose (.inl rfl)
    case fails.refl => exact h.aclose (.inr (.inr rfl))
  | registering =>
    cases e <;> cases hstep
    case registered.refl raises =>
      cases raises with
      | true => exact h.aclose (.inr (.inr rfl))
      | false =>
        cases stopEvent with
        | true => exact h.drop fun hopen ↦ absurd (hstop rfl hopen) (by decide)
        | false => exact h.move rfl
    case fails.refl => exact h.aclose (.inr (.inr rfl))
  | creating =>
    cases e <;> cases hstep
    case created.refl => exact h.move rfl
    case fails.refl => exact h.aclose (.inr (.inr rfl))
  | queued =>
    cases e <;> cases hstep
    case started.refl => exact h.move rfl
    case fails.refl => exact h.drop fun hopen ↦ hstart rfl hopen rfl
  | output =>
    cases e <;> cases hstep
    case outputEnds.refl => exact h.aclose (.inr (.inr rfl))
    case userCloses.refl => exact h.aclose (.inl rfl)
    case fails.refl => exact h.aclose (.inr (.inr rfl))
  | _ => cases hpoint

theorem valid_afterClose {point next : Point}
    (hnext : next.holdsStream = true ∨ next = .elsewhere ∨ next = .ended) :
    (afterClose limited ⟨point, true, true, permits limited, 0, 1, 1⟩ next).Valid
      (permits limited) := by
  cases limited <;> exact .closed next hnext

/-- A step of a fetch keeps its account, unless it drops an open stream. -/
theorem Valid.step (h : f.Valid (permits limited)) {e : FetchEvent}
    (hstop : e = .registered false → f.closed = false → stopEvent = false)
    (hstart : e = .fails → f.closed = false → f.point ≠ .queued)
    (hstep : f.step limited stopEvent e = some g) : g.Valid (permits limited) := by
  cases h with
  | acquiring =>
    cases e <;> cases hstep
    case acquired.refl => cases limited <;> exact .opening
    case fails.refl => exact .unopened 0 (.inl rfl)
  | opening =>
    cases e <;> cases hstep
    case opened.refl => exact .live _ rfl
    case fails.refl => cases limited <;> exact .unopened _ (.inr rfl)
  | unopened count hcount => cases e <;> cases hstep
  | live point hpoint => exact (Held.live point).step hpoint hstop hstart hstep
  | closing next hnext =>
    cases e <;> cases hstep
    case closed.refl => exact valid_afterClose hnext
    case fails.refl => exact valid_afterClose (.inr (.inr rfl))
  | closed point hpoint =>
    rcases hpoint with hpoint | rfl | rfl
    · exact (Held.closed point).step hpoint hstop hstart hstep
    · cases e <;> cases hstep
      case returned.refl => exact .closed _ (.inr (.inr rfl))
      case fails.refl => exact .closed _ (.inr (.inr rfl))
    · cases e <;> cases hstep

@[simp] theorem acquired_aclose (f : Fetch) (next : Point) :
    (f.aclose next).acquired = f.acquired := by
  unfold aclose
  split <;> rfl

@[simp] theorem released_aclose (f : Fetch) (next : Point) :
    (f.aclose next).released = f.released := by
  unfold aclose
  split <;> rfl

theorem acquired_fail (f : Fetch) : (f.fail limited).acquired = f.acquired := by
  unfold fail
  split <;> simp [afterClose, release]

theorem released_fail (f : Fetch) : f.released ≤ (f.fail limited).released := by
  unfold fail
  split <;> simp [afterClose, release] <;> split <;> omega

/-- Calls are counted upwards, and a permit is taken only when the fetch waits for one. -/
theorem step_mono {e : FetchEvent} (hstep : f.step limited stopEvent e = some g) :
    f.released ≤ g.released ∧ f.acquired ≤ g.acquired ∧
      g.acquired ≤ f.acquired + if e = .acquired ∧ limited = true then 1 else 0 := by
  obtain ⟨point, closed, streamOpen, acquired, released, opened, closes⟩ := f
  cases point <;> cases e <;> cases hstep
  case acquiring.acquired.refl => cases limited <;> simp
  case intercepting.intercepted.refl result => cases result <;> simp [intercept]
  case inspecting.inspected.refl result => cases result <;> simp [inspect]
  case registering.registered.refl raises =>
    cases raises <;> cases stopEvent <;> simp
  case closing.closed.refl next => cases limited <;> simp [afterClose, release]
  all_goals first
    | exact ⟨released_fail _, Nat.le_of_eq (acquired_fail _).symm, by simp [acquired_fail]⟩
    | simp

end Fetch

/-! ## All fetches -/

namespace State

variable {s t : State}

/-- The account of every fetch, and the permits. -/
structure Valid (s : State) : Prop where
  fetches : ∀ f ∈ s.fetches, f.Valid (Fetch.permits s.maxConcurrentReq.isSome)
  conserved : ∀ limit, s.maxConcurrentReq = some limit →
    Conserved Fetch.occupies limit s.free s.fetches

theorem Valid.balanced (h : s.Valid) : s.Balanced where
  conserved := h.conserved
  once f hf := (h.fetches f hf).once
  settled f hf := (h.fetches f hf).settled

/-- A fetch that goes on keeps the permits. -/
theorem Valid.update (h : s.Valid) {i : Nat} {f g : Fetch} (hi : s.fetches[i]? = some f)
    (hg : g.Valid (Fetch.permits s.maxConcurrentReq.isSome)) (hreleased : f.released ≤ g.released)
    (hacquired : f.acquired ≤ g.acquired)
    (hfree : g.acquired ≤ f.acquired + s.free ∨ s.maxConcurrentReq = none) :
    (s.update i f g).Valid := by
  constructor
  · intro other hother
    rcases List.mem_or_eq_of_mem_set hother with hold | rfl
    · exact h.fetches other hold
    · exact hg
  · intro limit hlimit
    have hlimit : s.maxConcurrentReq = some limit := hlimit
    have hold := h.fetches f (List.mem_of_getElem? hi)
    rw [hlimit] at hold hg hfree
    have hcount := Conserved.countP_set Fetch.occupies g hi
    have hconserved := h.conserved limit hlimit
    have hf := hold.occupies
    have hg := hg.occupies
    have hfree := hfree.resolve_right (by simp)
    show s.free + (g.released - f.released) - (g.acquired - f.acquired) +
      (s.fetches.set i g).countP Fetch.occupies = limit
    have hconserved : s.free + s.fetches.countP Fetch.occupies = limit := hconserved
    omega

/-- A step keeps the account, unless it drops an open stream. -/
theorem Valid.step (h : s.Valid) {e : Event} (hguard : HandsOver s e) (hstep : s.step e = some t) :
    t.Valid := by
  cases e with
  | start =>
    cases hstep
    refine ⟨fun f hf ↦ ?_, fun limit hlimit ↦ (h.conserved limit hlimit).join rfl⟩
    rcases List.mem_append.mp hf with hold | hnew
    · exact h.fetches f hold
    · rw [List.mem_singleton.mp hnew]
      exact .acquiring
  | stop =>
    cases hstep
    exact ⟨h.fetches, h.conserved⟩
  | fetch i e =>
    obtain ⟨f, hi, hact⟩ := Option.bind_eq_some_iff.mp hstep
    split at hact
    · cases hact
    · next hpermit =>
      obtain ⟨g, hg, rfl⟩ := Option.map_eq_some_iff.mp hact
      obtain ⟨hreleased, hacquired, htakes⟩ := Fetch.step_mono hg
      have hold := h.fetches f (List.mem_of_getElem? hi)
      refine h.update hi (hold.step ?_ ?_ hg) hreleased hacquired ?_
      · rintro rfl hopen
        simpa [HandsOver, drops, hi, hopen] using hguard
      · rintro rfl hopen
        simpa [HandsOver, drops, hi, hopen] using hguard
      · by_cases hlimited : s.maxConcurrentReq.isSome = true
        · left
          by_cases he : e = .acquired
          · have hfree : s.free ≠ 0 := fun hzero ↦ hpermit ⟨he, hlimited, hzero⟩
            rw [if_pos ⟨he, hlimited⟩] at htakes
            omega
          · rw [if_neg fun hand ↦ he hand.1] at htakes
            omega
        · right
          simpa using hlimited

end State

/-- In every run in which open streams are handed over, the permits are balanced. -/
theorem permits_balanced {s : State} (h : machine.Reach HandsOver s) : s.Balanced := by
  have hvalid : s.Valid := by
    refine h.invariant (I := State.Valid) (fun u hinit ↦ ?_)
      fun u e t _ ih hguard hstep ↦ ih.step hguard hstep
    obtain ⟨maxConcurrentReq, rfl⟩ := hinit
    refine ⟨fun f hf ↦ (by cases hf), fun limit hlimit ↦ ?_⟩
    have hlimit : maxConcurrentReq = some limit := hlimit
    rw [hlimit]
    rfl
  exact hvalid.balanced

/-- One stream is replaced by another response, and a second one is read by the spider. -/
def replacedAndRead : List Event :=
  [.start, .start, .fetch 0 .acquired, .fetch 0 .opened, .fetch 0 (.intercepted .response),
    .fetch 0 .closed, .fetch 0 .returned, .fetch 1 .acquired, .fetch 1 .opened,
    .fetch 1 (.intercepted .kept), .fetch 1 .intercepts, .fetch 1 .inspects,
    .fetch 1 (.registered false), .fetch 1 .created, .fetch 1 .started, .stop, .fetch 1 .fails,
    .fetch 1 .closed]

/-- Both have given their permit back. -/
theorem permits_balanced_replacedAndRead : ∃ s : State,
    machine.run (.init (some 1)) replacedAndRead = some s ∧ s.free = 1 ∧ s.Balanced := by
  have hreach : ∀ s, machine.runIf HandsOver (.init (some 1)) replacedAndRead = some s →
      machine.Reach HandsOver s := fun s hs ↦ .runIf replacedAndRead (.init ⟨some 1, rfl⟩) hs
  exact ⟨_, rfl, rfl, permits_balanced (hreach _ rfl)⟩

/-- The stop event is set while a stream is registered with the scheduler. -/
def stoppedBeforeOutput : List Event :=
  [.start, .fetch 0 .acquired, .fetch 0 .opened, .fetch 0 .intercepts, .fetch 0 .inspects, .stop,
    .fetch 0 (.registered false)]

/-- No task has the stream any more, and it is open. -/
theorem stopped_stream_leaks : ¬ ∀ s, machine.Reachable s → s.Balanced := by
  intro h
  have hrun : ∃ s : State, machine.run (.init (some 1)) stoppedBeforeOutput = some s ∧
      s.fetches = [⟨.ended, false, true, 1, 0, 1, 0⟩] := ⟨_, rfl, rfl⟩
  obtain ⟨s, hs, hfetches⟩ := hrun
  have hinit : machine.Reachable (.init (some 1)) := .init ⟨some 1, rfl⟩
  have hsettled := (h s (hinit.run stoppedBeforeOutput hs)).settled _
    (by rw [hfetches]; exact List.mem_cons_self) rfl
  exact absurd hsettled.1 (by decide)

end ScrapyCffi.Downloader.Streams
