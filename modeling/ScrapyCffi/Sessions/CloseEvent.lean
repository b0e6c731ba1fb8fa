import ScrapyCffi.Base.Machine
import Mathlib.Tactic.ByContra

/-!
# The closed event of a WebSocket connection

`WebSocketEntry.close` (`scrapy_cffi/core/sessions.py:166–215`) between its `await`s, with the
listener task that owns the connection (`core/downloader/fetch.py:206–297`) and the ping task. The
critical section of `_close_lock` awaits nothing. `_ping_loop` catches what `send` raises, so that
its task returns or is cancelled. A cancellation of the first closer goes to the task it awaits, or
is raised by `websocket.close()`.
-/

namespace ScrapyCffi.Sessions.CloseEvent

open ScrapyCffi.Base

/-- Who calls `close`: the listener in its `finally`, or another task. -/
inductive Closer
  | listener
  | other
  deriving DecidableEq

/-- Where the first closer is: it awaits the ping task, the listener task or `websocket.close()`,
or it has returned. -/
inductive Stage
  | ping
  | listener
  | socket
  | done
  deriving DecidableEq

/-- The listener task: there is none, it has not started, it runs, it is in the `close` of its
`finally` as the first closer, or it has ended. -/
inductive Listener
  | absent
  | created
  | running
  | closing
  | ended
  deriving DecidableEq

/-- The listener is no task that has not ended. -/
def Listener.gone : Listener → Bool
  | .absent | .ended => true
  | _ => false

/-- A task that `close` may await. -/
inductive Ping
  | absent
  | running
  | ended
  deriving DecidableEq

/-- `WebSocketEntry`: `websocket` is whether a socket is attached, and `captured` what the first
closer found there. `cancelled` is a cancellation that the listener has not seen yet. `attempts`,
history, counts the calls of `websocket.close()`. -/
structure State where
  closed : Bool
  closedEvent : Bool
  websocket : Bool
  ping : Ping
  listener : Listener
  cancelled : Bool
  closer : Option (Closer × Stage)
  captured : Bool
  attempts : Nat
  deriving DecidableEq

/-- A registered entry, with or without a listener task. -/
def State.initial (listener : Listener) : State where
  closed := false
  closedEvent := false
  websocket := false
  ping := .absent
  listener := listener
  cancelled := false
  closer := none
  captured := false
  attempts := 0

/-- The `finally` of the first closer. The listener ends with it. -/
def State.finish (s : State) (closer : Closer) : State :=
  { s with
    closedEvent := true
    closer := some (closer, .done)
    listener := if closer = Closer.listener then .ended else s.listener }

/-- The first closer up to the end of `websocket.close()`. -/
def State.closeSocket (s : State) (closer : Closer) : State :=
  if s.captured then
    { s with closer := some (closer, .socket), attempts := s.attempts + 1 }
  else s.finish closer

/-- The first closer up to the end of `await listener_task`. -/
def State.cancelListener (s : State) (closer : Closer) : State :=
  if closer = .other ∧ s.listener.gone = false then
    { s with closer := some (closer, .listener), cancelled := true }
  else s.closeSocket closer

/-- `close`, up to the first `await` that suspends it: the first call, or a later one, which
returns at once and runs the same `finally`. -/
def State.close (s : State) (closer : Closer) : State :=
  if s.closed then
    { s with
      closedEvent := true
      listener := if closer = Closer.listener then .ended else s.listener }
  else
    let s := { s with
      closed := true
      captured := s.websocket
      listener := if closer = Closer.listener then .closing else s.listener }
    if s.ping = .running then { s with closer := some (closer, .ping) }
    else s.cancelListener closer

/-- What happens next. -/
inductive Event
  /-- The listener runs for the first time, or ends without having run when it is cancelled. -/
  | start
  /-- The listener has connected; a ping task is started or not. -/
  | connect (pings : Bool)
  /-- The listener is cancelled by another task. -/
  | cancel
  /-- The listener goes on after a cancellation. -/
  | swallow
  /-- The listener reaches its `finally`. -/
  | leave
  /-- The ping task ends. -/
  | pingEnds
  /-- Another task calls `close`. -/
  | call
  /-- The first closer goes on behind `await ping_task`. -/
  | pingAwaited
  /-- The first closer goes on behind `await listener_task`. -/
  | listenerAwaited
  /-- `websocket.close()` returns or raises in the first closer. -/
  | socketClosed

/-- One event. -/
def State.step (s : State) : Event → Option State
  | .start =>
    if s.listener = .created then
      some { s with listener := if s.cancelled then .ended else .running }
    else none
  | .connect pings =>
    if s.listener = .running ∧ s.websocket = false then
      some { s with websocket := true, ping := if pings then .running else s.ping }
    else none
  | .cancel =>
    if s.listener = .created ∨ s.listener = .running then some { s with cancelled := true }
    else none
  | .swallow =>
    if s.listener = .running ∧ s.cancelled then some { s with cancelled := false } else none
  | .leave => if s.listener = .running then some (s.close .listener) else none
  | .pingEnds => if s.ping = .running then some { s with ping := .ended } else none
  | .call => some (s.close .other)
  | .pingAwaited =>
    match s.closer with
    | some (closer, .ping) => if s.ping = .running then none else some (s.cancelListener closer)
    | _ => none
  | .listenerAwaited =>
    match s.closer with
    | some (closer, .listener) => if s.listener.gone then some (s.closeSocket closer) else none
    | _ => none
  | .socketClosed =>
    match s.closer with
    | some (closer, .socket) => some (s.finish closer)
    | _ => none

/-- The entry with its tasks. -/
def machine : Machine State Event where
  init s := s = .initial .absent ∨ s = .initial .created
  step := State.step

/-- The first closer is suspended. -/
def State.working (s : State) : Bool :=
  match s.closer with
  | some (_, .done) => false
  | some _ => true
  | none => false

/-- `closed_event` means closed: the first closer has returned, the listener has ended or is that
closer, and the close of the socket was attempted once, if there is one. -/
structure ClosedMeansClosed (s : State) : Prop where
  returned : s.closedEvent = true → s.working = false
  listener : s.closedEvent = true → s.listener.gone = true ∨ s.closer = some (.listener, .done)
  socket : s.closedEvent = true → s.attempts = if s.websocket then 1 else 0

/-- No call of `close` begins while the first one is suspended. -/
def Alone (s : State) : Event → Prop
  | .call | .leave => s.working = false
  | _ => True

/-- What the first closer will find: it is the listener in its `finally`, or another task, and then
no socket is attached behind its back unless the listener still runs. -/
structure State.Holds (s : State) (closer : Closer) : Prop where
  listener : closer = .listener → s.listener = .closing ∧ s.captured = s.websocket
  other : closer = .other →
    s.listener ≠ .closing ∧ (s.listener = .running ∨ s.captured = s.websocket)

/-- How far the first call of `close` is. -/
inductive Progress (s : State) : Prop
  | notCalled : s.closer = none → s.closed = false → s.closedEvent = false → s.attempts = 0 →
      s.listener ≠ .closing → Progress s
  | waiting (closer : Closer) (stage : Stage) : s.closer = some (closer, stage) →
      stage = .ping ∨ stage = .listener ∧ closer = .other → s.closed = true →
      s.closedEvent = false → s.attempts = 0 → s.Holds closer → Progress s
  | closingSocket (closer : Closer) : s.closer = some (closer, .socket) → s.closed = true →
      s.closedEvent = false → s.attempts = 1 → s.websocket = true →
      (closer = .listener ∧ s.listener = .closing ∨ closer = .other ∧ s.listener.gone = true) →
      Progress s
  | returned (closer : Closer) : s.closer = some (closer, .done) → s.closed = true →
      s.closedEvent = true → (s.attempts = if s.websocket then 1 else 0) →
      s.listener.gone = true → Progress s

variable {s t : State}

/-- The closed event means closed all along. -/
theorem Progress.closedMeansClosed (h : Progress s) : ClosedMeansClosed s := by
  cases h with
  | notCalled _ _ hevent => constructor <;> simp [hevent]
  | waiting closer stage _ _ _ hevent => constructor <;> simp [hevent]
  | closingSocket closer _ _ hevent => constructor <;> simp [hevent]
  | returned closer hcloser _ _ hattempts hgone =>
    constructor
    · simp [State.working, hcloser]
    · exact fun _ ↦ .inl hgone
    · exact fun _ ↦ hattempts

/-- The first closer behind its wait for the listener. -/
theorem Progress.closeSocket {closer : Closer} (hclosed : s.closed = true)
    (hevent : s.closedEvent = false) (hattempts : s.attempts = 0)
    (hcaptured : s.captured = s.websocket)
    (hlistener : closer = .listener ∧ s.listener = .closing ∨
      closer = .other ∧ s.listener.gone = true) : Progress (s.closeSocket closer) := by
  rw [State.closeSocket]
  split
  · next hsocket =>
    refine .closingSocket closer rfl hclosed hevent ?_ (hcaptured.symm.trans hsocket) hlistener
    show s.attempts + 1 = 1
    rw [hattempts]
  · next hsocket =>
    have hnone : s.websocket = false := by
      rw [← hcaptured]
      exact eq_false_of_ne_true hsocket
    refine .returned closer rfl hclosed rfl (by simp [State.finish, hattempts, hnone]) ?_
    rcases hlistener with ⟨rfl, -⟩ | ⟨rfl, hgone⟩
    · rfl
    · exact hgone

/-- The first closer behind its wait for the ping task. -/
theorem Progress.cancelListener {closer : Closer} (hclosed : s.closed = true)
    (hevent : s.closedEvent = false) (hattempts : s.attempts = 0) (h : s.Holds closer) :
    Progress (s.cancelListener closer) := by
  rw [State.cancelListener]
  split
  · next hwait =>
    exact .waiting closer .listener rfl (.inr ⟨rfl, hwait.1⟩) hclosed hevent hattempts
      ⟨h.listener, h.other⟩
  · next hgoes =>
    cases closer with
    | listener =>
      obtain ⟨hclosing, hcaptured⟩ := h.listener rfl
      exact closeSocket hclosed hevent hattempts hcaptured (.inl ⟨rfl, hclosing⟩)
    | other =>
      have hgone : s.listener.gone = true := by simpa using hgoes
      have hcaptured : s.captured = s.websocket := by
        rcases (h.other rfl).2 with hrunning | hcaptured
        · rw [hrunning] at hgone
          cases hgone
        · exact hcaptured
      exact closeSocket hclosed hevent hattempts hcaptured (.inr ⟨rfl, hgone⟩)

/-- A call of `close` that finds no closer suspended. -/
theorem Progress.close (h : Progress s) (hidle : s.working = false) (closer : Closer)
    (hlistener : closer = .listener → s.listener = .running) : Progress (s.close closer) := by
  cases h with
  | notCalled hcloser hclosed hevent hattempts hnot =>
    rw [State.close, if_neg (by simp [hclosed])]
    have hholds : State.Holds { s with
        closed := true
        captured := s.websocket
        listener := if closer = Closer.listener then .closing else s.listener } closer := by
      constructor
      · intro hc
        exact ⟨if_pos hc, rfl⟩
      · rintro rfl
        exact ⟨hnot, .inr rfl⟩
    dsimp only
    split
    · exact .waiting closer .ping rfl (.inl rfl) rfl hevent hattempts ⟨hholds.1, hholds.2⟩
    · exact cancelListener rfl hevent hattempts hholds
  | waiting first stage hfirst hstage =>
    rcases hstage with rfl | ⟨rfl, -⟩ <;> simp [State.working, hfirst] at hidle
  | closingSocket first hfirst => simp [State.working, hfirst] at hidle
  | returned first hfirst hclosed hevent hattempts hgone =>
    rw [State.close, if_pos hclosed]
    refine .returned first hfirst hclosed rfl hattempts ?_
    show (if closer = Closer.listener then Listener.ended else s.listener).gone = true
    split
    · rfl
    · exact hgone

/-- The ping task and a pending cancellation have no part in it. -/
theorem Progress.frame (h : Progress s) (ping : Ping) (cancelled : Bool) :
    Progress { s with ping := ping, cancelled := cancelled } := by
  cases h with
  | notCalled hcloser hclosed hevent hattempts hnot =>
    exact .notCalled hcloser hclosed hevent hattempts hnot
  | waiting closer stage hcloser hstage hclosed hevent hattempts hholds =>
    exact .waiting closer stage hcloser hstage hclosed hevent hattempts ⟨hholds.1, hholds.2⟩
  | closingSocket closer hcloser hclosed hevent hattempts hsocket hlistener =>
    exact .closingSocket closer hcloser hclosed hevent hattempts hsocket hlistener
  | returned closer hcloser hclosed hevent hattempts hgone =>
    exact .returned closer hcloser hclosed hevent hattempts hgone

/-- A listener that has not reached its `finally` starts, connects, or ends before it starts. -/
theorem Progress.listening (h : Progress s) {listener : Listener} (websocket : Bool) (ping : Ping)
    (hbefore : s.listener = .created ∧ websocket = s.websocket ∨ s.listener = .running)
    (hafter : listener = .running ∨ listener = .ended ∧ s.listener = .created) :
    Progress { s with listener := listener, websocket := websocket, ping := ping } := by
  have hnot : listener ≠ .closing := by
    rcases hafter with rfl | ⟨rfl, -⟩ <;> decide
  have hcurrent : s.listener ≠ .closing ∧ s.listener.gone = false := by
    rcases hbefore with ⟨h, -⟩ | h <;> rw [h] <;> decide
  cases h with
  | notCalled hcloser hclosed hevent hattempts =>
    exact .notCalled hcloser hclosed hevent hattempts hnot
  | waiting closer stage hcloser hstage hclosed hevent hattempts hholds =>
    refine .waiting closer stage hcloser hstage hclosed hevent hattempts ⟨fun hc ↦ ?_, fun hc ↦ ?_⟩
    · exact absurd (hholds.listener hc).1 hcurrent.1
    · refine ⟨hnot, ?_⟩
      rcases hbefore with ⟨hcreated, rfl⟩ | hrunning
      · right
        rcases (hholds.other hc).2 with hrunning | hcaptured
        · rw [hcreated] at hrunning
          cases hrunning
        · exact hcaptured
      · left
        rcases hafter with hafter | ⟨-, hcreated⟩
        · exact hafter
        · rw [hrunning] at hcreated
          cases hcreated
  | closingSocket closer _ _ _ _ _ hlistener =>
    rcases hlistener with ⟨-, hclosing⟩ | ⟨-, hgone⟩
    · exact absurd hclosing hcurrent.1
    · rw [hcurrent.2] at hgone
      cases hgone
  | returned closer _ _ _ _ hgone =>
    rw [hcurrent.2] at hgone
    cases hgone

/-- The first closer behind one of its waits. -/
theorem Progress.resume (h : Progress s) {closer : Closer} {stage : Stage}
    (hcloser : s.closer = some (closer, stage)) :
    (stage = .ping → Progress (s.cancelListener closer)) ∧
    (stage = .listener → s.listener.gone = true → Progress (s.closeSocket closer)) ∧
    (stage = .socket → Progress (s.finish closer)) := by
  cases h with
  | notCalled hnone =>
    rw [hnone] at hcloser
    cases hcloser
  | waiting first stage' hfirst hstage hclosed hevent hattempts hholds =>
    rw [hfirst] at hcloser
    cases hcloser
    refine ⟨fun _ ↦ cancelListener hclosed hevent hattempts hholds, fun hlistener hgone ↦ ?_,
      fun hsocket ↦ ?_⟩
    · have hother : closer = .other := by
        rcases hstage with rfl | ⟨-, hother⟩
        · cases hlistener
        · exact hother
      have hcaptured : s.captured = s.websocket := by
        rcases (hholds.other hother).2 with hrunning | hcaptured
        · rw [hrunning] at hgone
          cases hgone
        · exact hcaptured
      exact closeSocket hclosed hevent hattempts hcaptured (.inr ⟨hother, hgone⟩)
    · subst hsocket
      rcases hstage with hping | ⟨hlistener, -⟩
      · cases hping
      · cases hlistener
  | closingSocket first hfirst hclosed hevent hattempts hsocket hlistener =>
    rw [hfirst] at hcloser
    cases hcloser
    refine ⟨fun hping ↦ (by cases hping), fun hlistener _ ↦ (by cases hlistener), fun _ ↦ ?_⟩
    refine .returned closer rfl hclosed rfl (by simp [State.finish, hattempts, hsocket]) ?_
    rcases hlistener with ⟨rfl, -⟩ | ⟨rfl, hgone⟩
    · rfl
    · exact hgone
  | returned first hfirst =>
    rw [hfirst] at hcloser
    cases hcloser
    exact ⟨fun hping ↦ (by cases hping), fun hlistener _ ↦ (by cases hlistener),
      fun hsocket ↦ (by cases hsocket)⟩

/-- Every step that meets the condition keeps the progress. -/
theorem Progress.step (h : Progress s) {e : Event} (hg : Alone s e) (hs : s.step e = some t) :
    Progress t := by
  cases e with
  | start =>
    rw [State.step] at hs
    split at hs
    · next hcreated =>
      cases hs
      refine h.listening s.websocket s.ping (.inl ⟨hcreated, rfl⟩) ?_
      split
      · exact .inr ⟨rfl, hcreated⟩
      · exact .inl rfl
    · cases hs
  | connect pings =>
    rw [State.step] at hs
    split at hs
    · next hrunning =>
      cases hs
      have hnext := h.listening true (if pings then .running else s.ping) (.inr hrunning.1)
        (.inl rfl)
      rwa [← hrunning.1] at hnext
    · cases hs
  | cancel =>
    rw [State.step] at hs
    split at hs
    · cases hs
      exact h.frame s.ping true
    · cases hs
  | swallow =>
    rw [State.step] at hs
    split at hs
    · cases hs
      exact h.frame s.ping false
    · cases hs
  | leave =>
    rw [State.step] at hs
    split at hs
    · next hrunning =>
      cases hs
      exact h.close hg .listener fun _ ↦ hrunning
    · cases hs
  | pingEnds =>
    rw [State.step] at hs
    split at hs
    · cases hs
      exact h.frame .ended s.cancelled
    · cases hs
  | call =>
    cases hs
    exact h.close hg .other (by simp)
  | pingAwaited =>
    rw [State.step] at hs
    split at hs
    · next closer hcloser =>
      split at hs
      · cases hs
      · cases hs
        exact (h.resume hcloser).1 rfl
    · cases hs
  | listenerAwaited =>
    rw [State.step] at hs
    split at hs
    · next closer hcloser =>
      split at hs
      · next hgone =>
        cases hs
        exact (h.resume hcloser).2.1 rfl hgone
      · cases hs
    · cases hs
  | socketClosed =>
    rw [State.step] at hs
    split at hs
    · next closer hcloser =>
      cases hs
      exact (h.resume hcloser).2.2 rfl
    · cases hs

/-- A call while the first closer is suspended sets the event at once. -/
theorem not_closedMeansClosed_close (h : Progress s) (hworking : s.working = true)
    (closer : Closer) : ¬ ClosedMeansClosed (s.close closer) := by
  intro hmeans
  have hclosed : s.closed = true := by
    cases h with
    | notCalled hcloser => simp [State.working, hcloser] at hworking
    | waiting _ _ _ _ hclosed => exact hclosed
    | closingSocket _ _ hclosed => exact hclosed
    | returned _ _ hclosed => exact hclosed
  rw [State.close, if_pos hclosed] at hmeans
  have hidle : s.working = false := hmeans.returned rfl
  rw [hworking] at hidle
  cases hidle

/-- In every run in which no call of `close` begins while the first one is suspended, the closed
event means closed in every state; and it does so after no such call. -/
theorem closedEvent_means_closed (h : machine.Reach Alone s) :
    ClosedMeansClosed s ∧
      ∀ e t, machine.step s e = some t → (ClosedMeansClosed t ↔ Alone s e) := by
  have hprogress : Progress s := by
    refine h.invariant ?_ fun s e t _ hs hg ht ↦ hs.step hg ht
    rintro s (rfl | rfl) <;> exact .notCalled rfl rfl rfl rfl (by decide)
  refine ⟨hprogress.closedMeansClosed, fun e t ht ↦ ⟨fun hmeans ↦ ?_, fun hg ↦ ?_⟩⟩
  · by_contra hg
    cases e with
    | call =>
      cases ht
      exact not_closedMeansClosed_close hprogress (by simpa [Alone] using hg) .other hmeans
    | leave =>
      have hs : s.step .leave = some t := ht
      rw [State.step] at hs
      split at hs
      · cases hs
        exact not_closedMeansClosed_close hprogress (by simpa [Alone] using hg) .listener hmeans
      · cases hs
    | _ => exact hg trivial
  · exact (hprogress.step hg ht).closedMeansClosed

/-- The listener connects, is stopped and closes the connection itself; then another task does. -/
def ownClose : List Event := [.start, .connect true, .leave, .pingEnds, .pingAwaited, .socketClosed,
  .call]

instance (s : State) (e : Event) : Decidable (Alone s e) := by
  cases e <;> unfold Alone <;> infer_instance

theorem closedEvent_means_closed_ownClose :
    ((machine.runIf Alone (State.initial .created) ownClose).map State.closedEvent) = some true ∧
      ClosedMeansClosed ((machine.runIf Alone (State.initial .created) ownClose).getD
        (State.initial .created)) :=
  ⟨rfl, (closedEvent_means_closed (.runIf ownClose (.init (.inr rfl)) rfl)).1⟩

/-- Another task closes the connection, whose listener is cancelled by it and reaches its
`finally`. -/
def closedFromOutside : List Event := [.start, .connect false, .call, .leave]

/-- The event is set, while the first closer still awaits the listener and the socket is open. -/
theorem not_closedMeansClosed_outside :
    ¬ ∀ s, machine.Reachable s → ClosedMeansClosed s := by
  intro h
  have hreached : machine.Reachable ((machine.run (State.initial .created) closedFromOutside).getD
      (State.initial .created)) :=
    .run closedFromOutside (.init (.inr rfl)) rfl
  have hsocket := (h _ hreached).socket rfl
  exact absurd hsocket (by decide)

end ScrapyCffi.Sessions.CloseEvent
