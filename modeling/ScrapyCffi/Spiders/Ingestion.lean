import Mathlib.Data.List.Perm.Subperm
import ScrapyCffi.Spiders.RedisStart

/-!
# Start messages at the stop

A list entry is gone from Redis when `get_start_req` returns it (`spiders/redis.py:29–72`), and
nothing puts it back: it is attached to a request that is yielded, or lost.
-/

namespace ScrapyCffi.Spiders

open ScrapyCffi.Base

/-- The list messages attached to the requests that were yielded. -/
def State.attached (s : State) : List Bytes :=
  s.yields.flatMap fun message ↦ (message.map StartData.listMessage).getD []

/-- The list message that `start` or its `get_req_task` holds. -/
def State.inHand (s : State) : List Bytes :=
  match s.phase with
  | .racing (some outcome) _ | .settlingStop outcome => outcome.listMessage
  | .making data => data.listMessage
  | _ => []

/-- Every list message that was returned is attached to a request that was yielded, or still in
hand. -/
def State.Kept (s : State) : Prop := s.returned.Subperm (s.attached ++ s.inHand)

/-- The list message that is passed over because it is empty. -/
def Outcome.passedOver : Outcome → List Bytes
  | .returned data => if data.truthy then [] else data.listMessage
  | .raised => []

/-- The list message that an event takes out of `start`'s hands without a request: `asyncio.wait`
returns with both tasks done; the message is empty; no request is made of it; `start` is cancelled
with the message in hand; or the pop returns after `start` has turned to the stop event or was
cancelled. -/
def State.dropped (s : State) : Event → List Bytes
  | .wake =>
    match s.phase with
    | .racing _ true => s.inHand
    | _ => []
  | .stopTaskEnds =>
    match s.phase with
    | .settlingStop outcome => outcome.passedOver
    | _ => []
  | .made request => if request then [] else s.inHand
  | .makeRaises | .cancel => s.inHand
  | .popEnds outcome =>
    match s.phase with
    | .racing .. => []
    | _ => outcome.listMessage
  | _ => []

/-! ## One step -/

/-- The list message that an event hands over from `get_start_req`. -/
def Event.popped : Event → List Bytes
  | .popEnds outcome => outcome.listMessage
  | _ => []

/-- What an event does with the list messages. -/
structure Moves (s t : State) (popped dropped : List Bytes) : Prop where
  returned : t.returned = s.returned ++ popped
  held : s.attached ++ s.inHand ++ popped = t.attached ++ t.inHand ++ dropped

variable {s t : State} {e : Event}

/-- Nothing is popped or yielded. -/
theorem Moves.of_eq {dropped : List Bytes} (hreturned : t.returned = s.returned)
    (hyields : t.yields = s.yields) (hhand : s.inHand = t.inHand ++ dropped) :
    Moves s t [] dropped := by
  refine ⟨by rw [hreturned, List.append_nil], ?_⟩
  rw [State.attached, State.attached, hyields, hhand, List.append_nil, List.append_assoc]

/-- A list message is popped. -/
theorem Moves.pop {outcome : Outcome} {phase : Phase} {dropped : List Bytes}
    (hhand : s.inHand = []) (hnext : (s.popped outcome phase).inHand ++ dropped =
      outcome.listMessage) :
    Moves s (s.popped outcome phase) outcome.listMessage dropped := by
  refine ⟨rfl, ?_⟩
  show s.attached ++ s.inHand ++ _ = s.attached ++ (s.popped outcome phase).inHand ++ dropped
  rw [hhand, List.append_nil, List.append_assoc, hnext]

/-- The next round begins with nothing in hand. -/
theorem inHand_nextRound (s : State) : s.nextRound.inHand = [] := by
  rw [State.nextRound, State.inHand]
  cases s.stopEvent <;> rfl

/-- The next round lets go of what is in hand. -/
theorem Moves.nextRound {dropped : List Bytes} (hhand : s.inHand = dropped) :
    Moves s s.nextRound [] dropped :=
  .of_eq rfl rfl (by rw [inHand_nextRound, hhand, List.nil_append])

/-- `start` handles the result of `get_req_task`: an empty list message is dropped. -/
theorem Moves.received {outcome : Outcome} (hhand : s.inHand = outcome.listMessage) :
    Moves s (s.received outcome) [] outcome.passedOver := by
  cases outcome with
  | raised => exact .of_eq rfl rfl hhand
  | returned data =>
    rw [State.received, Outcome.passedOver]
    cases data.truthy with
    | true => exact .of_eq rfl rfl (hhand.trans (List.append_nil _).symm)
    | false => exact .nextRound hhand

/-- A list message is always attached to the request that is made of it. -/
theorem Moves.yieldRequest {data : StartData} (hhand : s.inHand = data.listMessage) :
    Moves s (s.yieldRequest data) [] [] := by
  refine ⟨(List.append_nil _).symm, ?_⟩
  have hattached : (s.yieldRequest data).attached = s.attached ++ data.listMessage := by
    simp only [State.attached, State.yieldRequest, List.flatMap_append]
    cases data <;> cases s.autoAck <;> rfl
  have hnext : (s.yieldRequest data).inHand = [] := rfl
  simp only [hattached, hhand, hnext, List.append_nil]

/-- A message of which no request is made is dropped. -/
theorem Moves.skipData (data : StartData) : Moves s (s.skipData data) [] s.inHand := by
  rw [State.skipData]
  split
  · exact .of_eq rfl rfl (List.nil_append _).symm
  · exact .nextRound rfl

/-- Behind a `yield` nothing is in hand. -/
theorem Moves.accept (hhand : s.inHand = []) : Moves s s.accept [] [] := by
  rw [State.accept]
  split
  · exact .of_eq rfl rfl hhand
  · exact .of_eq rfl rfl (by rw [inHand_nextRound, hhand]; rfl)

/-- A step moves what it pops into `start`'s hands, and drops or yields what it takes out. -/
theorem moves_step (h : s.step e = some t) : Moves s t e.popped (s.dropped e) := by
  obtain ⟨limit, autoAck, stopEvent, acceptedCount, phase, returned, yields⟩ := s
  cases e with
  | resume =>
    cases phase with
    | created =>
      cases h
      exact .nextRound rfl
    | suspended =>
      cases h
      exact .accept rfl
    | _ => cases h
  | close =>
    cases phase with
    | created | suspended =>
      cases h
      exact .of_eq rfl rfl rfl
    | _ => cases h
  | setStop =>
    cases h
    exact .of_eq rfl rfl (List.append_nil _).symm
  | popEnds outcome =>
    cases phase with
    | racing pop stopped =>
      cases pop with
      | none =>
        cases h
        exact .pop rfl (List.append_nil _)
      | some _ => cases h
    | settlingPop | abandoned =>
      cases h
      exact .pop rfl rfl
    | unwinding popDone =>
      cases popDone with
      | false =>
        cases h
        exact .pop rfl rfl
      | true => cases h
    | _ => cases h
  | stopTaskEnds =>
    cases phase with
    | racing pop stopped =>
      cases stopped with
      | false =>
        cases stopEvent <;> cases h
        cases pop <;> exact .of_eq rfl rfl (List.append_nil _).symm
      | true => cases h
    | settlingStop outcome =>
      cases h
      exact .received rfl
    | _ => cases h
  | wake =>
    cases phase with
    | racing pop stopped =>
      cases pop <;> cases stopped <;> cases h
      · exact .of_eq rfl rfl rfl
      · exact .of_eq rfl rfl (List.append_nil _).symm
      · exact .of_eq rfl rfl rfl
    | _ => cases h
  | made request =>
    cases phase with
    | making data =>
      cases request <;> cases h
      · exact .skipData data
      · exact .yieldRequest rfl
    | _ => cases h
  | makeRaises =>
    cases phase with
    | making data =>
      cases h
      exact .of_eq rfl rfl rfl
    | _ => cases h
  | acked =>
    cases phase with
    | acking =>
      cases h
      exact .nextRound rfl
    | _ => cases h
  | ackRaises =>
    cases phase with
    | acking =>
      cases h
      exact .of_eq rfl rfl rfl
    | _ => cases h
  | gathered =>
    cases phase with
    | leaving =>
      cases h
      exact .of_eq rfl rfl rfl
    | unwinding popDone =>
      cases popDone <;> cases h
      exact .of_eq rfl rfl rfl
    | _ => cases h
  | cancel =>
    cases phase with
    | racing pop stopped =>
      cases h
      exact .of_eq rfl rfl rfl
    | unwinding popDone =>
      cases popDone <;> cases h <;> exact .of_eq rfl rfl rfl
    | created | suspended | abandoned | ended => cases h
    | _ =>
      cases h
      exact .of_eq rfl rfl rfl

/-! ## Runs -/

/-- The list messages that were returned are attached or in hand, in their order. -/
def State.Ledger (s : State) : Prop := s.returned = s.attached ++ s.inHand

/-- What is returned is kept by a step that drops nothing, and by no other. -/
theorem kept_iff (hs : s.Ledger) (h : s.step e = some t) : t.Kept ↔ s.dropped e = [] := by
  have hmoves := moves_step h
  have hreturned : t.returned = t.attached ++ t.inHand ++ s.dropped e := by
    rw [hmoves.returned, hs, hmoves.held]
  rw [State.Kept, hreturned]
  constructor
  · intro hkept
    have hlength := hkept.length_le
    rw [List.length_append] at hlength
    exact List.length_eq_zero_iff.mp (by omega)
  · intro hdropped
    rw [hdropped, List.append_nil]

/-- What a step that drops nothing leaves. -/
theorem ledger_step (hs : s.Ledger) (hdropped : s.dropped e = []) (h : s.step e = some t) :
    t.Ledger := by
  have hmoves := moves_step h
  rw [State.Ledger, hmoves.returned, hs, hmoves.held, hdropped, List.append_nil]

/-- In the runs whose steps drop nothing. -/
theorem ledger_reach (h : machine.Reach (fun s e ↦ s.dropped e = []) s) : s.Ledger := by
  refine h.invariant ?_ fun _ _ _ _ hs hdropped ht ↦ ledger_step hs hdropped ht
  rintro _ ⟨limit, autoAck, rfl⟩
  rfl

/-- As long as no step drops a list message, each that was returned is attached to a request that
was yielded or still in hand, attached when `start` has ended; and the next step keeps it so exactly
when it drops none. -/
theorem start_keeps_messages (h : machine.Reach (fun s e ↦ s.dropped e = []) s) :
    s.Kept ∧ (s.phase = .ended → s.returned.Subperm s.attached) ∧
      ∀ e t, s.step e = some t → (t.Kept ↔ s.dropped e = []) := by
  have hledger := ledger_reach h
  have hkept : s.Kept := by rw [State.Kept, hledger]
  refine ⟨hkept, fun hended ↦ ?_, fun e t ht ↦ kept_iff hledger ht⟩
  have hhand : s.inHand = [] := by rw [State.inHand, hended]
  rwa [State.Kept, hhand, List.append_nil] at hkept

/-- A pop and the stop signal complete before `asyncio.wait` returns. -/
def tie : List Event :=
  [.resume, .popEnds (.returned (.list [104])), .setStop, .stopTaskEnds]

/-- Both tasks of the first round are done. -/
def bothDone : State := (machine.run (.start none true) tie).getD (.start none true)

theorem start_keeps_messages_bothDone :
    bothDone.Kept ∧ (bothDone.phase = .ended → bothDone.returned.Subperm bothDone.attached) ∧
      ∀ e t, bothDone.step e = some t → (t.Kept ↔ bothDone.dropped e = []) :=
  start_keeps_messages (.runIf tie (.init ⟨none, true, rfl⟩) rfl)

/-- The message of a pop that completes together with the stop signal is lost. -/
theorem popped_message_lost : ¬ ∀ s, machine.Reachable s → s.Kept := by
  intro h
  have hreached : machine.Reachable ((machine.run (.start none true) (tie ++ [.wake])).getD
      (.start none true)) := .run (tie ++ [.wake]) (.init ⟨none, true, rfl⟩) rfl
  have hlength := (h _ hreached).length_le
  revert hlength
  decide

end ScrapyCffi.Spiders
