import ScrapyCffi.Base.Machine

/-!
# An FFmpeg process and its controls

One `FFmpegProcess` and what `FFmpegProcessManager` does with it, `utils/ffmpeg.py:276–490,599–650`:
the supervising task `_execute`, and any number of calls of `stop`, `kill` and `close`. Each event
runs one of them up to its next `await`, or is an act of the operating system. The output tails and
the times of a result are left out.
-/

namespace ScrapyCffi.Ffmpeg

open ScrapyCffi.Base

/-- `FFmpegProcessState`. -/
inductive ProcessState
  | queued
  | starting
  | running
  | stopping
  | succeeded
  | failed
  | cancelled
  | killed
  deriving DecidableEq, Repr

/-- `is_terminal`. -/
def ProcessState.isTerminal : ProcessState → Bool
  | .succeeded | .failed | .cancelled | .killed => true
  | .queued | .starting | .running | .stopping => false

/-- The operating-system process: not created, alive, ended, or ended and noticed by asyncio, which
sets `process.returncode` only then. -/
inductive OsProcess
  | none
  | alive
  | exited (code : Int)
  | noticed (code : Int)
  deriving DecidableEq, Repr

/-- `process.returncode`. -/
def OsProcess.returncode : OsProcess → Option Int
  | .noticed code => some code
  | .none | .alive | .exited _ => Option.none

/-- The code the process ended with. -/
def OsProcess.exitCode : OsProcess → Option Int
  | .exited code | .noticed code => some code
  | .none | .alive => Option.none

/-- Where `_execute` awaits: a slot, the creation, the feeding of stdin, the exit, the streams. -/
inductive Runner
  | queued
  | starting
  | feeding
  | waiting
  | draining
  | ended
  deriving DecidableEq, Repr

/-- Where a call of `stop` or `kill` awaits: the start, the quit command, the exit within the first
bound, the exit within the second one, or the result. -/
inductive Call
  | starting (kill : Bool)
  | quitting
  | grace
  | terminating
  | joined
  deriving DecidableEq, Repr

/-- A published result, and the circumstances in which it was published. -/
structure Outcome where
  state : ProcessState
  returncode : Option Int
  process : OsProcess
  stopRequested : Bool
  forceKillRequested : Bool
  callbackRaised : Bool
  deriving DecidableEq, Repr

/-- An `FFmpegProcess`. `runnerCancelled` tells that the supervising task was cancelled,
`callbackRaised` that `callback_errors` is not empty, `published` is what `_completion` was set
to, and `closed` belongs to the manager. -/
structure State where
  hasInput : Bool
  state : ProcessState
  returncode : Option Int
  process : OsProcess
  runner : Runner
  runnerCancelled : Bool
  stopRequested : Bool
  forceKillRequested : Bool
  callbackRaised : Bool
  calls : List Call
  published : List Outcome
  closed : Bool
  deriving DecidableEq, Repr

/-- `create`. -/
def State.created (hasInput : Bool) : State where
  hasInput
  state := .queued
  returncode := none
  process := .none
  runner := .queued
  runnerCancelled := false
  stopRequested := false
  forceKillRequested := false
  callbackRaised := false
  calls := []
  published := []
  closed := false

/-- The result that `_complete` builds. -/
def State.outcome (s : State) (state : ProcessState) : Outcome where
  state
  returncode := if s.process = .none then s.returncode else s.process.returncode
  process := s.process
  stopRequested := s.stopRequested
  forceKillRequested := s.forceKillRequested
  callbackRaised := s.callbackRaised

/-- `_complete`. -/
def State.complete (s : State) (state : ProcessState) : State :=
  if s.published ≠ [] then s
  else
    let outcome := s.outcome state
    { s with state, returncode := outcome.returncode, published := [outcome] }

/-- `_complete_cancelled`. -/
def State.completeCancelled (s : State) : State :=
  s.complete (if s.forceKillRequested then .killed else .cancelled)

/-- `_terminal_state`. -/
def State.terminalState (s : State) : ProcessState :=
  if s.forceKillRequested then .killed
  else if s.stopRequested then .cancelled
  else if s.returncode = some 0 then .succeeded
  else .failed

/-- `stop` or `kill` up to its first `await`, when the handle is not terminal: the state, and where
the call awaits. -/
def State.control (s : State) (kill : Bool) : State × Call :=
  let s := { s with stopRequested := true, forceKillRequested := s.forceKillRequested || kill }
  if s.process = .none then
    if s.state = .queued then ({ s with runnerCancelled := true }.completeCancelled, .joined)
    else (s, .starting kill)
  else
    let s := { s with state := .stopping }
    (s, if kill || s.process.returncode.isSome then .joined else .quitting)

/-- A call of `stop` or `kill`. -/
def State.call (s : State) (kill : Bool) : State :=
  if s.state.isTerminal then s
  else
    let (t, call) := s.control kill
    { t with calls := t.calls ++ [call] }

/-- What happens. -/
inductive Event
  /-- The semaphore grants a slot, or the cancelled supervising task gets its turn. -/
  | slot
  | cancelled
  /-- `create_subprocess_exec` returns or raises. -/
  | spawned
  | spawnFailed
  /-- `input_data` is written and stdin closed, or a pipe error is raised on the way. -/
  | fed
  | feedFailed
  /-- The process ends, and asyncio notices. -/
  | exit (code : Int)
  | notice
  /-- `process.wait()` returns to the supervising task. -/
  | waited
  /-- A stream callback raises. -/
  | callbackRaises
  /-- Both streams are at their end. -/
  | drained
  /-- `stop`, `kill` and `close` are called. -/
  | stop
  | kill
  | close
  /-- A call goes on, or the bound of its wait passes. -/
  | resume (call : Nat)
  | timeout (call : Nat)
  deriving DecidableEq, Repr

/-- A call goes on behind its `await`. -/
def State.resume (s : State) (n : Nat) : Option State :=
  match s.calls[n]? with
  | some (.starting kill) =>
    if s.process = .none ∧ s.published = [] then none
    else if s.state.isTerminal then some { s with calls := s.calls.set n .joined }
    else
      let (t, call) := s.control kill
      some { t with calls := t.calls.set n call }
  | some .quitting =>
    let call := if s.process.returncode.isSome then Call.joined else .grace
    some { s with calls := s.calls.set n call }
  | some .grace | some .terminating =>
    if s.process.returncode.isSome then some { s with calls := s.calls.set n .joined } else none
  | some .joined | none => none

/-- The bound of a wait for the exit passes. -/
def State.timeout (s : State) (n : Nat) : Option State :=
  match s.calls[n]? with
  | some .grace =>
    let call := if s.process.returncode.isSome then Call.joined else .terminating
    some { s with calls := s.calls.set n call }
  | some .terminating =>
    some { s with calls := s.calls.set n .joined, forceKillRequested := true }
  | _ => none

/-- One event. -/
def State.step (s : State) : Event → Option State
  | .slot =>
    if s.runner = .queued ∧ s.runnerCancelled = false then
      if s.stopRequested then some { s.completeCancelled with runner := .ended }
      else some { s with state := .starting, runner := .starting }
    else none
  | .cancelled =>
    if s.runner = .queued ∧ s.runnerCancelled then
      some { s.completeCancelled with runner := .ended }
    else none
  | .spawned =>
    if s.runner = .starting then
      let runner := if s.hasInput then Runner.feeding else .waiting
      some { s with process := .alive, state := .running, runner }
    else none
  | .spawnFailed =>
    if s.runner = .starting then some { s.complete .failed with runner := .ended } else none
  | .fed => if s.runner = .feeding then some { s with runner := .waiting } else none
  | .feedFailed =>
    if s.runner = .feeding then some { s.complete .failed with runner := .ended } else none
  | .exit code => if s.process = .alive then some { s with process := .exited code } else none
  | .notice =>
    match s.process with
    | .exited code => some { s with process := .noticed code }
    | _ => none
  | .waited =>
    match s.runner, s.process with
    | .waiting, .noticed code => some { s with returncode := some code, runner := .draining }
    | _, _ => none
  | .callbackRaises => if s.process = .none then none else some { s with callbackRaised := true }
  | .drained =>
    if s.runner = .draining then
      let state := if s.callbackRaised ∧ ¬ s.stopRequested then ProcessState.failed
        else s.terminalState
      some { s.complete state with runner := .ended }
    else none
  | .stop => some (s.call false)
  | .kill => some (s.call true)
  | .close => if s.closed then some s else some { s.call false with closed := true }
  | .resume n => s.resume n
  | .timeout n => s.timeout n

/-- The runs of a created process, with or without input. -/
def machine : Machine State Event where
  init s := ∃ hasInput, s = State.created hasInput
  step := State.step

end ScrapyCffi.Ffmpeg
