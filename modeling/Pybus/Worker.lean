import Pybus.Interaction.Traces
import Pybus.Value

/-! A worker, which polls a listener until it is stopped, and the threads that stop it. -/
namespace Pybus

open Interaction

variable {Obj α : Type}

/-- A callback of the hook with a position in the list of hooks, or the poll of the listener. -/
inductive Callback (Obj : Type)
  | onStart (hook : Nat)
  | beforePoll (hook : Nat)
  | listenOnce
  | afterPoll (hook : Nat) (result : Option Obj)
  | onError (hook : Nat) (exc : Exc)
  | onStop (hook : Nat)

/-- What a worker calls, and what it does to its event and its flag. The parts under the lock are
one call each; a callback begins and finishes, and other threads may go on in between. -/
inductive WorkerCall (Obj : Type)
  | begin (c : Callback Obj)
  | finish (c : Callback Obj)
  | enterRun
  | leaveRun
  | isSet
  | admitPoll
  | wait
  | stop

/-- The answers. Entering is answered with whether the worker was running before. -/
abbrev WorkerCall.Answer {Obj : Type} : WorkerCall Obj → Type
  | finish _ => Except Exc (Option Obj)
  | enterRun | isSet | admitPoll => Bool
  | begin _ | leaveRun | wait | stop => Unit

abbrev WorkerCalls (Obj : Type) : Signature where
  Op := WorkerCall Obj
  Res := WorkerCall.Answer

/-- A method of the worker; its state is the list `started_hooks`. -/
abbrev WorkerAction (Obj α : Type) : Type := Routine (WorkerCalls Obj) (List Nat) Exc α

namespace PollingWorker

def ask (c : WorkerCall Obj) : WorkerAction Obj c.Answer := Routine.ask (S := WorkerCalls Obj) c

/-- Call back, and take over what is returned or raised. -/
def callback (c : Callback Obj) : WorkerAction Obj (Option Obj) := do
  ask (.begin c)
  Routine.attempt (S := WorkerCalls Obj) (.finish c) id

/-- The first loop of `run`. -/
def startHooks : List Nat → WorkerAction Obj Unit
  | [] => return ()
  | h :: hooks => do
    let _ ← callback (.onStart h)
    Routine.update (· ++ [h])
    startHooks hooks

/-- The loop over the hooks before a poll. -/
def beforePolls : List Nat → WorkerAction Obj Unit
  | [] => return ()
  | h :: hooks => do
    let _ ← callback (.beforePoll h)
    beforePolls hooks

/-- The loop over the hooks after a poll. The first error of the cycle is kept. -/
def afterPolls (result : Option Obj) : Option Exc → List Nat → WorkerAction Obj (Option Exc)
  | cycleError, [] => return cycleError
  | cycleError, h :: hooks => do
    let outcome ← (callback (.afterPoll h result)).caught
    afterPolls result (cycleError.or (raised outcome)) hooks

/-- The part of `_run_cycle` up to the admission: whether the poll is started. -/
def admission (hooks : List Nat) : WorkerAction Obj Bool := do
  beforePolls hooks
  let stopped ← ask .admitPoll
  return !stopped

/-- `_run_cycle`: the error of the cycle. Whatever is raised before the poll is admitted skips the
hooks after it. -/
def runCycle (hooks : List Nat) : WorkerAction Obj (Option Exc) := do
  let pollStarted ← (admission hooks).caught
  match pollStarted with
  | .error exc => return some exc
  | .ok false => return none
  | .ok true => do
    let polled ← (callback .listenOnce).caught
    let result := polled.toOption.bind id
    afterPolls result (raised polled) hooks

/-- `_report_error`. -/
def reportError (exc : Exc) : List Nat → WorkerAction Obj Unit
  | [] => return ()
  | h :: hooks => do
    let _ ← (callback (.onError h exc)).caught
    reportError exc hooks

/-- The main loop of `run`, up to a number of rounds: whether it has come to its end by then. -/
def loop (hooks : List Nat) (maxIterations : Option Int) :
    (rounds : Nat) → (iterations : Int) → WorkerAction Obj Bool
  | 0, _ => return false
  | rounds + 1, iterations => do
    let stopped ← ask .isSet
    if stopped || maxIterations.any (· ≤ iterations) then return true
    else
      match ← runCycle hooks with
      | none => loop hooks maxIterations rounds (iterations + 1)
      | some exc => do
        reportError exc hooks
        if exc.stopsWorker then Routine.raise exc
        else do
          ask .wait
          loop hooks maxIterations rounds (iterations + 1)

/-- The loop of the `finally` clause: what the hooks raise. -/
def stopHooks : List Nat → WorkerAction Obj (List Exc)
  | [] => return []
  | h :: hooks => do
    let outcome ← (callback (.onStop h)).caught
    let stopErrors ← stopHooks hooks
    return (raised outcome).toList ++ stopErrors

/-- The `finally` clause of `run`. An exception is active if the body has raised, or if `run` was
called while one was `handled`. -/
def finish (handled : Bool) (body : Except Exc Bool) : WorkerAction Obj Bool := do
  let startedHooks ← Routine.own
  let stopErrors ← stopHooks startedHooks.reverse
  ask .leaveRun
  match body, stopErrors with
  | .error exc, _ => Routine.raise exc
  | .ok ended, [] => return ended
  | .ok ended, exc :: _ => if handled then return ended else Routine.raise exc

/-- The body of the `try` of `run`. -/
def body (hooks : List Nat) (maxIterations : Option Int) (rounds : Nat) : WorkerAction Obj Bool := do
  startHooks hooks
  loop hooks maxIterations rounds 0

/-- `run`, up to a number of rounds of its loop: whether it has ended by then. -/
def run (hooks : List Nat) (maxIterations : Option Int) (handled : Bool) (rounds : Nat) :
    WorkerAction Obj Bool :=
  if maxIterations.any (· < 0) then
    Routine.raise (.valueError "max_iterations must be a non-negative integer")
  else do
    let running ← ask .enterRun
    if running then Routine.raise (.runtimeError "worker is already running")
    else do
      let body ← (body hooks maxIterations rounds).caught
      match body with
      | .ok false => return false
      | body => finish handled body

/-- `stop`. -/
def stop : WorkerAction Obj Bool := do
  ask .stop
  return true

/-- The event and the flag that the threads share. -/
structure Flags where
  stopped : Bool
  running : Bool
  deriving DecidableEq

/-- How the calls are answered. A callback may return or raise anything. -/
inductive Answers : Flags → (o : WorkerCall Obj) → o.Answer → Flags → Prop
  | begin (s : Flags) (c : Callback Obj) : Answers s (.begin c) () s
  | finish (s : Flags) (c : Callback Obj) (r : Except Exc (Option Obj)) : Answers s (.finish c) r s
  | enterRun (s : Flags) : Answers s .enterRun s.running { s with running := true }
  | leaveRun (s : Flags) : Answers s .leaveRun () { s with running := false }
  | isSet (s : Flags) : Answers s .isSet s.stopped s
  | admitPoll (s : Flags) : Answers s .admitPoll s.stopped s
  | wait (s : Flags) : Answers s .wait () s
  | stop (s : Flags) : Answers s .stop () { s with stopped := true }

/-- A thread that has ended, or has been looked at long enough. -/
abbrev Outcome : Type := Except Exc Bool × List Nat

/-- The threads of a worker: each runs it or stops it. -/
def world (Obj : Type) (hooks : List Nat) : World (WorkerCalls Obj) Flags Outcome where
  starts _ p := p = (stop : WorkerAction Obj Bool) [] ∨ ∃ maxIterations handled rounds,
    p = run hooks maxIterations handled rounds []
  answers := Answers

end PollingWorker

end Pybus
