/-
Module: CycFlowPy.Model.StreamCleanup
Purpose: The ways in which the async generator `stream()` ends, and the
  `finally` clause that most of them run.
Trusted boundary: the cleanup calls do not raise; asyncio raises in a coroutine
  only where it is suspended
Main exports: Control, ReaderLife, CleanupState, CleanupAction,
  CleanupState.step, CleanupState.CleanedUp
-/
import CycFlowPy.Model.Stream

namespace CycFlowPy.Stream

open Runs

/-!
The body of the generator is that of `StreamState.step`.  Here it may also be
left by an exception, and the model starts one `await` earlier: `rx.connect`
has returned true in the executor, and the coroutine has not been resumed.
The `try` is entered after the reader was made, so an exception of a call
before it leaves the generator without the `finally`.

[SRC python/cycflow/__init__.py:253-289]
-/

/-- Where control is: at the `await` of `rx.connect`, in the body at
`stream.point`, before one of the three calls of the `finally`, or out of the
generator. -/
inductive Control where
  | awaitingConnect
  | body
  | stopReader
  | stopReceiver
  | removeClient
  | finished
deriving Repr, DecidableEq

def Control.inFinally : Control → Bool
  | .stopReader | .stopReceiver | .removeClient => true
  | _ => false

inductive ReaderLife where
  | notCreated
  | running
  | stopped
deriving Repr, DecidableEq

/-- The state of `stream()` and its environment, with what the `finally` is
there for: the reader, and whether `rx.stop()` has been called. -/
structure CleanupState (ρ : Type) where
  stream : StreamState ρ := {}
  control : Control := .awaitingConnect
  reader : ReaderLife := .notCreated
  receiverStopped : Bool := false
deriving Repr, DecidableEq

variable {ρ : Type}

/-- `rx.connect` has just returned true. -/
def CleanupState.connected (ρ : Type) : CleanupState ρ := {}

/-- A step of the generator's own happens in the body only; the loop runs no
callback while the `finally` is executed, and the reader copies records while
it runs. -/
def CleanupState.mayTake (s : CleanupState ρ) : StreamAction ρ → Bool
  | .push _ | .receiverStop | .dispatch => true
  | .runCallback => !s.control.inFinally
  | .prefetch _ => s.reader = .running
  | _ => s.control = .body

/-- An exception that leaves the body now runs the `finally`. -/
def CleanupState.InsideTry (s : CleanupState ρ) : Prop :=
  s.control = .body ∧ s.stream.point.hasReader = true

instance (s : CleanupState ρ) : Decidable s.InsideTry :=
  inferInstanceAs (Decidable (_ ∧ _))

/-- The exception leaves the body. -/
def CleanupState.unwind (s : CleanupState ρ) : CleanupState ρ :=
  if s.InsideTry then { s with control := .stopReader }
  else { s with
    control := .finished
    stream := { s.stream with point := .ended } }

/-- The steps of the body and its environment, the exceptions (`raise` by a
call, `throwIn` at a `yield`, `cancel` at an `await`) and the calls of the
`finally`. -/
inductive CleanupAction (ρ : Type) where
  | resumeConnected
  | stream (action : StreamAction ρ)
  | raise
  | throwIn
  | cancel
  | stopReader
  | stopReceiver
  | removeClient
deriving Repr, DecidableEq

def CleanupAction.isException : CleanupAction ρ → Bool
  | .raise | .throwIn | .cancel => true
  | _ => false

def StreamAction.isMakeReader : StreamAction ρ → Bool
  | .makeReader => true
  | _ => false

/-- The body after one of its steps: `while rx.is_running()` goes on to the
`finally` when it ends. -/
def CleanupState.afterStep (s : CleanupState ρ) (action : StreamAction ρ)
    (stream : StreamState ρ) : CleanupState ρ :=
  { s with
    stream := stream
    control :=
      if s.control = .body ∧ stream.point = .ended then .stopReader
      else s.control
    reader := if action.isMakeReader then .running else s.reader }

def CleanupState.step (reader : ReaderKind) (batchCapacity : Nat)
    (s : CleanupState ρ) : CleanupAction ρ → Option (CleanupState ρ)
  | .resumeConnected =>
      whenever (s.control = .awaitingConnect) { s with control := .body }
  | .stream action =>
      if s.mayTake action then
        (s.stream.step reader batchCapacity action).map (s.afterStep action)
      else none
  | .raise =>
      whenever (s.control = .body ∧ s.stream.point.suspended = false) s.unwind
  | .throwIn =>
      whenever (s.control = .body ∧ s.stream.point = .yielded) s.unwind
  | .cancel =>
      whenever (s.control = .awaitingConnect ∨
          s.control = .body ∧ s.stream.point = .waiting)
        s.unwind
  | .stopReader =>
      whenever (s.control = .stopReader)
        { s with control := .stopReceiver, reader := .stopped }
  | .stopReceiver =>
      whenever (s.control = .stopReceiver)
        { s with
          control := .removeClient
          receiverStopped := true
          stream := { s.stream with running := false } }
  | .removeClient =>
      whenever (s.control = .removeClient)
        { s with
          control := .finished
          stream := { s.stream with registered := false, point := .ended } }

/-- `rx.stop()` has been called, the reader does not run, and the client is
not registered. -/
structure CleanupState.CleanedUp (s : CleanupState ρ) : Prop where
  receiver : s.receiverStopped = true
  reader : s.reader ≠ .running
  client : s.stream.registered = false

end CycFlowPy.Stream
