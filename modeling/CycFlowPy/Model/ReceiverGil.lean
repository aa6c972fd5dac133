/-
Module: CycFlowPy.Model.ReceiverGil
Purpose: Who holds the GIL while a Python thread leaves a `TcpDataReceiver` and
  the receiver's background thread notifies the registered `BufferClient`s.
Trusted boundary: the behaviour of CycLib and the interpreter is that of the
  guards of the steps below
Main exports: LeaveVia, PythonPoint, BackgroundPoint, GilState, GilAction,
  GilState.step, GilState.Deadlocked
-/
import CycFlowPy.Lib.Runs

namespace CycFlowPy.ReceiverGil

open Runs

/-!
`TcpDataReceiver.stop` is bound with `call_guard<gil_scoped_release>`, while
`__exit__` calls `r.stop()` from a plain lambda.  Either way
`cyc::TcpDataReceiver::stop()` returns only after the thread that dispatches
the notifications has finished its current push and exited.  For each client
of a push that thread runs `PyBufferClient::notifyDataAvailable`, which
acquires the GIL for the duration of the Python callback.

[SRC src/bind_tcp.cpp:56-79]
[SRC src/bind_buffer.cpp:40-65]
-/

/-- The two ways out of a receiver. -/
inductive LeaveVia where
  | stop
  | exit
deriving Repr, DecidableEq

/-- The binding is called under `py::gil_scoped_release`. -/
def LeaveVia.releasesGil : LeaveVia → Bool
  | .stop => true
  | .exit => false

inductive GilHolder where
  | python
  | background
deriving Repr, DecidableEq

/-- The Python thread: running Python code (with or without the GIL), having
entered the binding, inside `cyc::TcpDataReceiver::stop()`, and after it. -/
inductive PythonPoint where
  | body
  | entered
  | waiting
  | returned
  | done
deriving Repr, DecidableEq

/-- The background thread: between two pushes, about to notify client `i`, in
the constructor of `gil_scoped_acquire` for it, in its callback, wanting the
GIL back after the interpreter switched threads in the callback, and exited. -/
inductive BackgroundPoint where
  | receiving
  | notifying (i : Nat)
  | wantGil (i : Nat)
  | callback (i : Nat)
  | regain (i : Nat)
  | exited
deriving Repr, DecidableEq

def BackgroundPoint.waitsForGil : BackgroundPoint → Bool
  | .wantGil _ | .regain _ => true
  | _ => false

structure GilState where
  gil : Option GilHolder := some .python
  python : PythonPoint := .body
  background : BackgroundPoint := .receiving
  stopRequested : Bool := false
deriving Repr, DecidableEq

/-- The atomic steps of the two threads.  `switchOut`/`switchIn` and
`callbackOut`/`callbackIn` are the interpreter handing the GIL over between
two bytecodes. -/
inductive GilAction where
  | switchOut
  | switchIn
  | leave
  | beginStop
  | stopReturns
  | finish
  | push
  | notifyNext
  | pushDone
  | acquire
  | callbackOut
  | callbackIn
  | release
  | exitThread
deriving Repr, DecidableEq

/-- One step with `clients` registered clients; `none` when it is not
enabled. -/
def GilState.step (via : LeaveVia) (clients : Nat) (s : GilState) :
    GilAction → Option GilState
  | .switchOut =>
      whenever (s.python = .body ∧ s.gil = some .python) { s with gil := none }
  | .switchIn =>
      whenever (s.python = .body ∧ s.gil = none)
        { s with gil := some .python }
  | .leave =>
      whenever (s.python = .body ∧ s.gil = some .python)
        { s with python := .entered }
  | .beginStop =>
      whenever (s.python = .entered)
        { s with
          gil := if via.releasesGil then none else s.gil
          python := .waiting
          stopRequested := true }
  | .stopReturns =>
      whenever (s.python = .waiting ∧ s.background = .exited)
        { s with python := .returned }
  | .finish =>
      whenever (s.python = .returned ∧
          (via.releasesGil = true → s.gil = none))
        { s with gil := some .python, python := .done }
  | .push =>
      whenever (s.background = .receiving)
        { s with background := .notifying 0 }
  | .notifyNext =>
      match s.background with
      | .notifying i => whenever (i < clients) { s with background := .wantGil i }
      | _ => none
  | .pushDone =>
      match s.background with
      | .notifying i =>
          whenever (clients ≤ i) { s with background := .receiving }
      | _ => none
  | .acquire =>
      match s.background with
      | .wantGil i =>
          whenever (s.gil = none)
            { s with gil := some .background, background := .callback i }
      | _ => none
  | .callbackOut =>
      match s.background with
      | .callback i => some { s with gil := none, background := .regain i }
      | _ => none
  | .callbackIn =>
      match s.background with
      | .regain i =>
          whenever (s.gil = none)
            { s with gil := some .background, background := .callback i }
      | _ => none
  | .release =>
      match s.background with
      | .callback i =>
          some { s with gil := none, background := .notifying (i + 1) }
      | _ => none
  | .exitThread =>
      whenever (s.background = .receiving ∧ s.stopRequested = true)
        { s with background := .exited }

/-- The Python thread holds the GIL while it waits for the background thread,
and the background thread waits to acquire it. -/
def GilState.Deadlocked (s : GilState) : Prop :=
  s.python = .waiting ∧ s.gil = some .python ∧
    s.background.waitsForGil = true

end CycFlowPy.ReceiverGil
