/-
Module: CycFlowPy.Model.ProcessGil
Purpose: Who holds the GIL while any number of Python threads stop and join
  the objects of the package, and any number of background threads run the
  Python callbacks of those objects.
Trusted boundary: the interpreter hands the GIL over between any two
  bytecodes; CycLib's background threads exit after a stop once they have made
  the callbacks that are left; callbacks return and wait for no background
  thread
Main exports: WorkerKind, WaitingCall, WaitingCall.releasesGil, Program,
  ProcessState, ProcessAction, ProcessState.step, Program.Disciplined,
  ProcessState.Responsive
-/
import CycFlowPy.Lib.Runs
import Mathlib.Logic.Function.Basic

namespace CycFlowPy.ProcessGil

open Runs

/-!
Every binding that waits for a background thread is called under
`gil_scoped_release`, except the two `__exit__` lambdas and the destructor of
`PyTcpServer`, which call `stop()` with the GIL held.  The trampolines of
producers and consumers and `PyBufferClient` acquire the GIL for every
callback.

[SRC src/bind_tcp.cpp:56-79]
[SRC src/bind_server.cpp:36-61]
[SRC src/bind_server.cpp:140-158]
[SRC src/bind_server.cpp:172-175]
[SRC src/bind_writer.cpp:35-86]
[SRC src/bind_writer.cpp:214-219]
[SRC src/bind_consumer.cpp:31-72]
[SRC src/bind_consumer.cpp:99-107]
[SRC src/bind_consumer.cpp:192-198]
[SRC src/bind_consumer.cpp:272-278]
[SRC src/bind_cbf.cpp:128-135]
[SRC src/bind_buffer.cpp:40-65]
-/

/-- Background threads: of a receiver, of a producer, of a consumer in Python
or one that writes a file, and the I/O thread of a server. -/
inductive WorkerKind where
  | receiver
  | producer
  | consumer
  | ioThread
deriving Repr, DecidableEq

/-- The calls that return after a background thread has exited. -/
inductive WaitingCall where
  | receiverStop
  | receiverJoin
  | receiverExit
  | producerStop
  | producerJoin
  | consumerStop
  | consumerFinish
  | serverStop
  | serverExit
  | serverDestructor
  | managerStop
deriving Repr, DecidableEq

def WaitingCall.kind : WaitingCall → WorkerKind
  | .receiverStop | .receiverJoin | .receiverExit => .receiver
  | .producerStop | .producerJoin => .producer
  | .consumerStop | .consumerFinish => .consumer
  | .serverStop | .serverExit | .serverDestructor | .managerStop => .ioThread

/-- The binding is called under `py::gil_scoped_release`. -/
def WaitingCall.releasesGil : WaitingCall → Bool
  | .receiverExit | .serverExit | .serverDestructor => false
  | .receiverStop | .receiverJoin | .producerStop | .producerJoin
  | .consumerStop | .consumerFinish | .serverStop | .managerStop => true

/-- The call asks the thread to exit; the others only wait for it. -/
def WaitingCall.requestsStop : WaitingCall → Bool
  | .receiverJoin | .producerJoin => false
  | .receiverStop | .receiverExit | .producerStop | .consumerStop
  | .consumerFinish | .serverStop | .serverExit | .serverDestructor
  | .managerStop => true

/-- A program that uses the package: its background threads, which of them run
Python callbacks, and which of them its Python threads wait for by which
calls.  The I/O thread of a server runs no Python code. -/
structure Program where
  kind : Nat → WorkerKind
  callbacks : Nat → Bool
  calls : WaitingCall → Nat → Bool
  kinds : ∀ call w, calls call w = true → kind w = call.kind
  ioThread : ∀ w, kind w = .ioThread → callbacks w = false

inductive GilHolder where
  | python (t : Nat)
  | worker (w : Nat)
deriving Repr, DecidableEq

/-- A Python thread: running Python code (with or without the GIL), in a call
that waits for a background thread, or behind the wait. -/
inductive PythonPoint where
  | body
  | waiting (call : WaitingCall) (w : Nat)
  | returned (call : WaitingCall)
deriving Repr, DecidableEq

/-- A background thread: between two callbacks, waiting for the GIL in front
of a callback or within one, in the callback, and exited. -/
inductive WorkerPoint where
  | native
  | wantGil
  | callback
  | exited
deriving Repr, DecidableEq

/-- `due` counts the callbacks that the thread makes before it receives,
produces or consumes again, or before it exits. -/
structure WorkerState where
  point : WorkerPoint := .native
  due : Nat := 0
  stopRequested : Bool := false
deriving Repr, DecidableEq

def WorkerState.requestStop (x : WorkerState) (due : Nat) : WorkerState :=
  if x.stopRequested then x
  else { x with due := x.due + due, stopRequested := true }

structure ProcessState where
  gil : Option GilHolder := none
  python : Nat → PythonPoint := fun _ => .body
  worker : Nat → WorkerState := fun _ => {}

def ProcessState.setPython (s : ProcessState) (t : Nat) (point : PythonPoint) :
    ProcessState :=
  { s with python := Function.update s.python t point }

def ProcessState.setWorker (s : ProcessState) (w : Nat) (x : WorkerState) :
    ProcessState :=
  { s with worker := Function.update s.worker w x }

/-- The atomic steps.  `call` says how many callbacks are left when it is the
first to ask the thread to exit: of records that are still consumed, and of
`on_produce_stop` or `on_consume_stop`. -/
inductive ProcessAction where
  | switchIn (t : Nat)
  | switchOut (t : Nat)
  | call (t : Nat) (call : WaitingCall) (w due : Nat)
  | callReturns (t : Nat)
  | resume (t : Nat)
  | work (w due : Nat)
  | beginCallback (w : Nat)
  | acquire (w : Nat)
  | switchOutCallback (w : Nat)
  | callbackReturns (w : Nat)
  | exitThread (w : Nat)
deriving Repr, DecidableEq

/-- A background thread has this many callbacks to make, none where it runs no
Python code. -/
def Program.MayOwe (P : Program) (w due : Nat) : Prop :=
  P.callbacks w = true ∨ due = 0

instance (P : Program) (w due : Nat) : Decidable (P.MayOwe w due) :=
  inferInstanceAs (Decidable (_ ∨ _))

/-- One step; `none` when it is not enabled. -/
def ProcessState.step (P : Program) (s : ProcessState) :
    ProcessAction → Option ProcessState
  | .switchIn t =>
      whenever (s.python t = .body ∧ s.gil = none)
        { s with gil := some (.python t) }
  | .switchOut t =>
      whenever (s.python t = .body ∧ s.gil = some (.python t))
        { s with gil := none }
  | .call t call w due =>
      whenever (s.python t = .body ∧ s.gil = some (.python t) ∧
          P.calls call w = true ∧ P.MayOwe w due)
        { s.setPython t (.waiting call w) with
          gil := if call.releasesGil then none else s.gil
          worker :=
            if call.requestsStop then
              Function.update s.worker w ((s.worker w).requestStop due)
            else s.worker }
  | .callReturns t =>
      match s.python t with
      | .waiting call w =>
          whenever ((s.worker w).point = .exited)
            (s.setPython t (.returned call))
      | _ => none
  | .resume t =>
      match s.python t with
      | .returned call =>
          whenever (s.gil =
              if call.releasesGil then none else some (.python t))
            { s.setPython t .body with gil := some (.python t) }
      | _ => none
  | .work w due =>
      whenever ((s.worker w).point = .native ∧ (s.worker w).due = 0 ∧
          (s.worker w).stopRequested = false ∧ P.MayOwe w due)
        (s.setWorker w { s.worker w with due := due })
  | .beginCallback w =>
      whenever ((s.worker w).point = .native ∧ 0 < (s.worker w).due)
        (s.setWorker w
          { s.worker w with point := .wantGil, due := (s.worker w).due - 1 })
  | .acquire w =>
      whenever ((s.worker w).point = .wantGil ∧ s.gil = none)
        { s.setWorker w { s.worker w with point := .callback } with
          gil := some (.worker w) }
  | .switchOutCallback w =>
      whenever ((s.worker w).point = .callback)
        { s.setWorker w { s.worker w with point := .wantGil } with
          gil := none }
  | .callbackReturns w =>
      whenever ((s.worker w).point = .callback)
        { s.setWorker w { s.worker w with point := .native } with
          gil := none }
  | .exitThread w =>
      whenever ((s.worker w).point = .native ∧ (s.worker w).due = 0 ∧
          (s.worker w).stopRequested = true)
        (s.setWorker w { s.worker w with point := .exited })

/-- No receiver with a client in its buffer is left through `__exit__`. -/
def Program.Disciplined (P : Program) : Prop :=
  ∀ w, P.calls .receiverExit w = true → P.callbacks w = false

/-- Every call that waits for a thread that was asked to exit can return, and
every background thread that waits for the GIL can get it. -/
def ProcessState.Responsive (P : Program) (s : ProcessState) : Prop :=
  (∀ t call w, s.python t = .waiting call w →
    (s.worker w).stopRequested = true →
    Can (ProcessState.step P) (fun u => u.python t = .body) s) ∧
  ∀ w, (s.worker w).point = .wantGil →
    Can (ProcessState.step P) (fun u => (u.worker w).point = .callback) s

end CycFlowPy.ProcessGil
