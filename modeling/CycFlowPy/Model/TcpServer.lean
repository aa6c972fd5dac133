/-
Module: CycFlowPy.Model.TcpServer
Purpose: `PyTcpServer`, the server that owns its io_context and I/O thread:
  its calls made one after another.
Trusted boundary: `asio::io_context::stop` is final without a `restart`, and
  so is resetting a work guard
Main exports: TcpServer, TcpServer.start, TcpServer.stop, TcpServerCall,
  TcpServer.perform, TcpServer.Serves
-/
import CycFlowPy.Lib.Runs

namespace CycFlowPy.Server

open Runs

/-!
`running` is the atomic `m_running`, `workHeld` tells that `m_work` still
guards the io_context, `ioStopped` that `m_io.stop()` has been called, and
`joinable` that `m_io_thread` holds a thread that was not joined.

[SRC src/bind_server.cpp:28-71]
-/
structure TcpServer where
  running : Bool := false
  workHeld : Bool := true
  ioStopped : Bool := false
  joinable : Bool := false
deriving Repr, DecidableEq

/-- `PyTcpServer(port)`. -/
def fresh : TcpServer := {}

/-! The statements of `start` and `stop`, one by one. -/

def TcpServer.exchange (s : TcpServer) (running : Bool) : TcpServer :=
  { s with running := running }

def TcpServer.assignThread (s : TcpServer) : TcpServer :=
  { s with joinable := true }

def TcpServer.resetWork (s : TcpServer) : TcpServer :=
  { s with workHeld := false }

def TcpServer.stopIo (s : TcpServer) : TcpServer :=
  { s with ioStopped := true }

def TcpServer.join (s : TcpServer) : TcpServer :=
  { s with joinable := false }

/-- How a call ends. -/
inductive Outcome where
  | returned
  | raised
deriving Repr, DecidableEq

/-- `innerRaises` tells whether `cyc::TcpServer::start()` raises when it is
reached. -/
def TcpServer.start (innerRaises : Bool) (s : TcpServer) :
    TcpServer × Outcome :=
  if s.running then (s.exchange true, .returned)
  else if innerRaises then (s.exchange true, .raised)
  else ((s.exchange true).assignThread, .returned)

def TcpServer.stop (s : TcpServer) : TcpServer × Outcome :=
  if !s.running then (s.exchange false, .returned)
  else
    let stopped := (s.exchange false).resetWork.stopIo
    if stopped.joinable then (stopped.join, .returned)
    else (stopped, .returned)

/-- The calls that start and stop a server; `__enter__` goes through `start`
and `__exit__` through `stop`. -/
inductive TcpServerCall where
  | start (innerRaises : Bool)
  | stop
  | enter (innerRaises : Bool)
  | exit
deriving Repr, DecidableEq

def TcpServer.perform (s : TcpServer) :
    TcpServerCall → TcpServer × Outcome
  | .start innerRaises | .enter innerRaises => s.start innerRaises
  | .stop | .exit => s.stop

/-- The state after one call, whether it returned or raised. -/
def TcpServer.step (s : TcpServer) (call : TcpServerCall) :
    Option TcpServer :=
  some (s.perform call).1

/-- There is an I/O thread that keeps serving: it was not joined, its
io_context is not stopped and the work guard is held. -/
def TcpServer.Serves (s : TcpServer) : Prop :=
  s.joinable = true ∧ s.ioStopped = false ∧ s.workHeld = true

instance (s : TcpServer) : Decidable s.Serves :=
  inferInstanceAs (Decidable (_ ∧ _))

/-- After the call `is_running()` tells whether the server serves, and a call
that raised has changed nothing. -/
def TruthfulCall (s : TcpServer) (call : TcpServerCall) : Prop :=
  ((s.perform call).1.running = true ↔ (s.perform call).1.Serves) ∧
    ((s.perform call).2 = .raised → (s.perform call).1 = s)

instance (s : TcpServer) (call : TcpServerCall) :
    Decidable (TruthfulCall s call) :=
  inferInstanceAs (Decidable (_ ∧ _))

end CycFlowPy.Server
