/-
Module: CycFlowPy.Model.TcpServerThreads
Purpose: Any number of threads inside `start()` and `stop()` of one
  `PyTcpServer`, and its destruction once no call is in progress.
Trusted boundary: the points at which threads interleave are the statements of
  `start` and `stop`, each of them atomic
Main exports: CallPoint, CallPoint.advance, Process, ProcessAction,
  Process.step
-/
import CycFlowPy.Model.TcpServer
import Mathlib.Logic.Function.Basic

namespace CycFlowPy.Server

open Runs

/-!
Both bindings release the GIL, so the statements of concurrent calls
interleave.  `~PyTcpServer` runs `stop()` and then destroys the members.

[SRC src/bind_server.cpp:36-61]
[SRC src/bind_server.cpp:140-158]
-/

/-- The statement a thread performs next; `idle` outside of any call. -/
inductive CallPoint where
  | idle
  | startExchange
  | innerStart
  | createThread
  | assignThread
  | stopExchange
  | resetWork
  | stopIo
  | testJoinable
  | join
deriving Repr, DecidableEq

/-- The statement at a point: its effect on the server and the point after
it.  A thread that is joined has an io_context that was stopped, so `join`
does not block. -/
def CallPoint.advance (innerRaises : Bool) (server : TcpServer) :
    CallPoint → TcpServer × CallPoint
  | .idle => (server, .idle)
  | .startExchange =>
      (server.exchange true, if server.running then .idle else .innerStart)
  | .innerStart => (server, if innerRaises then .idle else .createThread)
  | .createThread => (server, .assignThread)
  | .assignThread => (server.assignThread, .idle)
  | .stopExchange =>
      (server.exchange false, if server.running then .resetWork else .idle)
  | .resetWork => (server.resetWork, .stopIo)
  | .stopIo => (server.stopIo, .testJoinable)
  | .testJoinable => (server, if server.joinable then .join else .idle)
  | .join => (server.join, .idle)

/-- A process with `n` threads and one server: the point of every thread,
whether the destructor has not been entered, whether the members have been
destroyed, and whether `std::terminate` was called. -/
structure Process (n : Nat) where
  server : TcpServer := fresh
  point : Fin n → CallPoint := fun _ => .idle
  alive : Bool := true
  destroyed : Bool := false
  terminated : Bool := false

variable {n : Nat}

def Process.set (s : Process n) (t : Fin n) (server : TcpServer)
    (point : CallPoint) : Process n :=
  { s with server := server, point := Function.update s.point t point }

/-- Thread `t` calls `start()`, calls `stop()`, enters the destructor or
performs its next statement; the destructor that has returned from `stop()`
destroys the members. -/
inductive ProcessAction (n : Nat) where
  | callStart (t : Fin n)
  | callStop (t : Fin n)
  | destroy (t : Fin n)
  | advance (t : Fin n) (innerRaises : Bool)
  | destroyMembers
deriving Repr, DecidableEq

/-- One step of the process, which takes none once it was terminated.
Assigning to a `std::thread` that is joinable and destroying one both call
`std::terminate`. -/
def Process.step (s : Process n) : ProcessAction n → Option (Process n)
  | .callStart t =>
      whenever (s.terminated = false ∧ s.alive = true ∧ s.point t = .idle)
        (s.set t s.server .startExchange)
  | .callStop t =>
      whenever (s.terminated = false ∧ s.alive = true ∧ s.point t = .idle)
        (s.set t s.server .stopExchange)
  | .destroy t =>
      whenever (s.terminated = false ∧ s.alive = true ∧
          ∀ u, s.point u = .idle)
        { s.set t s.server .stopExchange with alive := false }
  | .advance t innerRaises =>
      let next := (s.point t).advance innerRaises s.server
      whenever (s.terminated = false ∧ s.point t ≠ .idle)
        { s.set t next.1 next.2 with
          terminated := s.point t = .assignThread ∧ s.server.joinable = true }
  | .destroyMembers =>
      whenever (s.terminated = false ∧ s.alive = false ∧
          s.destroyed = false ∧ ∀ u, s.point u = .idle)
        { s with destroyed := true, terminated := s.server.joinable }

end CycFlowPy.Server
