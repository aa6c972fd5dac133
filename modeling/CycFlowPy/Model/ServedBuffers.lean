/-
Module: CycFlowPy.Model.ServedBuffers
Purpose: What keeps a `RecBuffer` and its clients alive while `TcpServer`s and
  the `TcpServerManager` serve it.
Trusted boundary: pybind11 destroys an object with its last reference and its
  last live nurse, and returns the wrapper of the manager that there is; CycLib
  drops the `shared_ptr`s of a server that is stopped by the manager or
  destroyed
Main exports: ServedObject, ServedState, ServedAction, ServedState.step,
  ServedState.Owned, ServedState.Safe
-/
import CycFlowPy.Lib.KeepAlive
import CycFlowPy.Lib.Runs

namespace CycFlowPy.ServedBuffers

open KeepAlive Runs

/-!
`register_buffer` copies the buffer's `shared_ptr` into the server and makes
the server's wrapper a nurse of the buffer's (`keep_alive<1, 3>`), as
`add_client` makes the buffer's wrapper a nurse of the client.  The manager is
a singleton behind a wrapper that Python may destroy (`py::nodelete`).

[SRC src/bind_server.cpp:28-61]
[SRC src/bind_server.cpp:74-115]
[SRC src/bind_server.cpp:118-187]
[SRC src/bind_buffer.cpp:130-136]
-/

/-- The Python objects: the wrappers of `TcpServer`s, of the manager and of
buffers, and the `BufferClient`s. -/
inductive ServedObject where
  | server (v : Nat)
  | manager (g : Nat)
  | buffer (b : Nat)
  | client (c : Nat)
deriving Repr, DecidableEq

def ServedObject.isManager : ServedObject → Bool
  | .manager _ => true
  | _ => false

/-- What each server and the running server of the manager serve, by name. -/
structure ServedState where
  created : List ServedObject := []
  heap : Heap ServedObject := .empty
  clients : Nat → List Nat := fun _ => []
  published : Nat → List (String × Nat) := fun _ => []
  running : Bool := false
  managed : List (String × Nat) := []

/-- What Python code does.  `accepted` says whether CycLib's `registerBuffer`
takes the buffer, in the place of one of the same name. -/
inductive ServedAction where
  | newServer (v : Nat)
  | newBuffer (b : Nat)
  | newClient (c : Nat)
  | managerInstance (g : Nat)
  | addClient (b c : Nat)
  | removeClient (b c : Nat)
  | registerBuffer (v : Nat) (name : String) (b : Nat) (accepted : Bool)
  | unregisterBuffer (v : Nat) (name : String)
  | managerStart (g : Nat)
  | managerStop (g : Nat)
  | managerRegister (g : Nat) (name : String) (b : Nat) (accepted : Bool)
  | managerUnregister (g : Nat) (name : String)
  | takeRef (x : ServedObject)
  | dropRef (x : ServedObject)
deriving Repr, DecidableEq

def ServedState.create (s : ServedState) (x : ServedObject) : ServedState :=
  { s with created := x :: s.created, heap := s.heap.take x }

def unregistered (name : String) (served : List (String × Nat)) :
    List (String × Nat) :=
  served.filter fun entry => entry.1 ≠ name

def registered (name : String) (b : Nat) (accepted : Bool)
    (served : List (String × Nat)) : List (String × Nat) :=
  if accepted then (name, b) :: unregistered name served else served

/-- One operation.  Python code can name an object only through a reference
it has. -/
def ServedState.step (s : ServedState) : ServedAction → Option ServedState
  | .newServer v =>
      whenever (.server v ∉ s.created)
        { s.create (.server v) with
          published := Function.update s.published v [] }
  | .newBuffer b =>
      whenever (.buffer b ∉ s.created)
        { s.create (.buffer b) with
          clients := Function.update s.clients b [] }
  | .newClient c =>
      whenever (.client c ∉ s.created) (s.create (.client c))
  | .managerInstance g =>
      if s.heap.Referenced (.manager g) then
        some { s with heap := s.heap.take (.manager g) }
      else
        whenever (.manager g ∉ s.created ∧ ∀ x ∈ s.created,
            x.isManager = true → ¬ s.heap.Referenced x)
          (s.create (.manager g))
  | .addClient b c =>
      whenever (s.heap.Referenced (.buffer b) ∧ s.heap.Referenced (.client c))
        { s with
          heap := s.heap.keep (.buffer b) (.client c)
          clients := Function.update s.clients b (s.clients b ++ [c]) }
  | .removeClient b c =>
      whenever (s.heap.Referenced (.buffer b) ∧ s.heap.Referenced (.client c))
        { s with
          clients :=
            Function.update s.clients b
              ((s.clients b).filter fun other => other ≠ c) }
  | .registerBuffer v name b accepted =>
      whenever (s.heap.Referenced (.server v) ∧ s.heap.Referenced (.buffer b))
        { s with
          heap := s.heap.keep (.server v) (.buffer b)
          published := Function.update s.published v
            (registered name b accepted (s.published v)) }
  | .unregisterBuffer v name =>
      whenever (s.heap.Referenced (.server v))
        { s with
          published := Function.update s.published v
            (unregistered name (s.published v)) }
  | .managerStart g =>
      whenever (s.heap.Referenced (.manager g)) { s with running := true }
  | .managerStop g =>
      whenever (s.heap.Referenced (.manager g))
        { s with running := false, managed := [] }
  | .managerRegister g name b accepted =>
      -- pybind11 adds the edge also when the call raises
      whenever (s.heap.Referenced (.manager g) ∧ s.heap.Referenced (.buffer b))
        { s with
          heap := s.heap.keep (.manager g) (.buffer b)
          managed :=
            if s.running then registered name b accepted s.managed
            else s.managed }
  | .managerUnregister g name =>
      whenever (s.heap.Referenced (.manager g))
        { s with managed := unregistered name s.managed }
  | .takeRef x =>
      whenever (s.heap.Referenced x) { s with heap := s.heap.take x }
  | .dropRef x =>
      whenever (s.heap.Referenced x) { s with heap := s.heap.drop x }

/-- The `RecBuffer` itself is alive: its wrapper is, or a server that serves
it, or the manager does. -/
def ServedState.Owned (s : ServedState) (b : Nat) : Prop :=
  s.heap.Alive (.buffer b) ∨
    (∃ v name, (name, b) ∈ s.published v ∧ s.heap.Alive (.server v)) ∨
    ∃ name, (name, b) ∈ s.managed

/-- Every client pointer that a live buffer would notify denotes a client that
was not destroyed. -/
def ServedState.Safe (s : ServedState) : Prop :=
  ∀ b, s.Owned b → ∀ c ∈ s.clients b, s.heap.Alive (.client c)

end CycFlowPy.ServedBuffers
