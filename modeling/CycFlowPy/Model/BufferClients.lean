/-
Module: CycFlowPy.Model.BufferClients
Purpose: The two ownership systems around a `RecBuffer`: Python references
  with pybind11's keep-alive edges, and the `shared_ptr`s of writers and
  readers; and the client pointers registered in the buffer.
Trusted boundary: pybind11 destroys an object with its last reference and its
  last live nurse; CycLib stores and forgets the raw pointer of a client
Main exports: PyObject, BufferState, BufferAction, BufferState.step,
  BufferState.Owned, BufferState.Safe
-/
import CycFlowPy.Lib.KeepAlive
import CycFlowPy.Lib.Runs

namespace CycFlowPy.BufferClients

open KeepAlive Runs

/-!
`add_client` stores the raw pointer of the client and makes the buffer's
wrapper its nurse (`keep_alive<1, 2>`).  A `RecordWriter` or `RecordReader`
copies the buffer's `shared_ptr`, which keeps the `RecBuffer` alive but not
its wrapper.

[SRC src/bind_buffer.cpp:40-65]
[SRC src/bind_buffer.cpp:110-136]
[SRC src/bind_writer.cpp:153-164]
-/

/-- The Python objects: the wrappers of buffers, the `BufferClient`s, and the
writers and readers. -/
inductive PyObject where
  | buffer (b : Nat)
  | client (c : Nat)
  | owner (o : Nat)
deriving Repr, DecidableEq

/-- The objects ever created, the references and keep-alive edges between
them, the buffer that each writer or reader shares, and the pointers
registered in each buffer. -/
structure BufferState where
  created : List PyObject := []
  heap : Heap PyObject := .empty
  shares : List (Nat × Nat) := []
  clients : Nat → List Nat := fun _ => []

/-- What Python code does: the constructors of `RecBuffer`, of `BufferClient`
and of a writer or reader `o` on buffer `b`; `add_client` and
`remove_client`; one more or one less reference to an object; and a record
pushed through `o`. -/
inductive BufferAction where
  | newBuffer (b : Nat)
  | newClient (c : Nat)
  | newOwner (o b : Nat)
  | addClient (b c : Nat)
  | removeClient (b c : Nat)
  | takeRef (x : PyObject)
  | dropRef (x : PyObject)
  | push (o b : Nat)
deriving Repr, DecidableEq

def BufferState.create (s : BufferState) (x : PyObject) : BufferState :=
  { s with created := x :: s.created, heap := s.heap.take x }

/-- One operation.  Python code can name an object only through a reference
it has. -/
def BufferState.step (s : BufferState) : BufferAction → Option BufferState
  | .newBuffer b =>
      whenever (.buffer b ∉ s.created)
        { s.create (.buffer b) with
          clients := Function.update s.clients b [] }
  | .newClient c =>
      whenever (.client c ∉ s.created) (s.create (.client c))
  | .newOwner o b =>
      whenever (.owner o ∉ s.created ∧ s.heap.Referenced (.buffer b))
        { s.create (.owner o) with shares := (o, b) :: s.shares }
  | .addClient b c =>
      whenever (s.heap.Referenced (.buffer b) ∧ s.heap.Referenced (.client c))
        { s with
          heap := s.heap.keep (.buffer b) (.client c)
          clients := Function.update s.clients b (s.clients b ++ [c]) }
  | .removeClient b c =>
      whenever (s.heap.Referenced (.buffer b) ∧ s.heap.Referenced (.client c))
        { s with
          clients :=
            Function.update s.clients b
              ((s.clients b).filter fun other => other ≠ c) }
  | .takeRef x =>
      whenever (s.heap.Referenced x) { s with heap := s.heap.take x }
  | .dropRef x =>
      whenever (s.heap.Referenced x) { s with heap := s.heap.drop x }
  | .push o b =>
      whenever (s.heap.Referenced (.owner o) ∧ (o, b) ∈ s.shares) s

/-- The `RecBuffer` itself is alive: its wrapper is, or a writer or reader
that shares it. -/
def BufferState.Owned (s : BufferState) (b : Nat) : Prop :=
  s.heap.Alive (.buffer b) ∨
    ∃ o, (o, b) ∈ s.shares ∧ s.heap.Alive (.owner o)

/-- Every client pointer that a live buffer would notify denotes a client that
was not destroyed. -/
def BufferState.Safe (s : BufferState) : Prop :=
  ∀ b, s.Owned b → ∀ c ∈ s.clients b, s.heap.Alive (.client c)

end CycFlowPy.BufferClients
