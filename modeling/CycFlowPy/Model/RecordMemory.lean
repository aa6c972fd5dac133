/-
Module: CycFlowPy.Model.RecordMemory
Purpose: The Python objects that denote record memory of a reader or writer,
  and what keeps that reader or writer alive for them.
Trusted boundary: pybind11's `keep_alive` and an array's base keep an object
  alive, and a value returned without either keeps nothing alive
Main exports: Owner, MemoryObject, MemoryState, MemoryAction,
  MemoryState.step, MemoryState.Safe
-/
import CycFlowPy.Lib.KeepAlive
import CycFlowPy.Lib.Runs

namespace CycFlowPy.RecordMemory

open KeepAlive Runs

/-!
Every binding that hands out record memory declares on its own what it keeps
alive.  `next_record` makes the record the nurse of the reader or writer;
`next_batch` of a reader passes the reader as the base of the array;
`next_batch` of a writer returns a `WriteBatch` with neither; and `as_numpy`
passes the `WriteBatch` as the base of the array.

[SRC src/bind_writer.cpp:93-139]
[SRC src/bind_buffer.cpp:71-81]
[SRC src/bind_buffer.cpp:189-201]
[SRC src/numpy_bridge.cpp:82-94]
-/

inductive Owner where
  | reader (r : Nat)
  | writer (w : Nat)
deriving Repr, DecidableEq

/-- The readers and writers, and the objects that denote their record memory:
a `Record`, an array from `next_batch` of a reader, a `WriteBatch`, and an
array from `as_numpy`. -/
inductive MemoryObject where
  | owner (o : Owner)
  | record (n : Nat)
  | readerArray (n : Nat)
  | writeBatch (n : Nat)
  | batchArray (n : Nat)
deriving Repr, DecidableEq

/-- The objects ever created, the references and keep-alive edges between
them, and the reader or writer whose memory an object denotes. -/
structure MemoryState where
  created : List MemoryObject := []
  heap : Heap MemoryObject := .empty
  producer : MemoryObject → Option Owner := fun _ => none

/-- What Python code does: it gets a reader or writer, calls one of the
methods that hand out record memory (`n` names the new object), or has one
more or one less reference to an object. -/
inductive MemoryAction where
  | newOwner (o : Owner)
  | nextRecord (o : Owner) (n : Nat)
  | readerNextBatch (r n : Nat)
  | writerNextBatch (w n : Nat)
  | asNumpy (batch n : Nat)
  | takeRef (x : MemoryObject)
  | dropRef (x : MemoryObject)
deriving Repr, DecidableEq

/-- A new object with one reference to it. -/
def MemoryState.create (s : MemoryState) (x : MemoryObject) : MemoryState :=
  { s with created := x :: s.created, heap := s.heap.take x }

/-- A new object that denotes record memory of `o`. -/
def MemoryState.produce (s : MemoryState) (x : MemoryObject) (o : Owner) :
    MemoryState :=
  { s.create x with producer := Function.update s.producer x (some o) }

/-- `nurse` keeps `patient` alive from now on. -/
def MemoryState.keep (s : MemoryState) (nurse patient : MemoryObject) :
    MemoryState :=
  { s with heap := s.heap.keep nurse patient }

/-- One operation.  Python code can name an object only through a reference
it has. -/
def MemoryState.step (s : MemoryState) : MemoryAction → Option MemoryState
  | .newOwner o =>
      whenever (.owner o ∉ s.created) (s.create (.owner o))
  | .nextRecord o n =>
      whenever (s.heap.Referenced (.owner o) ∧ .record n ∉ s.created)
        ((s.produce (.record n) o).keep (.record n) (.owner o))
  | .readerNextBatch r n =>
      whenever (s.heap.Referenced (.owner (.reader r)) ∧
          .readerArray n ∉ s.created)
        ((s.produce (.readerArray n) (.reader r)).keep (.readerArray n)
          (.owner (.reader r)))
  | .writerNextBatch w n =>
      whenever (s.heap.Referenced (.owner (.writer w)) ∧
          .writeBatch n ∉ s.created)
        (s.produce (.writeBatch n) (.writer w))
  | .asNumpy batch n =>
      if s.heap.Referenced (.writeBatch batch) ∧ .batchArray n ∉ s.created then
        (s.producer (.writeBatch batch)).map fun o =>
          (s.produce (.batchArray n) o).keep (.batchArray n)
            (.writeBatch batch)
      else none
  | .takeRef x =>
      whenever (s.heap.Referenced x) { s with heap := s.heap.take x }
  | .dropRef x =>
      whenever (s.heap.Referenced x) { s with heap := s.heap.drop x }

/-- Every live object that denotes record memory has the reader or writer that
produced it alive. -/
def MemoryState.Safe (s : MemoryState) : Prop :=
  ∀ x o, s.producer x = some o → s.heap.Alive x → s.heap.Alive (.owner o)

end CycFlowPy.RecordMemory
