/-
Module: CycFlowPy.Model.CbfArray
Purpose: `read_cbf_to_array` with the two background threads it runs against:
  the `CbfReader` that pushes the file's records and the worker of the
  `RecordReader`.
Trusted boundary: the behaviour of CycLib is that of the guards of the steps
  below
Main exports: DrainPoint, DrainState, DrainAction, DrainState.step,
  readCbfToArray, DrainState.result
-/
import CycFlowPy.Lib.Runs

namespace CycFlowPy.CbfArray

open Runs

/-!
The drain loop looks at three things at three different moments: the batch the
reader hands out, `cbf.isRunning()` and `buf->size()`.  Between any two of them
the producer may push or stop and the reader's worker may copy records.

[SRC src/bind_cbf.cpp:140-180]
-/

/-- Where the drain loop stands: an iteration begins at `nextBatch` and may
reach the two halves of the exit test; it is over once the batch is appended,
in `sleep_for(500us)`, or at the `break`. -/
inductive DrainPoint where
  | nextBatch
  | testRunning
  | testSize
  | appended
  | sleeping
  | broke
deriving Repr, DecidableEq

def DrainPoint.iterationOver : DrainPoint → Bool
  | .appended | .sleeping | .broke => true
  | _ => false

/-- Joint state of the loop and the background threads: how many of the file's
records have been pushed into the ring, `cbf.isRunning()`, how many records the
reader's worker has copied out of the ring, and the arrays in `parts`. -/
structure DrainState (ρ : Type) where
  written : Nat := 0
  running : Bool := true
  prefetched : Nat := 0
  point : DrainPoint := .nextBatch
  parts : List (List ρ) := []
deriving Repr, DecidableEq

variable {ρ : Type}

/-- `CbfReader cbf(path, batch_capacity * 4, true, batch_capacity)`. -/
def ringCapacity (batchCapacity : Nat) : Nat :=
  batchCapacity * 4

/-- `buf->size()`: the number of records retained in the ring. -/
def DrainState.size (batchCapacity : Nat) (s : DrainState ρ) : Nat :=
  min s.written (ringCapacity batchCapacity)

def DrainState.received (s : DrainState ρ) : List ρ :=
  s.parts.flatten

/-- The atomic steps of the producer (`push`, `producerStop`), of the reader's
worker (`prefetch`) and of the loop.  `takeBatch` and `batchInvalid` are the
two outcomes of `nextBatch`, `again` begins the next iteration. -/
inductive DrainAction where
  | push (count : Nat)
  | producerStop
  | prefetch (count : Nat)
  | takeBatch (count : Nat)
  | batchInvalid
  | testRunning
  | testSize
  | again
deriving Repr, DecidableEq

/-- One step over the file's records; `none` when it is not enabled.  A push
waits until the ring has room for records the reader's worker has not copied. -/
def DrainState.step (file : List ρ) (batchCapacity : Nat) (s : DrainState ρ) :
    DrainAction → Option (DrainState ρ)
  | .push count =>
      whenever (s.running = true ∧ s.written + count ≤ file.length ∧
          s.written + count ≤ s.prefetched + ringCapacity batchCapacity)
        { s with written := s.written + count }
  | .producerStop =>
      whenever (s.running = true ∧ s.written = file.length)
        { s with running := false }
  | .prefetch count =>
      whenever (s.prefetched + count ≤ s.written)
        { s with prefetched := s.prefetched + count }
  | .takeBatch count =>
      whenever (s.point = .nextBatch ∧ 0 < count ∧ count ≤ batchCapacity ∧
          s.received.length + count ≤ s.prefetched)
        { s with
          parts := s.parts ++ [(file.drop s.received.length).take count]
          point := .appended }
  | .batchInvalid =>
      whenever (s.point = .nextBatch ∧ s.prefetched ≤ s.received.length)
        { s with point := .testRunning }
  | .testRunning =>
      whenever (s.point = .testRunning)
        { s with point := if s.running then .sleeping else .testSize }
  | .testSize =>
      whenever (s.point = .testSize)
        { s with
          point := if s.size batchCapacity = 0 then .broke else .sleeping }
  | .again =>
      whenever (s.point = .appended ∨ s.point = .sleeping)
        { s with point := .nextBatch }

/-- The start of `read_cbf_to_array` over what the file at `path` holds, or
the error for a file that cannot be opened. -/
def readCbfToArray (path : String) (cbf : Option (List ρ)) :
    Except String (List ρ × DrainState ρ) :=
  match cbf with
  | none => .error ("CbfReader: cannot open '" ++ path ++ "'")
  | some file => .ok (file, {})

/-- What the function returns after its loop: `np.empty(0)` when there are no
parts, their concatenation otherwise. -/
def DrainState.result (s : DrainState ρ) : List ρ :=
  if s.parts.isEmpty then [] else s.parts.flatten

theorem DrainState.result_eq (s : DrainState ρ) : s.result = s.received := by
  unfold DrainState.result DrainState.received
  cases s.parts with
  | nil => rfl
  | cons first rest => rfl

end CycFlowPy.CbfArray
