/-
Module: CycFlowPy.Model.RecordPaths
Purpose: The ways record memory goes from Python into a `RecBuffer` and back:
  the write view of a batch, and the three read paths.
Trusted boundary: what CycLib's buffer and reader return for records that
  were committed (`Published`)
Main exports: WriteBatch, WriteBatch.asNumpy, WriteBatch.assign, RecordBatch,
  readerNextBatchView, readerNextBatchCopy, BufferReads.snapshot, Published
-/
import CycFlowPy.Model.NumpyBridge

namespace CycFlowPy.Numpy

open Slices

/-!
`WriteBatch.as_numpy` and `next_batch` of a reader go through
`view_structured`; `next_batch_copy` and `snapshot` copy whole records into a
new array of the rule's dtype.

[SRC src/bind_writer.cpp:93-110]
[SRC src/bind_buffer.cpp:71-97]
[SRC src/bind_buffer.cpp:138-151]
-/

/-- Room for `capacity` records of the rule. -/
structure WriteBatch where
  rule : RecRule
  capacity : Nat
  data : List UInt8
  sized : data.length = capacity * rule.recSize

def WriteBatch.asNumpy (types : CycTypes) (batch : WriteBatch) :
    Except PyError StructuredArray :=
  viewStructured types batch.rule batch.data batch.capacity

/-- An element assignment through the write view, which shares the memory of
the batch; `none` where numpy refuses it. -/
def WriteBatch.assign (types : CycTypes) (batch : WriteBatch)
    (a : Assignment) : Option WriteBatch := do
  let view ← (batch.asNumpy types).toOption
  let written ← view.assign a
  if sized : written.data.length = batch.capacity * batch.rule.recSize then
    some { batch with data := written.data, sized := sized }
  else none

/-- A valid batch of a reader. -/
structure RecordBatch where
  rule : RecRule
  data : List UInt8
  count : Nat
  recordSize : Nat
deriving Repr, DecidableEq

def readerNextBatchView (types : CycTypes) (batch : RecordBatch) :
    Except PyError StructuredArray :=
  viewStructured types batch.rule batch.data batch.count

/-- `count` bytes copied to the start of an array. -/
def memcpy (array : StructuredArray) (source : List UInt8) (count : Nat) :
    StructuredArray :=
  { array with data := patch array.data 0 (source.take count) }

def readerNextBatchCopy (types : CycTypes) (memory : Nat → UInt8)
    (batch : RecordBatch) : Except PyError StructuredArray := do
  let dtype ← dtypeFromRule types batch.rule
  let array := npEmpty memory batch.count dtype
  return memcpy array batch.data (batch.count * batch.recordSize)

/-- What reading a buffer returns: its rule, its size, the bytes of `count`
records from a position on (`readRelative`), and the valid batches that
successive calls of a reader's `nextBatch` hand out. -/
structure BufferReads where
  getRule : RecRule
  size : Nat
  readRelative : Nat → Nat → List UInt8
  nextBatches : List RecordBatch

def BufferReads.snapshot (types : CycTypes) (memory : Nat → UInt8)
    (buffer : BufferReads) : Except PyError StructuredArray := do
  let n := buffer.size
  let dtype ← dtypeFromRule types buffer.getRule
  let array := npEmpty memory n dtype
  if 0 < n then
    return memcpy array (buffer.readRelative 0 n)
      (n * buffer.getRule.recSize)
  else return array

/-- Committing the first `m` records of the batch into a fresh buffer that has
room for them publishes these records: the buffer retains them, and its reader
hands them out in order, each in one batch. -/
structure Published (batch : WriteBatch) (m : Nat) (buffer : BufferReads) :
    Prop where
  rule : buffer.getRule = batch.rule
  size : buffer.size = m
  retained : buffer.readRelative 0 m =
    batch.data.take (m * batch.rule.recSize)
  batchRule : ∀ out ∈ buffer.nextBatches,
    out.rule = batch.rule ∧ out.recordSize = batch.rule.recSize ∧
      out.data.length = out.count * batch.rule.recSize
  batchCounts : (buffer.nextBatches.map (·.count)).sum = m
  batchData : buffer.nextBatches.flatMap (·.data) =
    batch.data.take (m * batch.rule.recSize)

end CycFlowPy.Numpy
