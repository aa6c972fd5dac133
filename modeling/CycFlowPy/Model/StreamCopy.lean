/-
Module: CycFlowPy.Model.StreamCopy
Purpose: What a consumer of `stream()` reads of the batches that are yielded,
  with `copy=True` and with `copy=False`.
Trusted boundary: a view shows its batch until the reader's next call of
  `nextBatch`, and any bytes after it, as the reader's documentation says
Main exports: ConsumerStep, copiedReads, YieldedView, viewedReads, Prompt,
  FromReader
-/
import CycFlowPy.Model.RecordPaths

namespace CycFlowPy.Numpy

/-!
`stream()` takes `reader.next_batch_copy` or `reader.next_batch` for its
`next_batch`, and yields what that returns.

[SRC python/cycflow/__init__.py:240-289]
[SRC src/bind_buffer.cpp:71-97]
[SRC src/bind_buffer.cpp:154-159]
-/

/-- The generator calls `next_batch`, which returns a batch that it yields or
nothing; or the consumer reads an element of a batch that was yielded. -/
inductive ConsumerStep where
  | next (batch : Option RecordBatch)
  | read (yielded row : Nat) (name : String) (element : Nat)
deriving Repr, DecidableEq

/-- The bytes of an element of an array, if there are both. -/
def readOf (array : Option StructuredArray) (row : Nat) (name : String)
    (element : Nat) : Option (List UInt8) :=
  array.bind fun array => array.read row name element

section Modes

variable (types : CycTypes)

/-- The reads with `copy=True`, from the arrays that were yielded on; `memory`
is what `np.empty` finds for each array. -/
def copiedReads (memory : Nat → Nat → UInt8) :
    List StructuredArray → List ConsumerStep →
      Except PyError (List (Option (List UInt8)))
  | _, [] => .ok []
  | arrays, .next none :: steps => copiedReads memory arrays steps
  | arrays, .next (some batch) :: steps => do
      let array ← readerNextBatchCopy types (memory arrays.length) batch
      copiedReads memory (arrays ++ [array]) steps
  | arrays, .read yielded row name element :: steps => do
      let rest ← copiedReads memory arrays steps
      return readOf arrays[yielded]? row name element :: rest

/-- A view, with the number of the call of `next_batch` that returned it. -/
structure YieldedView where
  array : StructuredArray
  call : Nat
deriving Repr, DecidableEq

/-- The view after that many calls; `later` is what the memory of a batch holds
after further ones. -/
def YieldedView.now (later : Nat → Nat → List UInt8) (calls : Nat)
    (view : YieldedView) : StructuredArray :=
  if view.call = calls then view.array
  else { view.array with data := later view.call calls }

/-- The reads with `copy=False`. -/
def viewedReads (later : Nat → Nat → List UInt8) :
    Nat → List YieldedView → List ConsumerStep →
      Except PyError (List (Option (List UInt8)))
  | _, _, [] => .ok []
  | calls, views, .next none :: steps =>
      viewedReads later (calls + 1) views steps
  | calls, views, .next (some batch) :: steps => do
      let array ← readerNextBatchView types batch
      viewedReads later (calls + 1)
        (views ++ [{ array := array, call := calls + 1 }]) steps
  | calls, views, .read yielded row name element :: steps => do
      let rest ← viewedReads later calls views steps
      return readOf (views[yielded]?.map (·.now later calls)) row name
        element :: rest

end Modes

/-- The batches of the steps are valid batches of a reader of the rule. -/
def FromReader (rule : RecRule) (steps : List ConsumerStep) : Prop :=
  ∀ batch, .next (some batch) ∈ steps →
    batch.rule = rule ∧ batch.recordSize = rule.recSize ∧
      batch.data.length = batch.count * rule.recSize

/-- The field, row and element are there in the batch. -/
def RecRule.HasElement (rule : RecRule) (batch : RecordBatch) (row : Nat)
    (name : String) (element : Nat) : Prop :=
  row < batch.count ∧ ∃ attr ∈ rule.attributes,
    isDtypeMappable attr.type = true ∧ attr.name = name ∧ element < attr.count

/-- Every element that is read is one of the batch yielded last, and
`next_batch` was not called since; `live` says that the last call returned a
batch. -/
def Prompt (rule : RecRule) :
    List RecordBatch → Bool → List ConsumerStep → Prop
  | _, _, [] => True
  | batches, _, .next none :: steps => Prompt rule batches false steps
  | batches, _, .next (some batch) :: steps =>
      Prompt rule (batches ++ [batch]) true steps
  | batches, live, .read yielded row name element :: steps =>
      (∀ batch, batches[yielded]? = some batch →
        rule.HasElement batch row name element →
          live = true ∧ yielded + 1 = batches.length) ∧
      Prompt rule batches live steps

end CycFlowPy.Numpy
