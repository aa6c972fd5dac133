/-
Module: CycFlowPy.Model.Publish
Purpose: `publish_dataframe`: the loop that fills writer batches from a
  structured array and commits them, and numpy's assignment of one structured
  array to a slice of another.
Trusted boundary: numpy's cast of one scalar or subarray type to another
Main exports: Column, ColumnArray, NumpyCast, storeFields, assignSlice,
  WriterBatch, Commit, PublishResult, publishFrom, publishDataframe,
  ColumnArray.ofArray
-/
import CycFlowPy.Model.RecordPaths

namespace CycFlowPy.Numpy

open Slices

/-!
The loop asks the writer for the remaining number of records, fills as much of
the batch as there is left and commits it.  `view[:n] = arr[pos : pos + n]`
pairs the fields of the two arrays by position, whatever their names.

[SRC python/cycflow/__init__.py:200-233]
-/

/-- One column of the input: a field of a structured array, or of the records
of a DataFrame. -/
structure Column where
  name : String
  format : NumpyFormat
  subarray : Option Nat
deriving Repr, DecidableEq

def Column.size (column : Column) : Nat :=
  column.format.itemSize * column.subarray.getD 1

/-- The column that holds the values of a field. -/
def DtypeField.column (field : DtypeField) : Column where
  name := field.name
  format := field.format
  subarray := field.subarray

/-- A row: the bytes of one value for every column. -/
abbrev Row := List (List UInt8)

/-- The structured array `arr`. -/
structure ColumnArray where
  columns : List Column
  rows : List Row
  typed : ∀ row ∈ rows,
    List.Forall₂ (fun column value => value.length = Column.size column)
      columns row

/-- `arr[name][k]` for the row `k`. -/
def valueOf (columns : List Column) (row : Row) (name : String) :
    Option (List UInt8) :=
  ((columns.zip row).find? fun entry => entry.1.name = name).map (·.2)

/-- numpy's cast of a column's value to the type of a field.  It does not
look at the names, and does nothing when the types are the same. -/
structure NumpyCast where
  cast : Column → DtypeField → List UInt8 → List UInt8
  width : ∀ column field value, (cast column field value).length = field.size
  same : ∀ column field value, column.format = field.format →
    column.subarray = field.subarray → value.length = field.size →
      cast column field value = value

/-- One record assigned from one row: the i-th value is cast into the i-th
field. -/
def storeFields (numpy : NumpyCast) :
    List DtypeField → List Column → Row → List UInt8 → List UInt8
  | field :: fields, column :: columns, value :: row, record =>
      storeFields numpy fields columns row
        (patch record field.offset (numpy.cast column field value))
  | _, _, _, record => record

/-- The records from number `first` on assigned from the rows. -/
def storeRows (numpy : NumpyCast) (dtype : Dtype) (columns : List Column) :
    Nat → List Row → List UInt8 → List UInt8
  | _, [], data => data
  | first, row :: rows, data =>
      storeRows numpy dtype columns (first + 1) rows
        (patch data (first * dtype.itemSize)
          (storeFields numpy dtype.fields columns row
            (slice data (first * dtype.itemSize) dtype.itemSize)))

/-- `view[:n] = arr[pos : pos + n]` for a contiguous view; numpy raises when
the numbers of fields differ. -/
def assignSlice (numpy : NumpyCast) (input : ColumnArray)
    (view : StructuredArray) (pos n : Nat) :
    Except PyError StructuredArray :=
  if input.columns.length = view.dtype.fields.length then
    .ok { view with
      data := storeRows numpy view.dtype input.columns 0
        ((input.rows.drop pos).take n) view.data }
  else .error .valueError

/-- A valid batch of a writer of the rule has room for a record. -/
structure WriterBatch (writerRule : RecRule) extends WriteBatch where
  ofRule : rule = writerRule
  positive : 1 ≤ capacity

/-- A batch committed with `count` records, filled from the rows of the input
from `first` on. -/
structure Commit where
  first : Nat
  count : Nat
  view : StructuredArray
deriving Repr, DecidableEq

/-- The records that `commit_batch(count)` publishes. -/
def Commit.records (commit : Commit) : List (List UInt8) :=
  commit.view.records.take commit.count

/-- What a call has committed, and the number it returns or the exception it
raises. -/
structure PublishResult where
  commits : List Commit := []
  outcome : Except PyError Nat
deriving Repr

def PublishResult.records (result : PublishResult) : List (List UInt8) :=
  result.commits.flatMap Commit.records

section Loop

variable (types : CycTypes) {rule : RecRule}
variable (assign : StructuredArray → Nat → Nat → Except PyError StructuredArray)
variable (writer : Nat → Option (WriterBatch rule))

/-- The loop.  `writer call` is what the writer's `next_batch` returns when it
is called for the time `call`, `none` for a batch that is not valid; `fuel`
bounds the number of iterations, and a loop that needs more has no result. -/
def publishFrom : Nat → Nat → Nat → Nat → List Commit → Option PublishResult
  | 0, _, _, _, _ => none
  | fuel + 1, call, pos, remaining, commits =>
      if remaining = 0 then some { commits := commits, outcome := .ok pos }
      else match writer call with
      | none => some { commits := commits, outcome := .ok pos }
      | some batch =>
          match batch.asNumpy types with
          | .error error => some { commits := commits, outcome := .error error }
          | .ok view =>
              let n := min view.count remaining
              match assign view pos n with
              | .error error =>
                  some { commits := commits, outcome := .error error }
              | .ok filled =>
                  publishFrom fuel (call + 1) (pos + n) (remaining - n)
                    (commits ++ [{ first := pos, count := n, view := filled }])

/-- `publish_dataframe` for an input of `total` rows. -/
def publishDataframe (total : Nat) : Option PublishResult :=
  if total = 0 then some { outcome := .ok 0 }
  else publishFrom types assign writer (total + 1) 0 0 total []

end Loop

/-! ### Structured arrays as input -/

/-- `np.asarray(df)` of a structured array: its fields are the columns, and
the fields of a record are a row. -/
def ColumnArray.ofArray (array : StructuredArray)
    (sized : ∀ record ∈ array.records, ∀ field ∈ array.dtype.fields,
      field.offset + field.size ≤ record.length) : ColumnArray where
  columns := array.dtype.fields.map DtypeField.column
  rows := array.records.map fun record =>
    array.dtype.fields.map fun field => slice record field.offset field.size
  typed := by
    intro row member
    rcases List.mem_map.mp member with ⟨record, inArray, rfl⟩
    rw [List.forall₂_map_left_iff, List.forall₂_map_right_iff,
      List.forall₂_same]
    intro field ofArray
    exact length_slice (sized record inArray field ofArray)

end CycFlowPy.Numpy
