/-
Module: CycFlowPy.Model.SnapshotRace
Purpose: `RecBuffer.snapshot` called by any number of threads while others
  push records into the buffer.
Trusted boundary: a push, `size` and `readRelative` are each one step on the
  records of the buffer; a push that does not fit overwrites the oldest records
Main exports: SnapshotPoint, RaceState, RaceAction, RaceState.step, pushedIn,
  RegularSnapshot
-/
import CycFlowPy.Lib.Ring
import CycFlowPy.Lib.Runs
import CycFlowPy.Model.RecordPaths
import Mathlib.Logic.Function.Basic

namespace CycFlowPy.SnapshotRace

open Numpy Runs Slices

/-!
`snapshot` asks for the size, makes an array of that size, and lets
`readRelative` fill it without the GIL.  The threads that push need no GIL, so
that the buffer may have other records by then.

[SRC src/bind_buffer.cpp:138-151]
[SRC tests/test_core.py:142-174]
-/

/-- Where the last call of a thread is.  `overread` is a `readRelative` of more
records than there are. -/
inductive SnapshotPoint where
  | idle
  | sized (n : Nat)
  | returned (array : StructuredArray)
  | raised (error : PyError)
  | overread
deriving Repr, DecidableEq

/-- `records` are the bytes of the records in the buffer, oldest first. -/
structure RaceState where
  records : List (List UInt8) := []
  calls : Nat → SnapshotPoint := fun _ => .idle

/-- `memory` is what `np.empty` finds. -/
inductive RaceAction where
  | push (data : List (List UInt8))
  | size (thread : Nat)
  | readRelative (thread : Nat) (memory : Nat → UInt8)

/-- What the rest of a call reads of the buffer, after it has got `n` as the
size. -/
def RaceState.reads (s : RaceState) (rule : RecRule) (n : Nat) :
    BufferReads where
  getRule := rule
  size := n
  readRelative := fun start count => (slice s.records start count).flatten
  nextBatches := []

section Race

variable (types : CycTypes) (rule : RecRule) (capacity : Nat)

/-- The rest of a call that has got `n` as the size. -/
def RaceState.rest (s : RaceState) (n : Nat) (memory : Nat → UInt8) :
    SnapshotPoint :=
  if n ≤ s.records.length then
    match (s.reads rule n).snapshot types memory with
    | .ok array => .returned array
    | .error error => .raised error
  else .overread

def RaceState.step (s : RaceState) : RaceAction → Option RaceState
  | .push data =>
      whenever (∀ record ∈ data, record.length = rule.recSize)
        { s with records := (s.records ++ data).rtake capacity }
  | .size i =>
      match s.calls i with
      | .sized _ => none
      | _ => some { s with
          calls := Function.update s.calls i (.sized s.records.length) }
  | .readRelative i memory =>
      match s.calls i with
      | .sized n => some { s with
          calls := Function.update s.calls i (s.rest types rule n memory) }
      | _ => none

end Race

/-! ### What a snapshot may hold -/

/-- All records pushed, in order. -/
def pushedIn (actions : List RaceAction) : List (List UInt8) :=
  actions.flatMap fun action =>
    match action with
    | .push data => data
    | _ => []

/-- The thread that performs a step of a call. -/
def RaceAction.caller : RaceAction → Option Nat
  | .push _ => none
  | .size i => some i
  | .readRelative i _ => some i

/-- The rows of a snapshot whose size was taken after `before` and whose
records were read after `middle` as well. -/
structure RegularSnapshot (capacity : Nat) (before middle : List RaceAction)
    (rows : List (List UInt8)) : Prop where
  /-- The oldest records that the buffer has in the end, as many as it had in
  the beginning. -/
  valid : rows <+: (pushedIn (before ++ middle)).rtake capacity
  sized : rows.length = ((pushedIn before).rtake capacity).length
  /-- What the buffer has from the beginning to the end. -/
  complete : (pushedIn before).drop
    ((pushedIn (before ++ middle)).length - capacity) <+: rows
  /-- The records of one moment, unless the buffer was neither empty nor full
  and was overrun. -/
  atOnce : (pushedIn before = [] ∨ capacity ≤ (pushedIn before).length ∨
      (pushedIn (before ++ middle)).length ≤ capacity) →
    ∃ moment, moment <+: middle ∧
      rows = (pushedIn (before ++ moment)).rtake capacity
  /-- Otherwise those of no moment, if all records differ. -/
  never : (pushedIn (before ++ middle)).Nodup →
    ∀ moment, moment <+: middle →
      rows = (pushedIn (before ++ moment)).rtake capacity →
      pushedIn before = [] ∨ capacity ≤ (pushedIn before).length ∨
        (pushedIn (before ++ middle)).length ≤ capacity

end CycFlowPy.SnapshotRace
