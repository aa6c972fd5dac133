/-
Module: CycFlowPy.Model.Stream
Purpose: The async generator `stream()` together with the parties it runs
  against: the receiver that pushes, the client callback, the event loop's
  callback queue and the reader's prefetch worker.
Trusted boundary: the behaviour of CycLib and asyncio is that of the guards of
  the steps below
Main exports: ReaderKind, GeneratorPoint, StreamState, StreamAction,
  StreamState.step, StreamState.connected
-/
import CycFlowPy.Lib.Runs

namespace CycFlowPy.Stream

open Runs

/-!
`stream()` is one coroutine on the event loop.  The model starts where
`rx.connect` has returned true and gives every other party its own steps:

* the receiver pushes records and may stop; each push calls the registered
  `BufferClient` later, from the pushing thread;
* the client's callback queues `event.set` on the loop
  (`loop.call_soon_threadsafe`);
* a queued loop callback runs only while the generator is suspended, at its
  `yield` or in `event.wait()`, because the loop has one thread;
* the `RecordReader` copies pushed records ahead of `next_batch`.

[SRC python/cycflow/__init__.py:253-289]
-/

/-- What `next_batch(k, False)` can hand out: every record pushed so far, or
only those the reader's own worker has prefetched. -/
inductive ReaderKind where
  | immediate
  | prefetching
deriving Repr, DecidableEq

/-- The source position the generator is at.  It is suspended at `yielded`
(its `yield b`) and at `waiting` (`asyncio.wait_for(event.wait(), ...)`); every
other position is about to be executed without giving up the loop's thread. -/
inductive GeneratorPoint where
  | getBuffer
  | addClient
  | makeReader
  | testRunning
  | nextBatch
  | yielded
  | clearEvent
  | waiting
  | ended
deriving Repr, DecidableEq

def GeneratorPoint.suspended : GeneratorPoint → Bool
  | .yielded | .waiting | .ended => true
  | _ => false

def GeneratorPoint.hasReader : GeneratorPoint → Bool
  | .getBuffer | .addClient | .makeReader => false
  | _ => true

/-- Joint state of the generator and its environment over records of type `ρ`:
the records the receiver has pushed and how many of them the reader's worker
has copied, `rx.is_running()`, whether the client is registered, the pushes
whose callback has not been dispatched, the `event.set` callbacks queued on the
loop, the event's flag, and the batches yielded so far. -/
structure StreamState (ρ : Type) where
  pushed : List ρ := []
  prefetched : Nat := 0
  running : Bool := true
  registered : Bool := false
  undispatched : Nat := 0
  queued : Nat := 0
  event : Bool := false
  point : GeneratorPoint := .getBuffer
  yielded : List (List ρ) := []
deriving Repr, DecidableEq

/-- The state in which `rx.connect` has just returned true. -/
def StreamState.connected (ρ : Type) : StreamState ρ := {}

variable {ρ : Type}

def StreamState.delivered (s : StreamState ρ) : List ρ :=
  s.yielded.flatten

/-- How many of the pushed records `next_batch` can see. -/
def StreamState.visible (reader : ReaderKind) (s : StreamState ρ) : Nat :=
  match reader with
  | .immediate => s.pushed.length
  | .prefetching => s.prefetched

/-- The atomic steps of all parties: the receiver (`push`, `receiverStop`), the
pushing thread's callback (`dispatch`), the event loop (`runCallback`), the
reader's worker (`prefetch`), and the generator.  `takeBatch` and `batchNone`
are the two answers of `next_batch`, `resume` is the consumer asking for the
next batch. -/
inductive StreamAction (ρ : Type) where
  | push (records : List ρ)
  | receiverStop
  | dispatch
  | runCallback
  | prefetch (count : Nat)
  | getBuffer
  | addClient
  | makeReader
  | testRunning
  | takeBatch (count : Nat)
  | batchNone
  | resume
  | clearEvent
  | wake
  | timeout
deriving Repr, DecidableEq

def StreamAction.isBatchNone : StreamAction ρ → Bool
  | .batchNone => true
  | _ => false

def StreamAction.isPush : StreamAction ρ → Bool
  | .push _ => true
  | _ => false

/-- One step of one party; `none` when it is not enabled. -/
def StreamState.step (reader : ReaderKind) (batchCapacity : Nat)
    (s : StreamState ρ) : StreamAction ρ → Option (StreamState ρ)
  | .push records =>
      whenever (s.running = true ∧ records.isEmpty = false)
        { s with
          pushed := s.pushed ++ records
          undispatched := s.undispatched + s.registered.toNat }
  | .receiverStop =>
      whenever (s.running = true) { s with running := false }
  | .dispatch =>
      whenever (0 < s.undispatched)
        { s with undispatched := s.undispatched - 1, queued := s.queued + 1 }
  | .runCallback =>
      whenever (0 < s.queued ∧ s.point.suspended = true)
        { s with queued := s.queued - 1, event := true }
  | .prefetch count =>
      whenever (s.point.hasReader = true ∧
          s.prefetched + count ≤ s.pushed.length)
        { s with prefetched := s.prefetched + count }
  | .getBuffer =>
      whenever (s.point = .getBuffer) { s with point := .addClient }
  | .addClient =>
      whenever (s.point = .addClient)
        { s with registered := true, point := .makeReader }
  | .makeReader =>
      whenever (s.point = .makeReader) { s with point := .testRunning }
  | .testRunning =>
      whenever (s.point = .testRunning)
        { s with point := if s.running then .nextBatch else .ended }
  | .takeBatch count =>
      whenever (s.point = .nextBatch ∧ 0 < count ∧ count ≤ batchCapacity ∧
          s.delivered.length + count ≤ s.visible reader)
        { s with
          yielded :=
            s.yielded ++ [(s.pushed.drop s.delivered.length).take count]
          point := .yielded }
  | .batchNone =>
      whenever (s.point = .nextBatch ∧
          s.visible reader ≤ s.delivered.length)
        { s with point := .clearEvent }
  | .resume =>
      whenever (s.point = .yielded) { s with point := .nextBatch }
  | .clearEvent =>
      whenever (s.point = .clearEvent)
        { s with event := false, point := .waiting }
  | .wake =>
      whenever (s.point = .waiting ∧ s.event = true)
        { s with point := .testRunning }
  | .timeout =>
      whenever (s.point = .waiting) { s with point := .testRunning }

/-- What every party may rely on, whichever reader is used: batches are cut
from the pushed records in order, and the reader runs between the generator
and the receiver. -/
structure StreamState.Consistent (reader : ReaderKind) (s : StreamState ρ) :
    Prop where
  inOrder : s.delivered <+: s.pushed
  behindReader : s.delivered.length ≤ s.visible reader
  behindReceiver : s.prefetched ≤ s.pushed.length
  registered :
    s.point.hasReader = true ∨ s.point = .makeReader → s.registered = true

end CycFlowPy.Stream
