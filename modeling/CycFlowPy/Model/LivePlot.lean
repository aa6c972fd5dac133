/-
Module: CycFlowPy.Model.LivePlot
Purpose: The live plot: a task that pumps the batches of `stream()` into a
  queue, and the frames that drain the queue into a bounded history.
Trusted boundary: the event loop runs between two frames only, and matplotlib
  draws one frame after the other
Main exports: PlotState, PlotAction, PlotState.step, PlotAction.ofStream
-/
import CycFlowPy.Model.Channel
import CycFlowPy.Model.Stream

namespace CycFlowPy.LivePlot

open Runs CycFlowPy.Stream

/-!
`pump` is the consumer of `stream()`: it puts every batch into an unbounded
queue before it asks for the next one.  A frame runs the event loop until its
tasks wait, then `update` takes what is in the queue.

[SRC examples/live_plot.py:19-23]
[SRC examples/live_plot.py:34-55]
-/

/-- `WINDOW`. -/
def window : Nat := 2000

variable {ρ α : Type}

/-- The generator and its parties, the batches in the queue, oldest first, the
array `history`, and the points of the line. -/
structure PlotState (ρ α : Type) where
  stream : StreamState ρ := StreamState.connected ρ
  queue : List (List ρ) := []
  history : List α := []
  line : List (Nat × α) := []
deriving Repr, DecidableEq

/-- A step of the generator or of a party of it, `queue.put` and the request
for the next batch, and `update`. -/
inductive PlotAction (ρ : Type) where
  | stream (action : StreamAction ρ)
  | put
  | update
deriving Repr, DecidableEq

/-- `history` after a batch. -/
def concatenate (voltage : ρ → α) (history : List α) (batch : List ρ) :
    List α :=
  history ++ batch.map voltage

/-- `if len(history) > WINDOW: history = history[-WINDOW:]`. -/
def trim (history : List α) : List α :=
  if window < history.length then Viewer.lastElements history window
  else history

/-- `np.arange(len(history)), history`. -/
def points (history : List α) : List (Nat × α) :=
  (List.range history.length).zip history

/-- A frame is drawn while the pump waits for the generator. -/
def betweenFrames : GeneratorPoint → Bool
  | .waiting | .ended => true
  | _ => false

/-- One step; `voltage` is the field `"Voltage"` of a record. -/
def PlotState.step (reader : ReaderKind) (batchCapacity : Nat)
    (voltage : ρ → α) (s : PlotState ρ α) :
    PlotAction ρ → Option (PlotState ρ α)
  | .stream .resume => none
  | .stream action => do
      let stream ← s.stream.step reader batchCapacity action
      return { s with stream := stream }
  | .put => do
      let batch ← s.stream.yielded.getLast?
      let stream ← s.stream.step reader batchCapacity .resume
      return { s with stream := stream, queue := s.queue ++ [batch] }
  | .update =>
      let history := trim (s.queue.foldl (concatenate voltage) s.history)
      whenever (betweenFrames s.stream.point = true)
        { s with queue := [], history := history, line := points history }

/-- What a step is to the generator and its parties. -/
def PlotAction.ofStream : PlotAction ρ → List (StreamAction ρ)
  | .stream action => [action]
  | .put => [.resume]
  | .update => []

end CycFlowPy.LivePlot
