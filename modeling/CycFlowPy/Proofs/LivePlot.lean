/-
Module: CycFlowPy.Proofs.LivePlot
Purpose: Every frame of the live plot shows the last records that the stream
  has yielded, as the viewer's ring would that is fed with the same batches.
Trusted boundary: none
Main exports: PlotState.Draws, PlotState.Draws.step, run_ofStream,
  channel_of_batches, frame_shows_latest
-/
import CycFlowPy.Model.LivePlot
import CycFlowPy.Proofs.ChannelHistory
import CycFlowPy.Proofs.StreamDelivery

namespace CycFlowPy.LivePlot

open Runs CycFlowPy.Stream Viewer

variable {ρ α : Type} {reader : ReaderKind} {batchCapacity : Nat}
  {voltage : ρ → α}

/-! ### The batches between the generator and the plot -/

/-- The batch that the generator has yielded and the pump has not put into the
queue yet. -/
def pendingBatch (stream : StreamState ρ) : List (List ρ) :=
  if stream.point = .yielded then stream.yielded.getLast?.toList else []

/-- A step of the generator or of a party of it yields a batch or leaves the
yielded batches and the point of the `yield` alone. -/
theorem yielded_step {s t : StreamState ρ} {action : StreamAction ρ}
    (notResume : action ≠ .resume)
    (next : s.step reader batchCapacity action = some t) :
    (t.yielded = s.yielded ∧ pendingBatch t = pendingBatch s) ∨
      ∃ batch, t.yielded = s.yielded ++ [batch] ∧ pendingBatch s = [] ∧
        pendingBatch t = [batch] := by
  cases action with
  | takeBatch count =>
      simp only [StreamState.step, whenever_eq_some] at next
      rcases next with ⟨⟨atNext, _⟩, rfl⟩
      right
      exact ⟨_, rfl, by simp [pendingBatch, atNext], by simp [pendingBatch]⟩
  | resume => exact absurd rfl notResume
  | push | receiverStop | dispatch | runCallback | prefetch =>
      simp only [StreamState.step, whenever_eq_some] at next
      rcases next with ⟨_, rfl⟩
      exact .inl ⟨rfl, rfl⟩
  | getBuffer | addClient | makeReader | batchNone | clearEvent | wake
  | timeout =>
      simp only [StreamState.step, whenever_eq_some] at next
      rcases next with ⟨guard, rfl⟩
      exact .inl ⟨rfl, by simp [pendingBatch, guard]⟩
  | testRunning =>
      simp only [StreamState.step, whenever_eq_some] at next
      rcases next with ⟨atTest, rfl⟩
      left
      refine ⟨rfl, ?_⟩
      cases running : s.running with
      | true => simp [pendingBatch, atTest]
      | false => simp [pendingBatch, atTest]

/-! ### The history is a window over what was taken from the queue -/

theorem trim_eq (history : List α) : trim history = history.rtake window := by
  unfold trim
  split
  · rfl
  · exact (Ring.rtake_of_length_le (Nat.le_of_not_lt ‹_›)).symm

theorem foldl_concatenate (history : List α) (batches : List (List ρ)) :
    batches.foldl (concatenate voltage) history =
      history ++ batches.flatten.map voltage := by
  induction batches generalizing history with
  | nil => simp
  | cons batch batches inductionHypothesis =>
      rw [List.foldl_cons, inductionHypothesis, concatenate,
        List.flatten_cons, List.map_append, List.append_assoc]

/-- The batches that were drawn, those in the queue and the one on its way
are the ones yielded, and the history is the end of what was drawn. -/
structure PlotState.Draws (voltage : ρ → α) (s : PlotState ρ α)
    (drawn : List (List ρ)) : Prop where
  inOrder : s.stream.yielded = drawn ++ s.queue ++ pendingBatch s.stream
  history : s.history = (drawn.flatten.map voltage).rtake window
  line : s.line = points s.history

theorem draws_start : PlotState.Draws voltage ({} : PlotState ρ α) [] where
  inOrder := rfl
  history := (List.rtake_nil _).symm
  line := rfl

/-- What `update` makes of the history. -/
theorem PlotState.Draws.update {s : PlotState ρ α} {drawn : List (List ρ)}
    (draws : s.Draws voltage drawn) :
    trim (s.queue.foldl (concatenate voltage) s.history) =
      ((drawn ++ s.queue).flatten.map voltage).rtake window := by
  have grown : min window (window + (s.queue.flatten.map voltage).length) =
      window :=
    Nat.min_eq_left (Nat.le_add_right _ _)
  rw [trim_eq, foldl_concatenate, draws.history, Ring.rtake_rtake_append,
    grown, List.flatten_append, List.map_append]

theorem PlotState.Draws.step {s t : PlotState ρ α} {drawn : List (List ρ)}
    {action : PlotAction ρ} (draws : s.Draws voltage drawn)
    (next : s.step reader batchCapacity voltage action = some t) :
    ∃ drawnAfter, t.Draws voltage drawnAfter := by
  cases action with
  | stream action =>
      cases action with
      | resume => cases next
      | push | receiverStop | dispatch | runCallback | prefetch | getBuffer
      | addClient | makeReader | testRunning | takeBatch | batchNone
      | clearEvent | wake | timeout =>
          simp only [PlotState.step, Option.bind_eq_bind,
            Option.bind_eq_some_iff, Option.pure_def,
            Option.some.injEq] at next
          rcases next with ⟨stream, moves, rfl⟩
          refine ⟨drawn, ?_, draws.history, draws.line⟩
          rcases yielded_step (by simp) moves with
            ⟨yielded, pending⟩ | ⟨batch, yielded, before, pending⟩
          · rw [yielded, pending]
            exact draws.inOrder
          · rw [yielded, pending, draws.inOrder, before, List.append_nil]
  | put =>
      simp only [PlotState.step, Option.bind_eq_bind,
        Option.bind_eq_some_iff, Option.pure_def, Option.some.injEq,
        StreamState.step, whenever_eq_some] at next
      rcases next with ⟨batch, last, stream, ⟨yields, rfl⟩, rfl⟩
      refine ⟨drawn, ?_, draws.history, draws.line⟩
      have inOrder := draws.inOrder
      rw [pendingBatch, if_pos yields, last, Option.toList_some] at inOrder
      simpa [pendingBatch] using inOrder
  | update =>
      rcases whenever_eq_some.mp next with ⟨between, rfl⟩
      refine ⟨drawn ++ s.queue, ?_, draws.update, rfl⟩
      simpa using draws.inOrder

theorem PlotState.Draws.run {s t : PlotState ρ α}
    {schedule : List (PlotAction ρ)}
    (draws : ∃ drawn, s.Draws voltage drawn)
    (run : Run (PlotState.step reader batchCapacity voltage) s schedule t) :
    ∃ drawn, t.Draws voltage drawn := by
  apply run.invariant _ draws
  rintro s action t ⟨drawn, draws⟩ next
  exact draws.step next

/-- A run of the plot is a run of the generator and its parties. -/
theorem run_ofStream {s t : PlotState ρ α} {schedule : List (PlotAction ρ)}
    (run : Run (PlotState.step reader batchCapacity voltage) s schedule t) :
    Run (StreamState.step reader batchCapacity) s.stream
      (schedule.flatMap PlotAction.ofStream) t.stream := by
  refine Run.project ?_ run
  intro s action t next
  cases action with
  | stream action =>
      cases action with
      | resume => cases next
      | push | receiverStop | dispatch | runCallback | prefetch | getBuffer
      | addClient | makeReader | testRunning | takeBatch | batchNone
      | clearEvent | wake | timeout =>
          simp only [PlotState.step, Option.bind_eq_bind,
            Option.bind_eq_some_iff, Option.pure_def,
            Option.some.injEq] at next
          rcases next with ⟨stream, moves, rfl⟩
          exact Run.cons_iff.mpr ⟨stream, moves, Run.nil_iff.mpr rfl⟩
  | put =>
      simp only [PlotState.step, Option.bind_eq_bind,
        Option.bind_eq_some_iff, Option.pure_def, Option.some.injEq] at next
      rcases next with ⟨batch, _, stream, moves, rfl⟩
      exact Run.cons_iff.mpr ⟨stream, moves, Run.nil_iff.mpr rfl⟩
  | update =>
      rcases whenever_eq_some.mp next with ⟨_, rfl⟩
      exact Run.nil_iff.mpr rfl

/-! ### The viewer's ring -/

/-- A bounded history that batches were appended to holds the last values. -/
theorem history_appends (batches : List (List α)) {h : History α}
    {before : List α} (holds : h.items = before.rtake h.capacity) :
    let after := (batches.map ChannelOp.append).foldl History.step h
    after.items = (before ++ batches.flatten).rtake h.capacity := by
  induction batches generalizing h before with
  | nil => simpa using holds
  | cons batch batches inductionHypothesis =>
      have appended : (h.step (.append batch)).items =
          (before ++ batch).rtake h.capacity := by
        rw [History.step, holds, Ring.rtake_rtake_append,
          Nat.min_eq_left (Nat.le_add_right _ _)]
      rw [List.flatten_cons, ← List.append_assoc]
      exact inductionHypothesis appended

/-- A `Channel` of the same capacity that every batch was appended to. -/
theorem channel_of_batches (zero : α) {capacity : Nat}
    (positive : 1 ≤ capacity) (batches : List (List α)) :
    ∃ c, Run (Channel.step zero) (Channel.fresh zero capacity)
        (batches.map ChannelOp.append) c ∧
      c.values = batches.flatten.rtake capacity := by
  have valid : ∀ op ∈ batches.map (ChannelOp.append (α := α)), op.Valid := by
    intro op member
    rcases List.mem_map.mp member with ⟨batch, _, rfl⟩
    trivial
  rcases (represents_fresh zero positive).run zero valid with
    ⟨c, run, represents⟩
  have empty : History.items ({ capacity := capacity } : History α) =
      ([] : List α).rtake capacity :=
    (List.rtake_nil _).symm
  refine ⟨c, run, ?_⟩
  rw [represents.values]
  exact history_appends batches empty

/-! ### What a frame shows -/

/-- In every run of the pump, the stream and the plot, a frame draws, numbered
from 0, the voltages of the last 2000 records that the stream has yielded,
which are the records the receiver pushed first, in order.  A `Channel` of that
capacity to which the viewer appends the same batches holds the same values.
When the reader sees what is pushed at once and nothing was pushed since it was
last empty, these are the last records pushed. -/
theorem frame_shows_latest (voltage : ρ → α) (zero : α)
    {schedule : List (PlotAction ρ)} {s t : PlotState ρ α}
    (run : Run (PlotState.step reader batchCapacity voltage) {} schedule s)
    (frame : s.step reader batchCapacity voltage .update = some t) :
    t.line = points ((s.stream.delivered.map voltage).rtake 2000) ∧
      s.stream.delivered <+: s.stream.pushed ∧
      (∃ c, Run (Channel.step zero) (Channel.fresh zero 2000)
          (s.stream.yielded.map fun batch => .append (batch.map voltage)) c ∧
        points c.values = t.line) ∧
      (reader = .immediate →
        noPushSinceNone (schedule.flatMap PlotAction.ofStream) = true →
        t.line = points ((s.stream.pushed.map voltage).rtake 2000)) := by
  rcases PlotState.Draws.run ⟨[], draws_start⟩ run with ⟨drawn, draws⟩
  rcases whenever_eq_some.mp frame with ⟨between, rfl⟩
  have nothingPending : pendingBatch s.stream = [] := by
    cases point : s.stream.point with
    | waiting | ended => simp [pendingBatch, point]
    | getBuffer | addClient | makeReader | testRunning | nextBatch | yielded
    | clearEvent => simp [point, betweenFrames] at between
  have yielded := draws.inOrder
  rw [nothingPending, List.append_nil] at yielded
  have latest : trim (s.queue.foldl (concatenate voltage) s.history) =
      (s.stream.delivered.map voltage).rtake 2000 := by
    rw [draws.update, StreamState.delivered, yielded]
    rfl
  have streamRun := run_ofStream run
  have consistent := Stream.Run.consistent streamRun
  simp only [latest]
  refine ⟨trivial, consistent.inOrder, ?_, ?_⟩
  · rcases channel_of_batches zero (show 1 ≤ 2000 by decide)
      (s.stream.yielded.map (List.map voltage)) with ⟨c, appends, values⟩
    rw [List.map_map] at appends
    refine ⟨c, appends, ?_⟩
    rw [values, StreamState.delivered, List.map_flatten]
  · rintro rfl noPush
    have drained : DrainedUpTo (schedule.flatMap PlotAction.ofStream)
        s.stream :=
      streamRun.history (fun _ _ _ _ held next => held.step next)
        drainedUpTo_connected
    have outside : s.stream.point.outsideDrain = true := by
      cases point : s.stream.point with
      | waiting | ended => rfl
      | getBuffer | addClient | makeReader | testRunning | nextBatch
      | yielded | clearEvent => simp [point, betweenFrames] at between
    rw [(drained.2 outside).mpr noPush]

/-- Two records arrive in one batch, and a frame is drawn when the generator
waits for more. -/
def plotTwo : List (PlotAction Nat) :=
  [.stream .getBuffer, .stream .addClient, .stream .makeReader,
    .stream (.push [3, 4]), .stream .testRunning, .stream (.takeBatch 2),
    .put, .stream .batchNone, .stream .clearEvent]

def plotTwoEnd : PlotState Nat Nat where
  stream :=
    { pushed := [3, 4], registered := true, undispatched := 1
      point := .waiting, yielded := [[3, 4]] }
  queue := [[3, 4]]

def plotTwoFrame : PlotState Nat Nat :=
  { plotTwoEnd with
    queue := [], history := [30, 40], line := [(0, 30), (1, 40)] }

theorem frame_shows_latest_plotTwo :
    plotTwoFrame.line =
      points ((plotTwoEnd.stream.pushed.map (10 * ·)).rtake 2000) := by
  have run : Run (PlotState.step .immediate 1000 (10 * ·)) {} plotTwo
      plotTwoEnd := by
    decide
  have frame : plotTwoEnd.step .immediate 1000 (10 * ·) .update =
      some plotTwoFrame := by
    decide
  exact (frame_shows_latest (10 * ·) 0 run frame).2.2.2 rfl (by decide)

end CycFlowPy.LivePlot
