/-
Module: CycFlowPy.Model.PublishToViewer
Purpose: The way of a row from `publish_dataframe` to the viewer's tracks: the
  batches that carry the committed records, and which rows a track shows.
Trusted boundary: between the writer and the viewer's reader CycLib carries
  the committed records in order (`Delivers`)
Main exports: Delivers, WindowEvent.Watches, deliveredBy, Watch, Watch.step,
  ChannelSpec.ShowsRow, Track.ShowsRows
-/
import CycFlowPy.Model.Publish
import CycFlowPy.Model.ViewerWindow

namespace CycFlowPy.Viewer

open Numpy Slices

/-!
`examples/tcp_publish.py` publishes a DataFrame with `publish_dataframe`, and
`examples/tcp_viewer.py` draws what its reader hands out.

[SRC python/cycflow/__init__.py:200-233]
[SRC examples/tcp_viewer.py:481-517]
[SRC examples/tcp_viewer.py:583-610]
-/

/-! ### The batches in between -/

/-- The batches are valid ones of a buffer of the rule, and one after the other
they hold exactly these records. -/
structure Delivers (rule : RecRule) (handed : List (List UInt8))
    (batches : List RecordBatch) : Prop where
  batchRule : ∀ batch ∈ batches, batch.rule = rule ∧
    batch.recordSize = rule.recSize ∧
      batch.data.length = batch.count * rule.recSize
  contents : (batches.flatMap fun batch =>
    records batch.data rule.recSize batch.count) = handed

/-- What happens to a window that stays connected. -/
def WindowEvent.Watches : WindowEvent → Prop
  | .tick _ | .clear | .pauseToggled _ => True
  | .historyChanged val => 100 ≤ val ∧ val ≤ 1000000
  | .connect _ | .disconnect => False

/-- The batches that the ticks drain, in order. -/
def deliveredBy (events : List WindowEvent) : List RecordBatch :=
  events.flatMap fun
    | .tick batches => batches
    | _ => []

/-! ### Which rows are shown -/

/-- How many records had been received before the last clear, how many have
been since, and how many of these are shown. -/
structure Watch where
  historySize : Nat
  cleared : Nat := 0
  received : Nat := 0
  shown : Nat := 0
deriving Repr, DecidableEq

def Watch.step (watch : Watch) : WindowEvent → Watch
  | .tick batches =>
      let count := (batches.map (·.count)).sum
      { watch with
        received := watch.received + count
        shown := min watch.historySize (watch.shown + count) }
  | .clear =>
      { watch with
        cleared := watch.cleared + watch.received
        received := 0
        shown := 0 }
  | .historyChanged val =>
      { watch with historySize := val, shown := min val watch.shown }
  | .connect _ | .disconnect | .pauseToggled _ => watch

/-- `value` is what the spec names in the row: the value of the column, the
element, or the bit of the word as one byte when the word has it. -/
def ChannelSpec.ShowsRow (spec : ChannelSpec) (columns : List Column)
    (row : Row) (value : List UInt8) : Prop :=
  ∃ column ∈ columns, column.name = spec.fieldName ∧
    ∃ cell, valueOf columns row spec.fieldName = some cell ∧
      match spec.part with
      | .whole => value = cell
      | .element i => value =
          slice cell (i * column.format.itemSize) column.format.itemSize
      | .bit pos => pos < 8 * column.format.itemSize →
          value = [((littleEndian cell).testBit pos).toUInt8]

/-- The view of the track has the numbers of the last records received since
the last clear, each with the value of its row. -/
structure Track.ShowsRows (track : Track) (columns : List Column)
    (rows : List Row) (watch : Watch) : Prop where
  numbers : track.channel.view.1 =
    (List.range' (watch.received - watch.shown) watch.shown).map
      fun number : Nat => (number : Int)
  values : List.Forall₂ (track.spec.ShowsRow columns)
    ((rows.drop (watch.cleared + (watch.received - watch.shown))).take
      watch.shown)
    track.channel.view.2

end CycFlowPy.Viewer
