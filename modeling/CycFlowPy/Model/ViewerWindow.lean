/-
Module: CycFlowPy.Model.ViewerWindow
Purpose: The viewer's window: one channel for each track, and the handlers
  that connect, drain the reader, clear, resize and pause.
Trusted boundary: Qt runs one handler at a time, and a spin box's value stays
  in its range
Main exports: Track, WindowState, WindowEvent, WindowState.step, ReceivedLog,
  ReceivedLog.step, WindowState.Aligned
-/
import CycFlowPy.Model.Channel
import CycFlowPy.Model.RecordPaths
import CycFlowPy.Model.ViewerTracks

namespace CycFlowPy.Viewer

open Numpy Runs

/-! ### Handlers

Plots, colours, the status line and the axis ranges take no part in what the
channels hold and are left out.

[SRC examples/tcp_viewer.py:318-372]
[SRC examples/tcp_viewer.py:475-610]
[SRC examples/tcp_viewer.py:666-681]
-/

/-- The bytes of a zero of the format, which fill `np.zeros`. -/
def zeroOf (format : NumpyFormat) : List UInt8 :=
  List.replicate format.itemSize 0

/-- A `Channel` with its spec, and what its curve shows. -/
structure Track where
  spec : ChannelSpec
  channel : Channel (List UInt8)
  curve : List Int × List (List UInt8) := ([], [])
deriving Repr, DecidableEq

/-- The `ViewerWindow`; `reader` is the rule of the buffer that the reader is
attached to, and `none` when there is no reader. -/
structure WindowState where
  channels : List Track := []
  reader : Option BitRule := none
  historySize : Nat := 10000
  paused : Bool := false
deriving Repr, DecidableEq

/-- What happens to the window: `connect` with the rule of the buffer it
reaches, or `none` when the receiver does not connect; `disconnect`; a timer
tick, with the batches that the reader hands out until it has none; and the
controls. -/
inductive WindowEvent where
  | connect (answer : Option BitRule)
  | disconnect
  | tick (batches : List RecordBatch)
  | clear
  | historyChanged (val : Nat)
  | pauseToggled (on : Bool)
deriving Repr, DecidableEq

section Handlers

variable (types : CycTypes) (memory : Nat → UInt8) (numpy : NumpyStore)
variable (getName : Nat → Option String)

/-- `_build_plots`. -/
def WindowState.buildPlots (s : WindowState) (specs : List ChannelSpec) :
    List Track :=
  specs.map fun spec =>
    { spec := spec
      channel := Channel.fresh (zeroOf spec.dtype) s.historySize }

/-- `_connect`: without a track the receiver is stopped again. -/
def WindowState.connect (s : WindowState) :
    Option BitRule → Option WindowState
  | none => some s
  | some rule => do
      let specs ← buildChannelSpecs getName rule
      if specs.isEmpty then some s
      else
        some { s with
          channels := s.buildPlots specs
          reader := some rule }

/-- `ch.append(_extract(batch, ch.spec))`. -/
def Track.append (batch : StructuredArray) (track : Track) : Option Track := do
  let col ← extract batch track.spec
  let data ← numpy.stored track.spec.dtype col
  let channel ← track.channel.append data
  return { track with channel := channel }

/-- The loop of `_on_tick`, and whether it reached its end: an exception of
`next_batch_copy` leaves the handler. -/
def drain : List RecordBatch → List Track → Option (List Track × Bool)
  | [], channels => some (channels, true)
  | batch :: batches, channels =>
      match readerNextBatchCopy types memory batch with
      | .error _ => some (channels, false)
      | .ok array => do
          let channels ← channels.mapM (Track.append numpy array)
          drain batches channels

def Track.setData (track : Track) : Track :=
  { track with curve := track.channel.view }

def WindowState.onTick (s : WindowState) (batches : List RecordBatch) :
    Option WindowState :=
  match s.reader with
  | none => some s
  | some _ => do
      let (channels, drained) ← drain types memory numpy batches s.channels
      if drained ∧ ¬ s.paused then
        some { s with channels := channels.map Track.setData }
      else some { s with channels := channels }

def WindowState.onClear (s : WindowState) : WindowState :=
  { s with
    channels := s.channels.map fun track =>
      { track with channel := track.channel.reset, curve := ([], []) } }

/-- `ch.resize(size)`; the new buffer has the dtype of the old one. -/
def Track.resize (size : Nat) (track : Track) : Option Track := do
  let channel ← track.channel.resize (zeroOf track.spec.dtype) size
  return { track with channel := channel }

def WindowState.onHistoryChanged (s : WindowState) (val : Nat) :
    Option WindowState :=
  if val = s.historySize then some s
  else do
    let channels ← s.channels.mapM (Track.resize val)
    return { s with historySize := val, channels := channels }

/-- What the environment may do: the spin box has the range it was given, and
the reader hands out batches of its buffer's rule. -/
def WindowState.Admits (s : WindowState) : WindowEvent → Prop
  | .historyChanged val => 100 ≤ val ∧ val ≤ 1000000
  | .tick batches => ∀ rule, s.reader = some rule →
      ∀ batch ∈ batches, batch.rule = rule.layout
  | _ => True

/-- One event; `none` when a handler raises while it updates the channels. -/
def WindowState.step (s : WindowState) : WindowEvent → Option WindowState
  | .connect answer => s.connect getName answer
  | .disconnect => some { s with reader := none }
  | .tick batches => s.onTick types memory numpy batches
  | .clear => some s.onClear
  | .historyChanged val => s.onHistoryChanged val
  | .pauseToggled on => some { s with paused := on }

end Handlers

/-! ### What the window has received -/

/-- One record of a batch. -/
abbrev ReceivedRecord := StructuredArray × Nat

/-- The records received since the last successful connect or clear, in order,
and the rule of the buffer the window reads. -/
structure ReceivedLog where
  rule : Option BitRule := none
  records : List ReceivedRecord := []

def recordsOf (array : StructuredArray) : List ReceivedRecord :=
  (List.range array.count).map fun row => (array, row)

/-- The records of the batches up to the first that cannot be copied. -/
def receivedFrom (types : CycTypes) (memory : Nat → UInt8) :
    List RecordBatch → List ReceivedRecord
  | [] => []
  | batch :: batches =>
      match readerNextBatchCopy types memory batch with
      | .error _ => []
      | .ok array => recordsOf array ++ receivedFrom types memory batches

def ReceivedLog.step (types : CycTypes) (memory : Nat → UInt8)
    (log : ReceivedLog) : WindowEvent → ReceivedLog
  | .connect (some rule) =>
      if rule.attributes.flatMap BitAttr.tracks = [] then log
      else { rule := some rule, records := [] }
  | .disconnect => { log with rule := none }
  | .tick batches =>
      if log.rule.isSome then
        { log with
          records := log.records ++ receivedFrom types memory batches }
      else log
  | .clear => { log with records := [] }
  | .connect none | .historyChanged _ | .pauseToggled _ => log

/-- The value that `_extract` takes from the record. -/
def ChannelSpec.valueIn (spec : ChannelSpec) (record : ReceivedRecord) :
    Option (List UInt8) :=
  match extract record.1 spec with
  | some (.column _ values) => values[record.2]?
  | _ => none

/-- All channels have the same capacity and counters, and the k-th points of
their views have one `x`, which is the number of the record they are taken
from. -/
structure WindowState.Aligned (s : WindowState)
    (received : List ReceivedRecord) : Prop where
  capacity : ∀ track ∈ s.channels, track.channel.buf.length = s.historySize
  counters : ∃ head stored written, ∀ track ∈ s.channels,
    track.channel.head = head ∧ track.channel.stored = stored ∧
      track.channel.written = written
  points : ∃ xs : List Int, ∀ track ∈ s.channels,
    track.channel.view.1 = xs ∧ track.channel.view.2.length = xs.length ∧
      ∀ (k : Nat) (x : Int) (y : List UInt8), xs[k]? = some x →
        track.channel.view.2[k]? = some y →
          ∃ (number : Nat) (record : ReceivedRecord), x = number ∧
            received[number]? = some record ∧
              track.spec.valueIn record = some y

end CycFlowPy.Viewer
