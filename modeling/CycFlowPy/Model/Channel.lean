/-
Module: CycFlowPy.Model.Channel
Purpose: The viewer's `Channel`: a ring of the most recent values of one track,
  and the plain bounded history it stands for.
Trusted boundary: none
Main exports: Channel, Channel.append, Channel.resize, Channel.reset,
  Channel.view, ChannelOp, Channel.step, History, History.step
-/
import CycFlowPy.Lib.Runs
import Mathlib.Data.List.DropRight

namespace CycFlowPy.Viewer

open Runs

variable {α : Type}

/-! ### The ring of `examples/tcp_viewer.py`

[SRC examples/tcp_viewer.py:155-214]
-/

/-- The data of a `Channel`: its numpy buffer, the next slot to write, the
number of valid values in the buffer and the number of values ever received.
The spec, the curve and the plot do not take part in any of the operations. -/
structure Channel (α : Type) where
  buf : List α
  head : Nat := 0
  stored : Nat := 0
  written : Nat := 0
deriving Repr, DecidableEq

/-- `buf[lo:hi] = data`, which numpy performs slot by slot when the lengths
agree; `none` when they do not. -/
def assignSlice (buf : List α) (lo hi : Nat) (data : List α) :
    Option (List α) :=
  if lo + data.length = hi ∧ hi ≤ buf.length then
    some (buf.take lo ++ data ++ buf.drop hi)
  else none

/-- `buf[-count:]` for a positive `count`. -/
def lastElements (buf : List α) (count : Nat) : List α :=
  buf.drop (buf.length - count)

def Channel.reset (c : Channel α) : Channel α :=
  { c with head := 0, stored := 0, written := 0 }

/-- The stored values, oldest first: the slots from 0 on while the ring is
part-filled, the slots from `head` on with wrap-around once it is full. -/
def Channel.values (c : Channel α) : List α :=
  if c.stored < c.buf.length then c.buf.take c.stored
  else c.buf.drop c.head ++ c.buf.take c.head

/-- `zero` is the value `np.zeros` fills a new buffer with. -/
def Channel.resize (zero : α) (size : Nat) (c : Channel α) :
    Option (Channel α) :=
  if size = c.buf.length then some c
  else do
    let existing := c.values
    let newBuf := List.replicate size zero
    let keep := min existing.length size
    let newBuf ←
      if 0 < keep then assignSlice newBuf 0 keep (lastElements existing keep)
      else some newBuf
    return { c with
      buf := newBuf
      stored := keep
      head := if 0 < size then keep % size else 0 }

/-- The three write patterns of `append`: a block at least as long as the ring,
a block that ends inside it, and a block that wraps around. -/
def Channel.append (data : List α) (c : Channel α) : Option (Channel α) :=
  let n := data.length
  if n = 0 then some c
  else
    let cap := c.buf.length
    if cap ≤ n then do
      let buf ← assignSlice c.buf 0 cap (lastElements data cap)
      return { c with
        buf := buf, head := 0, stored := cap, written := c.written + n }
    else do
      let stop := c.head + n
      let buf ←
        if stop ≤ cap then assignSlice c.buf c.head stop data
        else do
          let first := cap - c.head
          let tail ← assignSlice c.buf c.head cap (data.take first)
          assignSlice tail 0 (n - first) (data.drop first)
      return { c with
        buf := buf
        head := stop % cap
        stored := min (c.stored + n) cap
        written := c.written + n }

/-- The pair `(x, y)` of `view`: `np.arange` from `written - stored` on, and
the stored values. -/
def Channel.view (c : Channel α) : List Int × List α :=
  let y := c.values
  let x0 : Int := c.written - c.stored
  ((List.range y.length).map fun i : Nat => x0 + (i : Int), y)

/-- The operations a `Channel` goes through. -/
inductive ChannelOp (α : Type) where
  | append (data : List α)
  | resize (size : Nat)
  | reset
deriving Repr, DecidableEq

/-- A resize asks for room for at least one value. -/
def ChannelOp.Valid : ChannelOp α → Prop
  | .resize size => 1 ≤ size
  | _ => True

/-- One operation; `none` when one of its slice assignments fails. -/
def Channel.step (zero : α) (c : Channel α) :
    ChannelOp α → Option (Channel α)
  | .append data => c.append data
  | .resize size => c.resize zero size
  | .reset => some c.reset

/-- `Channel(buf=np.zeros(capacity))`. -/
def Channel.fresh (zero : α) (capacity : Nat) : Channel α :=
  { buf := List.replicate capacity zero }

/-! ### The bounded history -/

/-- What a channel stands for: the most recent values, how many of them are
kept at most, and how many were ever received. -/
structure History (α : Type) where
  items : List α := []
  capacity : Nat
  written : Nat := 0

def History.step (h : History α) : ChannelOp α → History α
  | .append data =>
      { h with
        items := (h.items ++ data).rtake h.capacity
        written := h.written + data.length }
  | .resize size =>
      { h with items := h.items.rtake size, capacity := size }
  | .reset => { h with items := [], written := 0 }

/-- The points a history shows: value `i` from the end is record
`written - i`. -/
def History.view (h : History α) : List Int × List α :=
  ((List.range h.items.length).map fun i : Nat =>
    (h.written : Int) - h.items.length + (i : Int), h.items)

end CycFlowPy.Viewer
