/-
Module: CycFlowPy.Model.StreamConnect
Purpose: A call of `stream()` from the start: `rx.connect` in the executor, what
  the generator does with its answer, and what it leaves behind when it is
  cancelled before.
Trusted boundary: asyncio cancels the future of the `await` and not a call that
  the executor has begun; of a receiver only the answer of `connect` and the
  calls of `rx.stop()` are known
Main exports: ConnectJob, CallState, CallAction, CallState.step,
  CallState.Tidy, CallState.Abandoned, StaysForReceiver
-/
import CycFlowPy.Model.StreamCleanup

namespace CycFlowPy.Stream

open Runs

/-!
`await loop.run_in_executor(None, rx.connect, ...)` waits for a thread of the
executor.  An exception there leaves the generator, as the `ConnectionError`
for a `connect` that returns false does; both are before the `try`.

[SRC python/cycflow/__init__.py:253-271]
-/

/-- Where the executor is with `rx.connect`, before it has returned true. -/
inductive ConnectJob where
  | queued
  | connecting
  | dropped
  | refused
  | raised
deriving Repr, DecidableEq

variable {ρ : Type}

/-- Before `rx.connect` has returned true, `left` says that an exception leaves
the generator: it has, or the `await` is cancelled and it will. -/
inductive CallState (ρ : Type) where
  | connecting (job : ConnectJob) (left : Bool)
  | connected (s : CleanupState ρ)
deriving Repr, DecidableEq

/-- The executor begins the call or, once it is cancelled, drops it; the call
returns or raises; the generator is resumed with an answer that is not true, or
is cancelled; and the steps after `rx.connect` has returned true. -/
inductive CallAction (ρ : Type) where
  | beginConnect
  | dropConnect
  | connectReturns (ok : Bool)
  | connectRaises
  | resume
  | cancel
  | rest (action : CleanupAction ρ)
deriving Repr, DecidableEq

/-- A receiver that has connected, with a generator that has left or not. -/
def CallState.onConnected (left : Bool) : CallState ρ :=
  .connected
    (if left then (CleanupState.connected ρ).unwind
      else CleanupState.connected ρ)

def CallState.step (reader : ReaderKind) (batchCapacity : Nat) :
    CallState ρ → CallAction ρ → Option (CallState ρ)
  | .connecting .queued left, .beginConnect =>
      some (.connecting .connecting left)
  | .connecting .queued true, .dropConnect => some (.connecting .dropped true)
  | .connecting .connecting left, .connectReturns true =>
      some (.onConnected left)
  | .connecting .connecting left, .connectReturns false =>
      some (.connecting .refused left)
  | .connecting .connecting left, .connectRaises =>
      some (.connecting .raised left)
  | .connecting .refused false, .resume => some (.connecting .refused true)
  | .connecting .raised false, .resume => some (.connecting .raised true)
  | .connecting job false, .cancel => some (.connecting job true)
  | .connected s, .rest action =>
      (s.step reader batchCapacity action).map .connected
  | _, _ => none

/-- A generator that is finished has cleaned up behind a receiver that
connected. -/
def CallState.Tidy : CallState ρ → Prop
  | .connecting _ _ => True
  | .connected s => s.control = .finished → s.CleanedUp

/-- The receiver has connected, the generator is finished, and `rx.stop()` was
not called. -/
def CallState.Abandoned : CallState ρ → Prop
  | .connecting _ _ => False
  | .connected s => s.control = .finished ∧ s.receiverStopped = false

/-- `rx.connect` returns true only to a generator that still waits for it, and
later exceptions leave the generator from its `try`. -/
def StaysForReceiver : CallState ρ → CallAction ρ → Prop
  | .connecting _ left, .connectReturns true => left = false
  | .connected s, .rest action => action.isException = true → s.InsideTry
  | _, _ => True

instance (s : CallState ρ) (action : CallAction ρ) :
    Decidable (StaysForReceiver s action) := by
  unfold StaysForReceiver
  split <;> infer_instance

end CycFlowPy.Stream
