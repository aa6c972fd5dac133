/-
Module: CycFlowPy.Proofs.StreamConnect
Purpose: For which runs of `stream()`, from its call on, a receiver that
  connected is left without a call of `rx.stop()`.
Trusted boundary: none
Main exports: connecting_step, connected_step, CallState.Consistent,
  CallState.Consistent.step, CallState.Consistent.abandons,
  CallState.Abandoned.step, receiver_left_iff
-/
import CycFlowPy.Model.StreamConnect
import CycFlowPy.Proofs.StreamCleanup

namespace CycFlowPy.Stream

open Runs

variable {ρ : Type} {reader : ReaderKind} {batchCapacity : Nat}

/-! ### A generator that has left -/

/-- Nothing stops the receiver of a generator that is finished. -/
theorem abandoned_step {s t : CleanupState ρ} {action : CleanupAction ρ}
    (finished : s.control = .finished) (running : s.receiverStopped = false)
    (next : s.step reader batchCapacity action = some t) :
    t.control = .finished ∧ t.receiverStopped = false := by
  cases action with
  | stream action =>
      rw [CleanupState.step] at next
      split at next
      case isFalse => cases next
      case isTrue mayTake =>
        rcases Option.map_eq_some_iff.mp next with ⟨after, _, rfl⟩
        simp [CleanupState.afterStep, finished, running]
  | raise | throwIn =>
      rcases whenever_eq_some.mp next with ⟨⟨inBody, _⟩, _⟩
      rw [finished] at inBody
      cases inBody
  | cancel =>
      rcases whenever_eq_some.mp next with ⟨place, _⟩
      simp [finished] at place
  | resumeConnected | stopReader | stopReceiver | removeClient =>
      rcases whenever_eq_some.mp next with ⟨place, _⟩
      rw [finished] at place
      cases place

/-! ### From the call on -/

/-- While the generator waits for `rx.connect`, it goes on waiting or leaves,
or the receiver has connected. -/
theorem connecting_step {job : ConnectJob} {left : Bool} {t : CallState ρ}
    {action : CallAction ρ}
    (next : CallState.step reader batchCapacity (.connecting job left) action =
      some t) :
    (∃ after gone, t = .connecting after gone) ∧
        StaysForReceiver (.connecting job left) action ∨
      action = .connectReturns true ∧ t = .onConnected left := by
  cases action with
  | connectReturns ok =>
      cases job with
      | connecting =>
          cases ok with
          | true =>
              cases next
              exact .inr ⟨rfl, rfl⟩
          | false =>
              cases next
              exact .inl ⟨⟨_, _, rfl⟩, trivial⟩
      | queued | dropped | refused | raised =>
          simp [CallState.step] at next
  | beginConnect | dropConnect | connectRaises | resume | cancel =>
      cases job <;> cases left <;> cases next <;>
        exact .inl ⟨⟨_, _, rfl⟩, trivial⟩
  | rest action => simp [CallState.step] at next

/-- What follows is a step of the generator behind its connected receiver. -/
theorem connected_step {s : CleanupState ρ} {t : CallState ρ}
    {action : CallAction ρ}
    (next : CallState.step reader batchCapacity (.connected s) action =
      some t) :
    ∃ rest after, action = .rest rest ∧
      s.step reader batchCapacity rest = some after ∧
        t = .connected after := by
  cases action with
  | rest action =>
      rcases Option.map_eq_some_iff.mp next with ⟨after, moves, rfl⟩
      exact ⟨action, after, rfl, moves, rfl⟩
  | beginConnect | dropConnect | connectReturns | connectRaises | resume
  | cancel => cases next

/-- What has been acquired once the receiver has connected. -/
def CallState.Consistent : CallState ρ → Prop
  | .connecting _ _ => True
  | .connected s => s.Consistent

theorem CallState.Consistent.tidy {s : CallState ρ}
    (consistent : s.Consistent) : s.Tidy := by
  cases s with
  | connecting job left => trivial
  | connected s => exact CleanupState.Consistent.tidy consistent

theorem CallState.Consistent.step {s t : CallState ρ} {action : CallAction ρ}
    (consistent : s.Consistent) (stays : StaysForReceiver s action)
    (next : s.step reader batchCapacity action = some t) : t.Consistent := by
  cases s with
  | connecting job left =>
      rcases connecting_step next with ⟨⟨after, gone, rfl⟩, _⟩ | ⟨rfl, rfl⟩
      · trivial
      · obtain rfl : left = false := stays
        exact consistent_connectedTrue
  | connected s =>
      rcases connected_step next with ⟨rest, after, rfl, moves, rfl⟩
      exact CleanupState.Consistent.step consistent stays moves

/-- The receiver connects behind a generator that has left, or an exception
leaves the generator before its `try`. -/
theorem CallState.Consistent.abandons {s t : CallState ρ}
    {action : CallAction ρ} (consistent : s.Consistent)
    (leaves : ¬ StaysForReceiver s action)
    (next : s.step reader batchCapacity action = some t) : t.Abandoned := by
  cases s with
  | connecting job left =>
      rcases connecting_step next with ⟨_, stays⟩ | ⟨rfl, rfl⟩
      · exact absurd stays leaves
      · obtain rfl : left = true := eq_true_of_ne_false leaves
        exact ⟨rfl, rfl⟩
  | connected s =>
      rcases connected_step next with ⟨rest, after, rfl, moves, rfl⟩
      exact CleanupState.Consistent.abandons consistent leaves moves

theorem CallState.Abandoned.step {s t : CallState ρ} {action : CallAction ρ}
    (abandoned : s.Abandoned)
    (next : s.step reader batchCapacity action = some t) : t.Abandoned := by
  cases s with
  | connecting job left => exact absurd abandoned id
  | connected s =>
      rcases connected_step next with ⟨rest, after, rfl, moves, rfl⟩
      exact abandoned_step abandoned.1 abandoned.2 moves

theorem CallState.Abandoned.not_tidy {s : CallState ρ}
    (abandoned : s.Abandoned) : ¬ s.Tidy := by
  intro tidy
  cases s with
  | connecting job left => exact abandoned
  | connected s =>
      have stopped := (tidy abandoned.1).receiver
      rw [abandoned.2] at stopped
      cases stopped

/-- A run of `stream()` from its call on.  A generator that is finished has
cleaned up behind a receiver that connected, exactly when the receiver connected
only for a generator that still waited for it, and no exception left the
generator between that and its `try`.  Otherwise `rx.stop()` was not called, and
is not called however the run goes on. -/
theorem receiver_left_iff {t : CallState ρ} {schedule : List (CallAction ρ)}
    (run : Run (CallState.step reader batchCapacity)
      (.connecting .queued false) schedule t) :
    (Meets (CallState.step reader batchCapacity) StaysForReceiver
        (.connecting .queued false) schedule ↔ t.Tidy) ∧
      (¬ Meets (CallState.step reader batchCapacity) StaysForReceiver
          (.connecting .queued false) schedule →
        ∀ more u, Run (CallState.step reader batchCapacity) t more u →
          u.Abandoned) := by
  have ends := run.meets_or_ends
    (fun _ _ _ consistent stays next =>
      CallState.Consistent.step consistent stays next)
    (fun _ _ _ consistent leaves next =>
      CallState.Consistent.abandons consistent leaves next)
    (fun _ _ _ abandoned next => CallState.Abandoned.step abandoned next)
    (show CallState.Consistent (.connecting .queued false) from trivial)
  rcases ends with ⟨meets, consistent⟩ | ⟨unmet, abandoned⟩
  · refine ⟨iff_of_true meets consistent.tidy, ?_⟩
    exact fun unmet => absurd meets unmet
  · refine ⟨iff_of_false unmet abandoned.not_tidy, ?_⟩
    intro _ more u goesOn
    exact goesOn.invariant
      (fun _ _ _ held next => CallState.Abandoned.step held next) abandoned

/-- The generator is cancelled while the executor connects. -/
def cancelWhileConnecting : List (CallAction Nat) :=
  [.beginConnect, .cancel, .connectReturns true]

theorem receiver_left_iff_cancelWhileConnecting :
    ∃ t : CallState Nat,
      Run (CallState.step .immediate 1000) (.connecting .queued false)
        cancelWhileConnecting t ∧
      ∀ more u, Run (CallState.step .immediate 1000) t more u →
        u.Abandoned := by
  have connects : ∃ t : CallState Nat, Run (CallState.step .immediate 1000)
      (.connecting .queued false) cancelWhileConnecting t := ⟨_, rfl⟩
  rcases connects with ⟨t, run⟩
  exact ⟨t, run, (receiver_left_iff run).2 (by decide)⟩

end CycFlowPy.Stream
