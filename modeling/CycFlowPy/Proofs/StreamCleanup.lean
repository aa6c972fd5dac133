/-
Module: CycFlowPy.Proofs.StreamCleanup
Purpose: `stream()` has cleaned up whenever it is finished, exactly when no
  exception left it before its `try` was entered.
Trusted boundary: none
Main exports: CleanupState.Consistent, LeavesFromTry,
  CleanupState.Consistent.abandons, cleaned_up_iff
-/
import CycFlowPy.Model.StreamCleanup

namespace CycFlowPy.Stream

open Runs

variable {ρ : Type} {reader : ReaderKind} {batchCapacity : Nat}

/-! ### What one step does -/

theorem hasReader_step {s t : StreamState ρ} {action : StreamAction ρ}
    (next : s.step reader batchCapacity action = some t) :
    t.point.hasReader = (s.point.hasReader || action.isMakeReader) := by
  cases action with
  | testRunning =>
      rcases whenever_eq_some.mp next with ⟨atTest, rfl⟩
      cases s.running <;>
        simp [atTest, GeneratorPoint.hasReader, StreamAction.isMakeReader]
  | getBuffer | addClient | makeReader | batchNone | resume | clearEvent
  | timeout =>
      rcases whenever_eq_some.mp next with ⟨atPoint, rfl⟩
      simp [atPoint, GeneratorPoint.hasReader, StreamAction.isMakeReader]
  | takeBatch | wake =>
      rcases whenever_eq_some.mp next with ⟨⟨atPoint, _⟩, rfl⟩
      simp [atPoint, GeneratorPoint.hasReader, StreamAction.isMakeReader]
  | push | receiverStop | dispatch | runCallback | prefetch =>
      rcases whenever_eq_some.mp next with ⟨_, rfl⟩
      simp [StreamAction.isMakeReader]

/-- Outside of the body only the environment moves: neither the generator nor
the registration changes. -/
theorem environment_step {s : CleanupState ρ} {t : StreamState ρ}
    {action : StreamAction ρ} (outside : s.control ≠ .body)
    (mayTake : s.mayTake action = true)
    (next : s.stream.step reader batchCapacity action = some t) :
    t.point = s.stream.point ∧ t.registered = s.stream.registered ∧
      action.isMakeReader = false := by
  cases action with
  | push | receiverStop | dispatch | runCallback | prefetch =>
      rcases whenever_eq_some.mp next with ⟨_, rfl⟩
      exact ⟨rfl, rfl, rfl⟩
  | getBuffer | addClient | makeReader | testRunning | takeBatch | batchNone
  | resume | clearEvent | wake | timeout =>
      exact absurd (of_decide_eq_true mayTake) outside

/-- An exception leaves the body or the `await` of `rx.connect`. -/
theorem exception_step {s t : CleanupState ρ} {action : CleanupAction ρ}
    (exception : action.isException = true)
    (next : s.step reader batchCapacity action = some t) :
    t = s.unwind ∧ (s.control = .awaitingConnect ∨ s.control = .body) := by
  cases action with
  | raise | throwIn =>
      rcases whenever_eq_some.mp next with ⟨⟨inBody, _⟩, rfl⟩
      exact ⟨rfl, .inr inBody⟩
  | cancel =>
      rcases whenever_eq_some.mp next with ⟨atAwait, rfl⟩
      exact ⟨rfl, atAwait.imp_right And.left⟩
  | resumeConnected | stream | stopReader | stopReceiver | removeClient =>
      cases exception

/-! ### What is acquired where -/

/-- What has been acquired and given back at each place. -/
def CleanupState.Consistent (s : CleanupState ρ) : Prop :=
  match s.control with
  | .awaitingConnect =>
      s.receiverStopped = false ∧ s.reader = .notCreated ∧
        s.stream.point.hasReader = false
  | .body =>
      s.receiverStopped = false ∧
        (s.reader = .running ↔ s.stream.point.hasReader = true)
  | .stopReader => True
  | .stopReceiver => s.reader ≠ .running
  | .removeClient => s.reader ≠ .running ∧ s.receiverStopped = true
  | .finished => s.CleanedUp

/-- No exception leaves the generator before the `try` is entered. -/
def LeavesFromTry (s : CleanupState ρ) (action : CleanupAction ρ) : Prop :=
  action.isException = true → s.InsideTry

instance (s : CleanupState ρ) (action : CleanupAction ρ) :
    Decidable (LeavesFromTry s action) :=
  inferInstanceAs (Decidable (_ → _))

theorem consistent_connectedTrue :
    (CleanupState.connected ρ).Consistent :=
  ⟨rfl, rfl, rfl⟩

/-- A step of the environment outside of the body. -/
theorem CleanupState.Consistent.environment {s : CleanupState ρ}
    {t : StreamState ρ} {action : StreamAction ρ}
    (consistent : s.Consistent) (outside : s.control ≠ .body)
    (mayTake : s.mayTake action = true)
    (next : s.stream.step reader batchCapacity action = some t) :
    (s.afterStep action t).Consistent := by
  rcases environment_step outside mayTake next with
    ⟨samePoint, sameClient, notMake⟩
  have after : s.afterStep action t = { s with stream := t } := by
    rw [CleanupState.afterStep, if_neg (fun both => outside both.1),
      if_neg (by rw [notMake]; exact Bool.false_ne_true)]
  rw [after]
  unfold CleanupState.Consistent at consistent ⊢
  cases control : s.control with
  | awaitingConnect =>
      rw [control] at consistent
      rcases consistent with ⟨notStopped, notCreated, noReader⟩
      exact ⟨notStopped, notCreated, samePoint ▸ noReader⟩
  | body => exact absurd control outside
  | stopReader => trivial
  | stopReceiver | removeClient =>
      rw [control] at consistent
      exact consistent
  | finished =>
      rw [control] at consistent
      exact { consistent with client := sameClient.trans consistent.client }

/-- A step of the body or of its environment. -/
theorem CleanupState.Consistent.body {s : CleanupState ρ}
    {t : StreamState ρ} {action : StreamAction ρ}
    (consistent : s.Consistent) (inBody : s.control = .body)
    (next : s.stream.step reader batchCapacity action = some t) :
    (s.afterStep action t).Consistent := by
  simp only [CleanupState.Consistent, inBody] at consistent
  rcases consistent with ⟨notStopped, acquired⟩
  have hasReader := hasReader_step next
  by_cases ended : t.point = .ended
  · simp only [CleanupState.Consistent, CleanupState.afterStep, inBody, ended,
      and_self, if_true]
  · simp only [CleanupState.Consistent, CleanupState.afterStep, inBody, ended,
      and_false, if_false]
    refine ⟨notStopped, ?_⟩
    rw [hasReader]
    cases action.isMakeReader with
    | true => simp
    | false => simpa using acquired

theorem CleanupState.Consistent.step {s t : CleanupState ρ}
    {action : CleanupAction ρ} (consistent : s.Consistent)
    (leaves : LeavesFromTry s action)
    (next : s.step reader batchCapacity action = some t) : t.Consistent := by
  cases action with
  | resumeConnected =>
      rcases whenever_eq_some.mp next with ⟨atAwait, rfl⟩
      simp only [CleanupState.Consistent, atAwait] at consistent
      rcases consistent with ⟨notStopped, notCreated, noReader⟩
      refine ⟨notStopped, ?_⟩
      simp [notCreated, noReader]
  | stream action =>
      rw [CleanupState.step] at next
      split at next
      case isFalse => cases next
      case isTrue mayTake =>
        rcases Option.map_eq_some_iff.mp next with ⟨after, body, rfl⟩
        by_cases inBody : s.control = .body
        · exact consistent.body inBody body
        · exact consistent.environment inBody mayTake body
  | raise | throwIn | cancel =>
      obtain rfl := (exception_step rfl next).1
      rw [CleanupState.unwind, if_pos (leaves rfl)]
      trivial
  | stopReader =>
      rcases whenever_eq_some.mp next with ⟨_, rfl⟩
      simp [CleanupState.Consistent]
  | stopReceiver =>
      rcases whenever_eq_some.mp next with ⟨atStop, rfl⟩
      simp only [CleanupState.Consistent, atStop] at consistent
      exact ⟨consistent, rfl⟩
  | removeClient =>
      rcases whenever_eq_some.mp next with ⟨atRemove, rfl⟩
      simp only [CleanupState.Consistent, atRemove] at consistent
      exact { receiver := consistent.2, reader := consistent.1, client := rfl }

/-! ### Whole runs -/

/-- Once the generator is finished, it has cleaned up. -/
def CleanupState.Tidy (s : CleanupState ρ) : Prop :=
  s.control = .finished → s.CleanedUp

theorem CleanupState.Consistent.tidy {s : CleanupState ρ}
    (consistent : s.Consistent) : s.Tidy := by
  intro finished
  simpa only [CleanupState.Consistent, finished] using consistent

/-- An exception before the `try` finishes the generator, and `rx.stop()` was
not called. -/
theorem CleanupState.Consistent.abandons {s t : CleanupState ρ}
    {action : CleanupAction ρ} (consistent : s.Consistent)
    (leavesNot : ¬ LeavesFromTry s action)
    (next : s.step reader batchCapacity action = some t) :
    t.control = .finished ∧ t.receiverStopped = false := by
  rw [LeavesFromTry, Classical.not_imp] at leavesNot
  rcases leavesNot with ⟨exception, outside⟩
  rcases exception_step exception next with ⟨rfl, place⟩
  rw [CleanupState.unwind, if_neg outside]
  refine ⟨rfl, ?_⟩
  rcases place with atAwait | inBody
  · simp only [CleanupState.Consistent, atAwait] at consistent
    exact consistent.1
  · simp only [CleanupState.Consistent, inBody] at consistent
    exact consistent.1

theorem CleanupState.Consistent.left {s t : CleanupState ρ}
    {action : CleanupAction ρ} (consistent : s.Consistent)
    (leavesNot : ¬ LeavesFromTry s action)
    (next : s.step reader batchCapacity action = some t) : ¬ t.Tidy := by
  rcases consistent.abandons leavesNot next with ⟨finished, running⟩
  intro tidy
  have stopped := (tidy finished).receiver
  rw [running] at stopped
  exact Bool.false_ne_true stopped

/-- In every run of the generator it has cleaned up once it is finished, if
and only if no exception leaves it before the `try` is entered. -/
theorem cleaned_up_iff {t : CleanupState ρ} {schedule : List (CleanupAction ρ)}
    (run : Run (CleanupState.step reader batchCapacity)
      (CleanupState.connected ρ) schedule t) :
    Meets (CleanupState.step reader batchCapacity) LeavesFromTry
        (CleanupState.connected ρ) schedule ↔
      Visits (CleanupState.step reader batchCapacity) CleanupState.Tidy
        (CleanupState.connected ρ) schedule :=
  run.meets_iff_visits (fun _ consistent => consistent.tidy)
    (fun _ _ _ consistent leaves next => consistent.step leaves next)
    (fun _ _ _ consistent leavesNot next => consistent.left leavesNot next)
    consistent_connectedTrue

/-- A batch is taken, and the consumer closes the generator at the `yield`. -/
def closeAfterBatch : List (CleanupAction Nat) :=
  [.resumeConnected, .stream .getBuffer, .stream .addClient,
    .stream .makeReader, .stream .testRunning, .stream (.push [7]),
    .stream (.takeBatch 1), .throwIn, .stopReader, .stopReceiver,
    .removeClient]

theorem cleaned_up_iff_closeAfterBatch :
    ∃ t, Run (CleanupState.step .immediate 1000) (CleanupState.connected Nat)
        closeAfterBatch t ∧ t.control = .finished ∧
      Visits (CleanupState.step .immediate 1000) CleanupState.Tidy
        (CleanupState.connected Nat) closeAfterBatch := by
  have ends : ∃ t, Run (CleanupState.step .immediate 1000)
      (CleanupState.connected Nat) closeAfterBatch t ∧
        t.control = .finished :=
    ⟨_, rfl, rfl⟩
  rcases ends with ⟨t, run, finished⟩
  exact ⟨t, run, finished, (cleaned_up_iff run).mp (by decide)⟩

/-- The constructor of the reader raises: the receiver still runs, and the
client stays registered. -/
def readerRaises : List (CleanupAction Nat) :=
  [.resumeConnected, .stream .getBuffer, .stream .addClient, .raise]

theorem reader_raises_not_cleaned_up :
    ∃ t, Run (CleanupState.step .immediate 1000) (CleanupState.connected Nat)
        readerRaises t ∧
      t.control = .finished ∧ t.receiverStopped = false ∧
      t.stream.registered = true ∧ ¬ t.Tidy := by
  refine ⟨_, rfl, rfl, rfl, rfl, ?_⟩
  intro tidy
  exact Bool.false_ne_true (tidy rfl).receiver

end CycFlowPy.Stream
