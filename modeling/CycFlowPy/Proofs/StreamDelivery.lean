/-
Module: CycFlowPy.Proofs.StreamDelivery
Purpose: What `stream()` has yielded when it ends because the receiver no
  longer runs: a prefix of the pushed records, complete exactly when nothing
  was pushed after the last `None` of `next_batch`.
Trusted boundary: none
Main exports: StreamState.Consistent.step, noPushSinceNone,
  stream_complete_iff
-/
import CycFlowPy.Lib.Slices
import CycFlowPy.Model.Stream

namespace CycFlowPy.Stream

open Runs

variable {ρ : Type} {reader : ReaderKind} {batchCapacity : Nat}

/-! ### The generator never reorders, duplicates or invents a record -/

theorem consistent_connected :
    StreamState.Consistent reader (StreamState.connected ρ) where
  inOrder := List.prefix_refl _
  behindReader := Nat.zero_le _
  behindReceiver := Nat.zero_le _
  registered := by simp [StreamState.connected, GeneratorPoint.hasReader]

/-- Every party keeps the state consistent. -/
theorem StreamState.Consistent.step {s t : StreamState ρ}
    {action : StreamAction ρ} (consistent : s.Consistent reader)
    (next : s.step reader batchCapacity action = some t) :
    t.Consistent reader := by
  obtain ⟨inOrder, behindReader, behindReceiver, registered⟩ := consistent
  cases action with
  | push records =>
      simp only [StreamState.step, whenever_eq_some] at next
      obtain ⟨_, rfl⟩ := next
      refine ⟨inOrder.trans (List.prefix_append _ _), ?_, ?_, registered⟩
      · cases reader with
        | immediate =>
            exact Nat.le_trans behindReader
              (List.prefix_append _ _).length_le
        | prefetching => exact behindReader
      · simp only [List.length_append]
        omega
  | prefetch count =>
      simp only [StreamState.step, whenever_eq_some] at next
      obtain ⟨⟨_, bound⟩, rfl⟩ := next
      refine ⟨inOrder, ?_, bound, registered⟩
      cases reader with
      | immediate => exact behindReader
      | prefetching =>
          exact Nat.le_trans behindReader (Nat.le_add_right _ _)
  | takeBatch count =>
      simp only [StreamState.step, whenever_eq_some] at next
      obtain ⟨⟨atNext, _, _, bound⟩, rfl⟩ := next
      have visibleBound : s.visible reader ≤ s.pushed.length := by
        cases reader with
        | immediate => exact Nat.le_refl _
        | prefetching => exact behindReceiver
      have cut : StreamState.delivered
          { s with
            yielded :=
              s.yielded ++ [(s.pushed.drop s.delivered.length).take count]
            point := .yielded } =
            s.pushed.take (s.delivered.length + count) := by
        rw [← Slices.append_next_of_prefix inOrder count]
        simp [StreamState.delivered]
      refine ⟨?_, ?_, behindReceiver, fun _ => registered (.inl ?_)⟩
      · rw [cut]
        exact List.take_prefix _ _
      · rw [cut, List.length_take]
        exact Nat.le_trans (Nat.min_le_left _ _) bound
      · simp [atNext, GeneratorPoint.hasReader]
  | addClient =>
      simp only [StreamState.step, whenever_eq_some] at next
      obtain ⟨_, rfl⟩ := next
      exact ⟨inOrder, behindReader, behindReceiver, fun _ => rfl⟩
  | receiverStop | dispatch | runCallback =>
      simp only [StreamState.step, whenever_eq_some] at next
      obtain ⟨_, rfl⟩ := next
      exact ⟨inOrder, behindReader, behindReceiver, registered⟩
  | getBuffer =>
      simp only [StreamState.step, whenever_eq_some] at next
      obtain ⟨_, rfl⟩ := next
      exact ⟨inOrder, behindReader, behindReceiver,
        by simp [GeneratorPoint.hasReader]⟩
  | makeReader =>
      simp only [StreamState.step, whenever_eq_some] at next
      obtain ⟨atMake, rfl⟩ := next
      exact ⟨inOrder, behindReader, behindReceiver,
        fun _ => registered (.inr atMake)⟩
  | testRunning | batchNone | resume | clearEvent | wake | timeout =>
      simp only [StreamState.step, whenever_eq_some] at next
      obtain ⟨guard, rfl⟩ := next
      refine ⟨inOrder, behindReader, behindReceiver, fun _ => registered ?_⟩
      simp [GeneratorPoint.hasReader, guard]

theorem Run.consistent {s : StreamState ρ} {schedule : List (StreamAction ρ)}
    (run : Run (StreamState.step reader batchCapacity)
      (StreamState.connected ρ) schedule s) : s.Consistent reader :=
  run.invariant (fun _ _ _ held next => held.step next) consistent_connected

/-! ### The records pushed after the last drain -/

/-- The part of a schedule after the last `next_batch` that returned `None`,
latest step first; the whole schedule when there is none. -/
def sinceNone (schedule : List (StreamAction ρ)) : List (StreamAction ρ) :=
  schedule.reverse.takeWhile fun action => !action.isBatchNone

/-- The receiver pushes nothing after the last `next_batch` that returned
`None`, and nothing at all when `next_batch` never did. -/
def noPushSinceNone (schedule : List (StreamAction ρ)) : Bool :=
  (sinceNone schedule).all fun action => !action.isPush

@[simp] theorem noPushSinceNone_snoc (past : List (StreamAction ρ))
    (action : StreamAction ρ) :
    noPushSinceNone (past ++ [action]) =
      match action with
      | .batchNone => true
      | .push _ => false
      | _ => noPushSinceNone past := by
  cases action <;>
    simp [noPushSinceNone, sinceNone, StreamAction.isBatchNone,
      StreamAction.isPush]

/-- The generator is outside its drain loop: it has called `next_batch` until
`None` or has not called it yet. -/
def GeneratorPoint.outsideDrain : GeneratorPoint → Bool
  | .nextBatch | .yielded => false
  | _ => true

/-- Outside the drain loop the only undelivered records are those pushed since
the last `None`. -/
def DrainedUpTo (past : List (StreamAction ρ)) (s : StreamState ρ) : Prop :=
  s.Consistent .immediate ∧
    (s.point.outsideDrain = true →
      (s.delivered = s.pushed ↔ noPushSinceNone past = true))

theorem drainedUpTo_connected :
    DrainedUpTo [] (StreamState.connected ρ) :=
  ⟨consistent_connected, fun _ => iff_of_true rfl rfl⟩

/-- A push leaves a new record behind the delivered prefix. -/
theorem delivered_ne_push {s : StreamState ρ} {records : List ρ}
    (inOrder : s.delivered <+: s.pushed) (nonempty : records.isEmpty = false) :
    s.delivered ≠ s.pushed ++ records := by
  intro same
  have lengths := congrArg List.length same
  have bound := inOrder.length_le
  cases records with
  | nil => simp at nonempty
  | cons first rest =>
      simp only [List.length_append, List.length_cons] at lengths
      omega

theorem DrainedUpTo.step {past : List (StreamAction ρ)}
    {s t : StreamState ρ} {action : StreamAction ρ}
    (drained : DrainedUpTo past s)
    (next : s.step .immediate batchCapacity action = some t) :
    DrainedUpTo (past ++ [action]) t := by
  have consistent := drained.1.step next
  refine ⟨consistent, ?_⟩
  have before := drained.2
  cases action with
  | push records =>
      simp only [StreamState.step, whenever_eq_some] at next
      obtain ⟨⟨_, nonempty⟩, rfl⟩ := next
      intro _
      rw [noPushSinceNone_snoc]
      have grown : s.delivered ≠ s.pushed ++ records :=
        delivered_ne_push drained.1.inOrder nonempty
      exact iff_of_false grown Bool.false_ne_true
  | batchNone =>
      simp only [StreamState.step, whenever_eq_some] at next
      obtain ⟨⟨_, drainedAll⟩, rfl⟩ := next
      intro _
      rw [noPushSinceNone_snoc]
      have complete : s.delivered = s.pushed :=
        drained.1.inOrder.eq_of_length_le drainedAll
      exact iff_of_true complete rfl
  | takeBatch | resume =>
      simp only [StreamState.step, whenever_eq_some] at next
      obtain ⟨_, rfl⟩ := next
      intro outside
      simp [GeneratorPoint.outsideDrain] at outside
  | receiverStop | dispatch | runCallback | prefetch =>
      simp only [StreamState.step, whenever_eq_some] at next
      obtain ⟨_, rfl⟩ := next
      rw [noPushSinceNone_snoc]
      exact before
  | getBuffer | addClient | makeReader | testRunning | clearEvent | wake
  | timeout =>
      simp only [StreamState.step, whenever_eq_some] at next
      obtain ⟨guard, rfl⟩ := next
      intro _
      rw [noPushSinceNone_snoc]
      exact before (by simp [GeneratorPoint.outsideDrain, guard])

/-! ### Delivery at the end of the stream -/

/-- When the generator ends because `rx.is_running()` is false, it has yielded
every pushed record, in order and once, exactly in the runs in which nothing
was pushed after the last `next_batch` that returned `None`. -/
theorem stream_complete_iff (batchCapacity : Nat)
    {schedule : List (StreamAction ρ)} {s : StreamState ρ}
    (run : Run (StreamState.step .immediate batchCapacity)
      (StreamState.connected ρ) schedule s)
    (ended : s.point = .ended) :
    s.delivered = s.pushed ↔ noPushSinceNone schedule = true := by
  have drained : DrainedUpTo schedule s :=
    run.history (fun _ _ _ _ held next => held.step next)
      drainedUpTo_connected
  exact drained.2 (by simp [ended, GeneratorPoint.outsideDrain])

/-- The generator drains record 1 and waits; record 2 is pushed, wakes it up,
and the receiver stops before `while rx.is_running()` is evaluated again. -/
def pushThenStop : List (StreamAction Nat) :=
  [.getBuffer, .addClient, .makeReader, .push [1], .testRunning, .takeBatch 1,
    .resume, .batchNone, .clearEvent, .push [2], .dispatch, .dispatch,
    .runCallback, .receiverStop, .wake, .testRunning]

/-- The state `pushThenStop` ends in: record 2 was received and not yielded. -/
def pushThenStopEnd : StreamState Nat :=
  { pushed := [1, 2], running := false, registered := true, queued := 1,
    event := true, point := .ended, yielded := [[1]] }

/-- A run of `pushThenStop` meets the premises and loses record 2. -/
theorem stream_complete_iff_pushThenStop :
    pushThenStopEnd.delivered = pushThenStopEnd.pushed ↔
      noPushSinceNone pushThenStop = true :=
  stream_complete_iff 1000 (by decide) rfl

/-- The stream does not deliver every record it received before its end. -/
theorem stream_loses_records :
    ¬ ∀ (schedule : List (StreamAction Nat)) (s : StreamState Nat),
      Run (StreamState.step .immediate 1000) (StreamState.connected Nat)
        schedule s →
      s.point = .ended → s.delivered = s.pushed := by
  intro complete
  have kept : pushThenStopEnd.delivered = pushThenStopEnd.pushed :=
    complete pushThenStop pushThenStopEnd (by decide) rfl
  exact absurd kept (by decide)

end CycFlowPy.Stream
