/-
Module: CycFlowPy.Proofs.StreamProgress
Purpose: While the receiver runs `stream()` never gets stuck, and it yields
  every record the reader can see within a bounded number of its own steps and
  after at most one wake-up or timeout, whatever the other parties do.
Trusted boundary: none
Main exports: StreamAction.isGenerators, StreamState.distance, Streaming,
  stream_delivers_visible
-/
import CycFlowPy.Proofs.StreamWakeups

namespace CycFlowPy.Stream

open Runs

variable {ρ : Type} {reader : ReaderKind} {batchCapacity : Nat}

/-! ### The generator's own steps -/

/-- A step of the coroutine, the consumer's request for a batch and the end of
a wait included. -/
def StreamAction.isGenerators : StreamAction ρ → Bool
  | .push _ | .receiverStop | .dispatch | .runCallback | .prefetch _ => false
  | _ => true

/-- The end of a wait in `event.wait()`. -/
def StreamAction.endsWait : StreamAction ρ → Bool
  | .wake | .timeout => true
  | _ => false

def StreamAction.isReceiverStop : StreamAction ρ → Bool
  | .receiverStop => true
  | _ => false

/-- How many steps the position is before the next call of `next_batch`. -/
def GeneratorPoint.ahead : GeneratorPoint → Nat
  | .getBuffer => 4
  | .addClient | .clearEvent => 3
  | .makeReader | .waiting => 2
  | .testRunning | .yielded => 1
  | .nextBatch | .ended => 0

/-- How many waits are before the next call of `next_batch`. -/
def GeneratorPoint.waitsAhead : GeneratorPoint → Nat
  | .clearEvent | .waiting => 1
  | _ => 0

/-- How far the generator is from having yielded `target` records. -/
def StreamState.distance (target : Nat) (s : StreamState ρ) : Nat :=
  2 * (target - s.delivered.length) + s.point.ahead

/-- The receiver runs, and the reader can see `target` records. -/
structure Streaming (reader : ReaderKind) (target : Nat) (s : StreamState ρ) :
    Prop where
  consistent : s.Consistent reader
  running : s.running = true
  notEnded : s.point ≠ .ended
  seen : target ≤ s.visible reader

/-- The first `target` records have been yielded. -/
def StreamState.Yielded (target : Nat) (s : StreamState ρ) : Prop :=
  target ≤ s.delivered.length

theorem StreamState.Yielded.step {target : Nat} {s t : StreamState ρ}
    {action : StreamAction ρ}
    (next : s.step reader batchCapacity action = some t)
    (yielded : s.Yielded target) : t.Yielded target := by
  cases action with
  | takeBatch count =>
      rcases whenever_eq_some.mp next with ⟨_, rfl⟩
      have longer : s.delivered <+: (s.yielded ++
          [(s.pushed.drop s.delivered.length).take count]).flatten := by
        simp [StreamState.delivered]
      exact Nat.le_trans yielded longer.length_le
  | push | receiverStop | dispatch | runCallback | prefetch | getBuffer
  | addClient | makeReader | testRunning | batchNone | resume | clearEvent
  | wake | timeout =>
      rcases whenever_eq_some.mp next with ⟨_, rfl⟩
      exact yielded

theorem Streaming.step {target : Nat} {s t : StreamState ρ}
    {action : StreamAction ρ} (streaming : Streaming reader target s)
    (goesOn : action.isReceiverStop = false)
    (next : s.step reader batchCapacity action = some t) :
    Streaming reader target t := by
  have consistent := streaming.consistent.step next
  rcases streaming with ⟨_, running, notEnded, seen⟩
  cases action with
  | receiverStop => cases goesOn
  | push records =>
      rcases whenever_eq_some.mp next with ⟨_, rfl⟩
      refine ⟨consistent, running, notEnded, Nat.le_trans seen ?_⟩
      cases reader with
      | immediate => simp [StreamState.visible]
      | prefetching => exact Nat.le_refl _
  | prefetch count =>
      rcases whenever_eq_some.mp next with ⟨_, rfl⟩
      refine ⟨consistent, running, notEnded, Nat.le_trans seen ?_⟩
      cases reader with
      | immediate => exact Nat.le_refl _
      | prefetching => exact Nat.le_add_right _ _
  | testRunning =>
      rcases whenever_eq_some.mp next with ⟨_, rfl⟩
      exact ⟨consistent, running, by simp [running], seen⟩
  | dispatch | runCallback =>
      rcases whenever_eq_some.mp next with ⟨_, rfl⟩
      exact ⟨consistent, running, notEnded, seen⟩
  | getBuffer | addClient | makeReader | takeBatch | batchNone | resume
  | clearEvent | wake | timeout =>
      rcases whenever_eq_some.mp next with ⟨_, rfl⟩
      exact ⟨consistent, running, by simp, seen⟩

theorem StreamState.Consistent.visible_le {s : StreamState ρ}
    (consistent : s.Consistent reader) :
    s.visible reader ≤ s.pushed.length := by
  cases reader with
  | immediate => exact Nat.le_refl _
  | prefetching => exact consistent.behindReceiver

/-- Taking a batch yields as many records as it holds. -/
theorem length_delivered_takeBatch {s : StreamState ρ} {count : Nat}
    (consistent : s.Consistent reader)
    (bound : s.delivered.length + count ≤ s.visible reader) :
    (s.yielded ++
      [(s.pushed.drop s.delivered.length).take count]).flatten.length =
        s.delivered.length + count := by
  have behind := consistent.visible_le
  rw [List.flatten_append, List.length_append, List.flatten_singleton,
    List.length_take, List.length_drop, Nat.min_eq_left (by omega)]
  rfl

/-! ### What a step costs -/

/-- As long as some of the target is missing, every step of the generator
brings it closer. -/
theorem distance_step {target : Nat} {s t : StreamState ρ}
    {action : StreamAction ρ} (streaming : Streaming reader target s)
    (next : s.step reader batchCapacity action = some t)
    (missing : ¬ t.Yielded target) :
    t.distance target + action.isGenerators.toNat ≤ s.distance target := by
  have seen := streaming.seen
  cases action with
  | push | receiverStop | dispatch | runCallback | prefetch =>
      rcases whenever_eq_some.mp next with ⟨_, rfl⟩
      exact Nat.le_refl _
  | getBuffer | addClient | makeReader | clearEvent | resume =>
      rcases whenever_eq_some.mp next with ⟨point, rfl⟩
      simp only [StreamState.distance, point]
      exact Nat.le_refl _
  | wake =>
      rcases whenever_eq_some.mp next with ⟨⟨point, _⟩, rfl⟩
      simp only [StreamState.distance, point]
      exact Nat.le_refl _
  | timeout =>
      rcases whenever_eq_some.mp next with ⟨point, rfl⟩
      simp only [StreamState.distance, point]
      exact Nat.le_refl _
  | testRunning =>
      rcases whenever_eq_some.mp next with ⟨point, rfl⟩
      simp only [StreamState.distance, point, streaming.running, if_true]
      exact Nat.le_refl _
  | takeBatch count =>
      rcases whenever_eq_some.mp next with ⟨⟨point, some, _, bound⟩, rfl⟩
      have length := length_delivered_takeBatch streaming.consistent bound
      unfold StreamState.Yielded StreamState.delivered at missing
      simp only [StreamState.distance, StreamState.delivered, point,
        StreamAction.isGenerators, GeneratorPoint.ahead] at length missing ⊢
      simp only [Bool.toNat_true]
      omega
  | batchNone =>
      rcases whenever_eq_some.mp next with ⟨⟨_, drained⟩, rfl⟩
      exact absurd (Nat.le_trans seen drained) missing

/-- As long as some of the target is missing, the end of a wait leads to the
next call of `next_batch` without another wait. -/
theorem waits_step {target : Nat} {s t : StreamState ρ}
    {action : StreamAction ρ} (streaming : Streaming reader target s)
    (next : s.step reader batchCapacity action = some t)
    (missing : ¬ t.Yielded target) :
    t.point.waitsAhead + action.endsWait.toNat ≤ s.point.waitsAhead := by
  cases action with
  | push | receiverStop | dispatch | runCallback | prefetch =>
      rcases whenever_eq_some.mp next with ⟨_, rfl⟩
      exact Nat.le_refl _
  | getBuffer | addClient | makeReader | clearEvent | resume =>
      rcases whenever_eq_some.mp next with ⟨point, rfl⟩
      simp [point, GeneratorPoint.waitsAhead, StreamAction.endsWait]
  | wake =>
      rcases whenever_eq_some.mp next with ⟨⟨point, _⟩, rfl⟩
      simp [point, GeneratorPoint.waitsAhead, StreamAction.endsWait]
  | timeout =>
      rcases whenever_eq_some.mp next with ⟨point, rfl⟩
      simp [point, GeneratorPoint.waitsAhead, StreamAction.endsWait]
  | testRunning =>
      rcases whenever_eq_some.mp next with ⟨point, rfl⟩
      simp [point, streaming.running, GeneratorPoint.waitsAhead,
        StreamAction.endsWait]
  | takeBatch count =>
      rcases whenever_eq_some.mp next with ⟨⟨point, _⟩, rfl⟩
      simp [point, GeneratorPoint.waitsAhead, StreamAction.endsWait]
  | batchNone =>
      rcases whenever_eq_some.mp next with ⟨⟨_, drained⟩, rfl⟩
      exact absurd (Nat.le_trans streaming.seen drained) missing

/-! ### The generator is never stuck -/

/-- A generator that has ended saw that the receiver does not run. -/
def StreamState.EndsStopped (s : StreamState ρ) : Prop :=
  s.point = .ended → s.running = false

theorem StreamState.EndsStopped.step {s t : StreamState ρ}
    {action : StreamAction ρ} (ended : s.EndsStopped)
    (next : s.step reader batchCapacity action = some t) :
    t.EndsStopped := by
  unfold StreamState.EndsStopped at ended ⊢
  cases action with
  | testRunning =>
      rcases whenever_eq_some.mp next with ⟨_, rfl⟩
      cases running : s.running with
      | true => simp
      | false => simp
  | receiverStop =>
      rcases whenever_eq_some.mp next with ⟨_, rfl⟩
      exact fun _ => rfl
  | push | dispatch | runCallback | prefetch =>
      rcases whenever_eq_some.mp next with ⟨_, rfl⟩
      exact ended
  | getBuffer | addClient | makeReader | takeBatch | batchNone | resume
  | clearEvent | wake | timeout =>
      rcases whenever_eq_some.mp next with ⟨_, rfl⟩
      simp

/-- The step that comes next at the generator's position. -/
def StreamState.nextStep (reader : ReaderKind) (s : StreamState ρ) :
    StreamAction ρ :=
  match s.point with
  | .getBuffer => .getBuffer
  | .addClient => .addClient
  | .makeReader => .makeReader
  | .testRunning | .ended => .testRunning
  | .nextBatch =>
      if s.visible reader ≤ s.delivered.length then .batchNone
      else .takeBatch 1
  | .yielded => .resume
  | .clearEvent => .clearEvent
  | .waiting => .timeout

theorem nextStep_enabled (room : 1 ≤ batchCapacity) {s : StreamState ρ}
    (notEnded : s.point ≠ .ended) :
    (s.nextStep reader).isGenerators = true ∧
      ∃ t, s.step reader batchCapacity (s.nextStep reader) = some t := by
  unfold StreamState.nextStep
  cases point : s.point with
  | ended => exact absurd point notEnded
  | nextBatch =>
      by_cases drained : s.visible reader ≤ s.delivered.length
      · rw [if_pos drained]
        exact ⟨rfl, _, whenever_of ⟨point, drained⟩ _⟩
      · rw [if_neg drained]
        exact ⟨rfl, _, whenever_of
          ⟨point, Nat.one_pos, room, Nat.lt_of_not_le drained⟩ _⟩
  | getBuffer | addClient | makeReader | testRunning | yielded | clearEvent
  | waiting => exact ⟨rfl, _, whenever_of point _⟩

/-! ### Bounded delay -/

theorem GeneratorPoint.ahead_le (point : GeneratorPoint) :
    point.ahead ≤ 4 := by
  cases point <;> decide

theorem GeneratorPoint.waitsAhead_le (point : GeneratorPoint) :
    point.waitsAhead ≤ 1 := by
  cases point <;> decide

theorem pushed_step {s t : StreamState ρ} {action : StreamAction ρ}
    (next : s.step reader batchCapacity action = some t) :
    s.pushed <+: t.pushed := by
  cases action with
  | push records =>
      rcases whenever_eq_some.mp next with ⟨_, rfl⟩
      exact List.prefix_append _ _
  | receiverStop | dispatch | runCallback | prefetch | getBuffer | addClient
  | makeReader | testRunning | takeBatch | batchNone | resume | clearEvent
  | wake | timeout =>
      rcases whenever_eq_some.mp next with ⟨_, rfl⟩
      exact List.prefix_refl _

/-- The first `target` of the records pushed before a run have been yielded
after it when that many records have. -/
theorem delivered_of_yielded {s t : StreamState ρ}
    {schedule : List (StreamAction ρ)} {target : Nat}
    (consistent : s.Consistent reader)
    (run : Run (StreamState.step reader batchCapacity) s schedule t)
    (yielded : t.Yielded target) :
    s.pushed.take target <+: t.delivered := by
  have after : t.Consistent reader ∧ s.pushed <+: t.pushed := by
    apply run.invariant _ ⟨consistent, List.prefix_refl _⟩
    rintro middle action last ⟨held, grown⟩ next
    exact ⟨held.step next, grown.trans (pushed_step next)⟩
  apply List.prefix_of_prefix_length_le
    ((List.take_prefix target s.pushed).trans after.2) after.1.inOrder
  exact Nat.le_trans (List.length_take_le target s.pushed) yielded

/-- In every state that is reached while the receiver runs some step of the
generator is possible, and in every continuation in which the receiver is not
stopped, as long as a record that the reader could see is missing from what was
yielded, the generator has made at most `2 * n + 2` steps for the `n` records
that were missing, and at most one of them ended a wait. -/
theorem stream_delivers_visible (room : 1 ≤ batchCapacity)
    {s : StreamState ρ}
    (reached : Reachable (StreamState.step reader batchCapacity)
      (StreamState.connected ρ) s)
    (running : s.running = true) :
    (∃ action : StreamAction ρ, action.isGenerators = true ∧
      ∃ t, s.step reader batchCapacity action = some t) ∧
    ∀ (schedule : List (StreamAction ρ)) (t : StreamState ρ),
      Run (StreamState.step reader batchCapacity) s schedule t →
      (∀ action ∈ schedule, action.isReceiverStop = false) →
      ¬ s.pushed.take (s.visible reader) <+: t.delivered →
        (schedule.map fun action => action.isGenerators.toNat).sum ≤
          2 * (s.visible reader - s.delivered.length) + 2 ∧
        (schedule.map fun action => action.endsWait.toNat).sum ≤ 1 := by
  have consistent : s.Consistent reader := by
    rcases reached with ⟨past, run⟩
    exact Run.consistent run
  have notEnded : s.point ≠ .ended := by
    have ended : s.EndsStopped :=
      reached.invariant (fun _ _ _ held next => held.step next)
        (fun atEnd => by cases atEnd)
    intro atEnd
    rw [ended atEnd] at running
    cases running
  constructor
  · exact ⟨s.nextStep reader, nextStep_enabled room notEnded⟩
  · intro schedule t run goesOn missing
    have start : Streaming reader (s.visible reader) s :=
      ⟨consistent, running, notEnded, Nat.le_refl _⟩
    have unmet : ¬ t.Yielded (s.visible reader) := by
      intro yielded
      exact missing (delivered_of_yielded consistent run yielded)
    have steps := run.cost_le
      (fun _ _ _ streaming goesOn next => streaming.step goesOn next)
      (fun _ _ _ next yielded => yielded.step next)
      (fun _ _ _ streaming _ next unmet =>
        distance_step streaming next unmet)
      goesOn start unmet
    have waits := run.cost_le
      (fun _ _ _ streaming goesOn next => streaming.step goesOn next)
      (fun _ _ _ next yielded => yielded.step next)
      (fun _ _ _ streaming _ next unmet => waits_step streaming next unmet)
      goesOn start unmet
    have ahead := s.point.ahead_le
    have waitsAhead := s.point.waitsAhead_le
    unfold StreamState.Yielded at unmet
    simp only [StreamState.distance] at steps
    constructor
    · omega
    · omega

/-- The timeout that follows a lost wake-up. -/
def timeoutAfterLostWakeup : List (StreamAction Nat) :=
  [.timeout, .testRunning]

theorem stream_delivers_visible_lostWakeup :
    (∃ action : StreamAction Nat, action.isGenerators = true ∧
      ∃ t, callbackBeforePrefetchEnd.step .prefetching 1000 action =
        some t) ∧
    (timeoutAfterLostWakeup.map fun action =>
      action.isGenerators.toNat).sum ≤ 4 ∧
    (timeoutAfterLostWakeup.map fun action => action.endsWait.toNat).sum ≤
      1 := by
  have reached : Reachable (StreamState.step .prefetching 1000)
      (StreamState.connected Nat) callbackBeforePrefetchEnd :=
    ⟨callbackBeforePrefetch, by decide⟩
  rcases stream_delivers_visible (show 1 ≤ 1000 by decide) reached rfl with
    ⟨enabled, bounded⟩
  exact ⟨enabled, bounded timeoutAfterLostWakeup
    { callbackBeforePrefetchEnd with point := .nextBatch } (by decide)
    (by decide) (by decide)⟩

end CycFlowPy.Stream
