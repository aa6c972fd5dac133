/-
Module: CycFlowPy.Proofs.StreamWakeups
Purpose: When the generator may sleep in `event.wait()` over undelivered
  records with no `event.set` left to come.
Trusted boundary: none
Main exports: NoLostWakeup, NoneWithWakeup, noLostWakeup_of_noneWithWakeup,
  lostWakeup_of_none, stream_wakeups
-/
import CycFlowPy.Proofs.StreamDelivery

namespace CycFlowPy.Stream

open Runs

variable {ρ : Type} {batchCapacity : Nat}

/-- Some `event.set` is still to come: queued on the loop, or owed by a push
whose callback has not been dispatched. -/
def StreamState.WakeupPending (s : StreamState ρ) : Prop :=
  0 < s.queued ∨ 0 < s.undispatched

instance (s : StreamState ρ) : Decidable s.WakeupPending :=
  inferInstanceAs (Decidable (_ ∨ _))

/-- No lost wake-up: a generator that sleeps on a clear event over
undelivered records of a running receiver is going to be woken. -/
def StreamState.NoLostWakeup (s : StreamState ρ) : Prop :=
  s.point = .waiting → s.event = false → s.running = true →
    s.delivered ≠ s.pushed → s.WakeupPending

/-- The condition on a `next_batch` of a running receiver that returns `None`:
the prefetch worker has caught up with the receiver, or some `event.set` is
still to come. -/
def NoneWithWakeup (s : StreamState ρ) (action : StreamAction ρ) : Prop :=
  action.isBatchNone = true → s.running = true →
    s.prefetched = s.pushed.length ∨ s.WakeupPending

instance (s : StreamState ρ) (action : StreamAction ρ) :
    Decidable (NoneWithWakeup s action) :=
  inferInstanceAs (Decidable (_ → _))

/-- The generator has drained and has not been woken since: it is about to
clear the event, or sleeps on the cleared event. -/
def StreamState.Asleep (s : StreamState ρ) : Prop :=
  s.point = .clearEvent ∨ s.point = .waiting ∧ s.event = false

/-- Between the drain and the wake-up, undelivered records of a running
receiver keep an `event.set` pending. -/
def StreamState.WakesUp (s : StreamState ρ) : Prop :=
  s.Consistent .prefetching ∧
    (s.Asleep → s.running = true →
      s.delivered = s.pushed ∨ s.WakeupPending)

theorem StreamState.WakesUp.noLostWakeup {s : StreamState ρ}
    (wakes : s.WakesUp) : s.NoLostWakeup := by
  intro waiting clear running undelivered
  rcases wakes.2 (.inr ⟨waiting, clear⟩) running with same | pending
  · exact absurd same undelivered
  · exact pending

theorem wakesUp_connected :
    StreamState.WakesUp (StreamState.connected ρ) :=
  ⟨consistent_connected, fun _ _ => .inl rfl⟩

/-- A push while the generator sleeps owes a callback, because the client is
registered by then. -/
theorem StreamState.Asleep.registered {s : StreamState ρ}
    (asleep : s.Asleep) (consistent : s.Consistent .prefetching) :
    s.registered = true := by
  apply consistent.registered
  rcases asleep with clearing | ⟨waiting, _⟩
  · simp [clearing, GeneratorPoint.hasReader]
  · simp [waiting, GeneratorPoint.hasReader]

theorem StreamState.WakesUp.step {s t : StreamState ρ}
    {action : StreamAction ρ} (wakes : s.WakesUp)
    (condition : NoneWithWakeup s action)
    (next : s.step .prefetching batchCapacity action = some t) :
    t.WakesUp := by
  refine ⟨wakes.1.step next, ?_⟩
  have before := wakes.2
  cases action with
  | push records =>
      simp only [StreamState.step, whenever_eq_some] at next
      obtain ⟨_, rfl⟩ := next
      intro asleep _
      have registered : s.registered = true :=
        StreamState.Asleep.registered (s := s) asleep wakes.1
      right
      right
      simp [registered]
  | dispatch =>
      simp only [StreamState.step, whenever_eq_some] at next
      obtain ⟨_, rfl⟩ := next
      intro _ _
      exact .inr (.inl (Nat.succ_pos _))
  | runCallback =>
      simp only [StreamState.step, whenever_eq_some] at next
      obtain ⟨⟨_, suspended⟩, rfl⟩ := next
      intro asleep
      -- the loop runs callbacks only at a suspension, and then sets the event
      rcases asleep with clearing | ⟨_, clear⟩
      · simp_all [GeneratorPoint.suspended]
      · simp at clear
  | batchNone =>
      simp only [StreamState.step, whenever_eq_some] at next
      obtain ⟨⟨_, drained⟩, rfl⟩ := next
      intro _ running
      rcases condition rfl running with caughtUp | pending
      · left
        apply wakes.1.inOrder.eq_of_length_le
        rw [← caughtUp]
        exact drained
      · exact .inr pending
  | clearEvent =>
      simp only [StreamState.step, whenever_eq_some] at next
      obtain ⟨clearing, rfl⟩ := next
      intro _
      exact before (.inl clearing)
  | receiverStop =>
      simp only [StreamState.step, whenever_eq_some] at next
      obtain ⟨_, rfl⟩ := next
      intro _ running
      simp at running
  | prefetch =>
      simp only [StreamState.step, whenever_eq_some] at next
      obtain ⟨_, rfl⟩ := next
      exact before
  | testRunning =>
      simp only [StreamState.step, whenever_eq_some] at next
      obtain ⟨_, rfl⟩ := next
      intro asleep
      simp only [StreamState.Asleep] at asleep
      split at asleep <;> simp at asleep
  | getBuffer | addClient | makeReader | takeBatch | resume | wake
  | timeout =>
      simp only [StreamState.step, whenever_eq_some] at next
      obtain ⟨_, rfl⟩ := next
      intro asleep
      simp [StreamState.Asleep] at asleep

/-- In every run in which each `None` of `next_batch` meets the condition, no
wake-up is lost. -/
theorem noLostWakeup_of_noneWithWakeup {schedule : List (StreamAction ρ)}
    {s : StreamState ρ}
    (run : Run (StreamState.step .prefetching batchCapacity)
      (StreamState.connected ρ) schedule s)
    (meets : Meets (StreamState.step .prefetching batchCapacity)
      NoneWithWakeup (StreamState.connected ρ) schedule) :
    s.NoLostWakeup := by
  have wakes : s.WakesUp :=
    meets.invariant (fun _ _ _ held condition next => held.step condition next)
      run wakesUp_connected
  exact wakes.noLostWakeup

/-- A `None` that does not meet the condition loses the wake-up as soon as the
generator has cleared the event. -/
theorem lostWakeup_of_none {s t : StreamState ρ}
    (consistent : s.Consistent .prefetching)
    (next : s.step .prefetching batchCapacity .batchNone = some t)
    (unmet : ¬ NoneWithWakeup s .batchNone) :
    ∃ u, t.step .prefetching batchCapacity .clearEvent = some u ∧
      ¬ u.NoLostWakeup := by
  simp only [StreamState.step, whenever_eq_some] at next
  rcases next with ⟨_, rfl⟩
  simp only [NoneWithWakeup, not_forall, not_or] at unmet
  rcases unmet with ⟨_, running, behind, nothingPending⟩
  refine ⟨_, whenever_of rfl _, ?_⟩
  intro noLostWakeup
  have undelivered : s.delivered ≠ s.pushed := by
    intro same
    have lengths := congrArg List.length same
    have handedOut : s.delivered.length ≤ s.prefetched :=
      consistent.behindReader
    have copied := consistent.behindReceiver
    omega
  exact nothingPending (noLostWakeup rfl rfl running undelivered)

/-- No wake-up is lost in a run whose `None` answers all meet the condition.  A
`None` that does not meet it, in any state that is reached, puts the generator
to sleep over an undelivered record that nothing will announce when
`event.clear()` follows at once. -/
theorem stream_wakeups (ρ : Type) (batchCapacity : Nat) :
    (∀ (schedule : List (StreamAction ρ)) (s : StreamState ρ),
      Run (StreamState.step .prefetching batchCapacity)
        (StreamState.connected ρ) schedule s →
      Meets (StreamState.step .prefetching batchCapacity) NoneWithWakeup
        (StreamState.connected ρ) schedule →
      s.NoLostWakeup) ∧
    (∀ s t : StreamState ρ,
      Reachable (StreamState.step .prefetching batchCapacity)
        (StreamState.connected ρ) s →
      s.step .prefetching batchCapacity .batchNone = some t →
      ¬ NoneWithWakeup s .batchNone →
      ∃ u, t.step .prefetching batchCapacity .clearEvent = some u ∧
        ¬ u.NoLostWakeup) := by
  constructor
  · intro schedule s run meets
    exact noLostWakeup_of_noneWithWakeup run meets
  · intro s t reached next unmet
    rcases reached with ⟨schedule, run⟩
    exact lostWakeup_of_none (Run.consistent run) next unmet

/-- A run whose `None` answers meet the condition: record 1 is prefetched
before its callback runs. -/
def prefetchBeforeCallback : List (StreamAction Nat) :=
  [.getBuffer, .addClient, .makeReader, .testRunning, .push [1], .batchNone,
    .clearEvent, .prefetch 1, .dispatch, .runCallback, .wake, .testRunning,
    .takeBatch 1, .resume, .batchNone, .clearEvent]

theorem stream_wakeups_prefetchBeforeCallback :
    StreamState.NoLostWakeup
      { pushed := [1], prefetched := 1, registered := true, point := .waiting,
        yielded := [[1]] } :=
  (stream_wakeups Nat 1000).1 prefetchBeforeCallback _ (by decide)
    (by decide)

/-- The callback for record 1 runs while the prefetch worker has not copied
the record yet; `next_batch` answers `None` once more, and the event is
cleared before the record becomes visible. -/
def callbackBeforePrefetch : List (StreamAction Nat) :=
  [.getBuffer, .addClient, .makeReader, .testRunning, .push [1], .batchNone,
    .clearEvent, .dispatch, .runCallback, .wake, .testRunning, .batchNone,
    .clearEvent, .prefetch 1]

/-- The generator sleeps over record 1, which is visible, and nothing is left
to wake it up. -/
def callbackBeforePrefetchEnd : StreamState Nat :=
  { pushed := [1], prefetched := 1, registered := true, point := .waiting }

/-- `stream()` loses wake-ups. -/
theorem stream_loses_wakeup :
    ¬ ∀ (schedule : List (StreamAction Nat)) (s : StreamState Nat),
      Run (StreamState.step .prefetching 1000) (StreamState.connected Nat)
        schedule s →
      s.NoLostWakeup := by
  intro noLostWakeup
  have pending : callbackBeforePrefetchEnd.WakeupPending :=
    noLostWakeup callbackBeforePrefetch callbackBeforePrefetchEnd (by decide)
      rfl rfl rfl (by decide)
  exact absurd pending (by decide)

end CycFlowPy.Stream
