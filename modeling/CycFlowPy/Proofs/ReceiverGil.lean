/-
Module: CycFlowPy.Proofs.ReceiverGil
Purpose: Leaving a receiver deadlocks on the GIL exactly when it is left
  through `__exit__` with a client registered.
Trusted boundary: none
Main exports: GilState.Deadlocked.stuck, leaving_deadlock_free_iff
-/
import CycFlowPy.Model.ReceiverGil

namespace CycFlowPy.ReceiverGil

open Runs

variable {via : LeaveVia} {clients : Nat}

/-- A deadlocked state is final: no thread can take a step. -/
theorem GilState.Deadlocked.stuck {s : GilState} (deadlocked : s.Deadlocked)
    (action : GilAction) : s.step via clients action = none := by
  rcases deadlocked with ⟨waiting, held, waits⟩
  cases background : s.background with
  | wantGil i =>
      cases action <;>
        simp [GilState.step, whenever, waiting, held, background]
  | regain i =>
      cases action <;>
        simp [GilState.step, whenever, waiting, held, background]
  | receiving | notifying | callback | exited =>
      simp [background, BackgroundPoint.waitsForGil] at waits

/-! ### `stop()` gives the GIL up while it waits -/

def WaitsWithoutGil (s : GilState) : Prop :=
  s.python = .waiting → s.gil ≠ some .python

theorem WaitsWithoutGil.step {s t : GilState} {action : GilAction}
    (without : WaitsWithoutGil s)
    (next : s.step .stop clients action = some t) : WaitsWithoutGil t := by
  intro waiting
  cases action with
  | switchOut | switchIn | leave | stopReturns | finish =>
      simp only [GilState.step, whenever_eq_some] at next
      rcases next with ⟨guard, rfl⟩
      simp [guard] at waiting
  | beginStop =>
      simp only [GilState.step, whenever_eq_some] at next
      rcases next with ⟨_, rfl⟩
      simp [LeaveVia.releasesGil]
  | push | exitThread =>
      simp only [GilState.step, whenever_eq_some] at next
      rcases next with ⟨_, rfl⟩
      exact without waiting
  | notifyNext | pushDone =>
      simp only [GilState.step] at next
      split at next
      · rw [whenever_eq_some] at next
        rcases next with ⟨_, rfl⟩
        exact without waiting
      · cases next
  | acquire | callbackIn =>
      simp only [GilState.step] at next
      split at next
      · rw [whenever_eq_some] at next
        rcases next with ⟨_, rfl⟩
        simp
      · cases next
  | callbackOut | release =>
      simp only [GilState.step] at next
      split at next
      · cases next
        simp
      · cases next

/-! ### Without clients the background thread never needs the GIL -/

def NeverNotifies (s : GilState) : Prop :=
  s.background = .receiving ∨ s.background = .notifying 0 ∨
    s.background = .exited

theorem NeverNotifies.step {s t : GilState} {action : GilAction}
    (never : NeverNotifies s)
    (next : s.step via 0 action = some t) : NeverNotifies t := by
  cases action with
  | switchOut | switchIn | leave | beginStop | stopReturns | finish =>
      simp only [GilState.step, whenever_eq_some] at next
      rcases next with ⟨_, rfl⟩
      exact never
  | push =>
      simp only [GilState.step, whenever_eq_some] at next
      rcases next with ⟨_, rfl⟩
      exact .inr (.inl rfl)
  | exitThread =>
      simp only [GilState.step, whenever_eq_some] at next
      rcases next with ⟨_, rfl⟩
      exact .inr (.inr rfl)
  | pushDone =>
      simp only [GilState.step] at next
      split at next
      · rw [whenever_eq_some] at next
        rcases next with ⟨_, rfl⟩
        exact .inl rfl
      · cases next
  | notifyNext =>
      simp only [GilState.step] at next
      split at next
      · rw [whenever_eq_some] at next
        exact absurd next.1 (Nat.not_lt_zero _)
      · cases next
  | acquire | callbackOut | callbackIn | release =>
      rcases never with receiving | notifying | exited
      · simp [GilState.step, receiving] at next
      · simp [GilState.step, notifying] at next
      · simp [GilState.step, exited] at next

/-! ### The way out decides -/

/-- `__exit__` begins while the background thread is about to acquire the GIL
for its first client. -/
def exitDuringNotification : List GilAction :=
  [.leave, .push, .notifyNext, .beginStop]

def exitDuringNotificationEnd : GilState :=
  { python := .waiting, background := .wantGil 0, stopRequested := true }

theorem exit_deadlocks (registered : 0 < clients) :
    Reachable (GilState.step .exit clients) {} exitDuringNotificationEnd := by
  refine ⟨exitDuringNotification, ?_⟩
  simp [exitDuringNotification, exitDuringNotificationEnd, GilState.step,
    LeaveVia.releasesGil, registered]

/-- Leaving a `TcpDataReceiver` never deadlocks on the GIL if and only if it is
left through `stop()` or no client is registered. -/
theorem leaving_deadlock_free_iff (via : LeaveVia) (clients : Nat) :
    (∀ s, Reachable (GilState.step via clients) {} s → ¬ s.Deadlocked) ↔
      via = .stop ∨ clients = 0 := by
  constructor
  · intro deadlockFree
    cases via with
    | stop => exact .inl rfl
    | exit =>
        right
        by_contra registered
        exact deadlockFree exitDuringNotificationEnd
          (exit_deadlocks (Nat.pos_of_ne_zero registered)) ⟨rfl, rfl, rfl⟩
  · intro safe s reached deadlocked
    rcases deadlocked with ⟨waiting, held, waits⟩
    rcases safe with viaStop | noClients
    · subst viaStop
      have without : WaitsWithoutGil s :=
        reached.invariant (fun _ _ _ kept next => kept.step next)
          (fun waiting => by cases waiting)
      exact without waiting held
    · subst noClients
      have never : NeverNotifies s :=
        reached.invariant (fun _ _ _ kept next => kept.step next) (.inl rfl)
      rcases never with receiving | notifying | exited
      · simp [receiving, BackgroundPoint.waitsForGil] at waits
      · simp [notifying, BackgroundPoint.waitsForGil] at waits
      · simp [exited, BackgroundPoint.waitsForGil] at waits

/-- Leaving a receiver with one client through `__exit__` can deadlock. -/
theorem leaving_deadlocks :
    ¬ ∀ s, Reachable (GilState.step .exit 1) {} s → ¬ s.Deadlocked := by
  intro deadlockFree
  exact deadlockFree exitDuringNotificationEnd (exit_deadlocks Nat.one_pos)
    ⟨rfl, rfl, rfl⟩

end CycFlowPy.ReceiverGil
