/-
Module: CycFlowPy.Proofs.ProcessGil
Purpose: No call that waits for a background thread is ever stuck, and no
  background thread ever waits for the GIL in vain, exactly when no receiver
  with a client is left through `__exit__`.
Trusted boundary: none
Main exports: ProcessState.Sound, ProcessState.Sound.step, free_gil,
  worker_exits, calls_return_iff
-/
import CycFlowPy.Model.ProcessGil

namespace CycFlowPy.ProcessGil

open Runs

variable {P : Program} {s : ProcessState}

/-! ### What holds in every state -/

/-- The thread is in or behind a wait with the GIL held. -/
def PythonPoint.keepsGil : PythonPoint → Bool
  | .body => false
  | .waiting call _ => !call.releasesGil
  | .returned call => !call.releasesGil

/-- Who holds the GIL, which waits there are, and that a background thread
without callbacks never needs the GIL. -/
structure ProcessState.Sound (P : Program) (s : ProcessState) : Prop where
  holder : ∀ t, s.gil = some (.python t) →
    s.python t = .body ∨ (s.python t).keepsGil = true
  keeping : ∀ t, (s.python t).keepsGil = true → s.gil = some (.python t)
  inCallback : ∀ w, s.gil = some (.worker w) → (s.worker w).point = .callback
  holding : ∀ w, (s.worker w).point = .callback → s.gil = some (.worker w)
  calls : ∀ t call w, s.python t = .waiting call w →
    P.calls call w = true ∧
      (call.requestsStop = true → (s.worker w).stopRequested = true)
  quiet : ∀ w, P.callbacks w = false → (s.worker w).due = 0 ∧
    ((s.worker w).point = .native ∨ (s.worker w).point = .exited)

theorem sound_start : ProcessState.Sound P {} where
  holder := by
    intro t held
    cases held
  keeping := by
    intro t keeps
    cases keeps
  inCallback := by
    intro w held
    cases held
  holding := by
    intro w running
    cases running
  calls := by
    intro t call w waiting
    cases waiting
  quiet := fun w _ => ⟨rfl, .inl rfl⟩

@[simp] theorem stopRequested_requestStop (x : WorkerState) (due : Nat) :
    (x.requestStop due).stopRequested = true := by
  unfold WorkerState.requestStop
  split
  · assumption
  · rfl

@[simp] theorem point_requestStop (x : WorkerState) (due : Nat) :
    (x.requestStop due).point = x.point := by
  unfold WorkerState.requestStop
  split <;> rfl

theorem due_requestStop_zero (x : WorkerState) :
    (x.requestStop 0).due = x.due := by
  unfold WorkerState.requestStop
  split <;> rfl

/-- What a call that may ask `w` to exit changes of the background threads. -/
theorem requested_worker (s : ProcessState) (requests : Bool) (w due w' : Nat) :
    let worker :=
      if requests then
        Function.update s.worker w ((s.worker w).requestStop due)
      else s.worker
    (worker w').point = (s.worker w').point ∧
      ((s.worker w').stopRequested = true →
        (worker w').stopRequested = true) ∧
      (w' ≠ w ∨ due = 0 → (worker w').due = (s.worker w').due) ∧
      (requests = true → (worker w).stopRequested = true) := by
  cases requests with
  | false => simp
  | true =>
      by_cases same : w' = w
      · subst same
        simp only [if_true, Function.update_self, point_requestStop,
          stopRequested_requestStop, true_and, implies_true, and_true]
        rintro (other | rfl)
        · exact absurd rfl other
        · exact due_requestStop_zero _
      · simp [same]

/-- A step of one Python thread: the GIL stays with the other threads, and the
background threads stay where they are. -/
theorem ProcessState.Sound.python {u : ProcessState} (sound : s.Sound P)
    (t : Nat) (others : ∀ t', t' ≠ t → u.python t' = s.python t' ∧
      (u.gil = some (.python t') ↔ s.gil = some (.python t')))
    (workers : ∀ w, (u.gil = some (.worker w) ↔ s.gil = some (.worker w)) ∧
      (u.worker w).point = (s.worker w).point ∧
      ((s.worker w).stopRequested = true →
        (u.worker w).stopRequested = true) ∧
      (P.callbacks w = false → (s.worker w).due = 0 → (u.worker w).due = 0))
    (holder : u.gil = some (.python t) →
      u.python t = .body ∨ (u.python t).keepsGil = true)
    (keeping : (u.python t).keepsGil = true → u.gil = some (.python t))
    (calls : ∀ call w, u.python t = .waiting call w →
      P.calls call w = true ∧
        (call.requestsStop = true → (u.worker w).stopRequested = true)) :
    u.Sound P where
  holder := by
    intro t' held
    by_cases same : t' = t
    · subst same
      exact holder held
    · rw [(others t' same).1]
      exact sound.holder t' ((others t' same).2.mp held)
  keeping := by
    intro t' keeps
    by_cases same : t' = t
    · subst same
      exact keeping keeps
    · rw [(others t' same).1] at keeps
      exact (others t' same).2.mpr (sound.keeping t' keeps)
  inCallback := by
    intro w held
    rw [(workers w).2.1]
    exact sound.inCallback w ((workers w).1.mp held)
  holding := by
    intro w running
    rw [(workers w).2.1] at running
    exact (workers w).1.mpr (sound.holding w running)
  calls := by
    intro t' call w waiting
    by_cases same : t' = t
    · subst same
      exact calls call w waiting
    · rw [(others t' same).1] at waiting
      rcases sound.calls t' call w waiting with ⟨called, requested⟩
      exact ⟨called, fun requests => (workers w).2.2.1 (requested requests)⟩
  quiet := by
    intro w none
    rcases sound.quiet w none with ⟨due, point⟩
    rw [(workers w).2.1]
    exact ⟨(workers w).2.2.2 none due, point⟩

/-- A step of one background thread: the GIL stays with the other threads. -/
theorem ProcessState.Sound.worker {w : Nat} {x : WorkerState}
    {gil : Option GilHolder} (sound : s.Sound P)
    (pythons : ∀ t, gil = some (.python t) ↔ s.gil = some (.python t))
    (others : ∀ w', w' ≠ w →
      (gil = some (.worker w') ↔ s.gil = some (.worker w')))
    (own : gil = some (.worker w) ↔ x.point = .callback)
    (stays : (s.worker w).stopRequested = true → x.stopRequested = true)
    (quiet : P.callbacks w = false →
      x.due = 0 ∧ (x.point = .native ∨ x.point = .exited)) :
    ProcessState.Sound P { s.setWorker w x with gil := gil } where
  holder := fun t held => sound.holder t ((pythons t).mp held)
  keeping := fun t keeps => (pythons t).mpr (sound.keeping t keeps)
  inCallback := by
    intro w' held
    by_cases same : w' = w
    · subst same
      simpa [ProcessState.setWorker] using own.mp held
    · simpa [ProcessState.setWorker, same] using
        sound.inCallback w' ((others w' same).mp held)
  holding := by
    intro w' running
    by_cases same : w' = w
    · subst same
      exact own.mpr (by simpa [ProcessState.setWorker] using running)
    · exact (others w' same).mpr (sound.holding w'
        (by simpa [ProcessState.setWorker, same] using running))
  calls := by
    intro t call w' waiting
    rcases sound.calls t call w' waiting with ⟨called, requested⟩
    refine ⟨called, fun requests => ?_⟩
    by_cases same : w' = w
    · subst same
      simpa [ProcessState.setWorker] using stays (requested requests)
    · simpa [ProcessState.setWorker, same] using requested requests
  quiet := by
    intro w' none
    by_cases same : w' = w
    · subst same
      simpa [ProcessState.setWorker] using quiet none
    · simpa [ProcessState.setWorker, same] using sound.quiet w' none

/-- A background thread whose point is not the callback does not hold the
GIL. -/
theorem ProcessState.Sound.not_held {w : Nat} (sound : s.Sound P)
    (outside : (s.worker w).point ≠ .callback) :
    s.gil ≠ some (.worker w) :=
  fun held => outside (sound.inCallback w held)

/-- A background thread that needs or has the GIL runs callbacks. -/
theorem ProcessState.Sound.callbacks {w : Nat} (sound : s.Sound P)
    (needs : (s.worker w).point = .wantGil ∨ (s.worker w).point = .callback) :
    P.callbacks w = true := by
  by_contra silent
  rw [Bool.not_eq_true] at silent
  rcases (sound.quiet w silent).2 with native | exited
  · simp [native] at needs
  · simp [exited] at needs

theorem ProcessState.Sound.step {t : ProcessState} {action : ProcessAction}
    (sound : s.Sound P) (next : s.step P action = some t) : t.Sound P := by
  cases action with
  | switchIn t =>
      rcases whenever_eq_some.mp next with ⟨⟨inBody, free⟩, rfl⟩
      apply sound.python t
      · intro t' other
        simp [free, Ne.symm other]
      · intro w
        simp [free]
      · exact fun _ => .inl inBody
      · exact fun _ => rfl
      · exact sound.calls t
  | switchOut t =>
      rcases whenever_eq_some.mp next with ⟨⟨inBody, held⟩, rfl⟩
      apply sound.python t
      · intro t' other
        simp [held, Ne.symm other]
      · intro w
        simp [held]
      · exact fun _ => .inl inBody
      · intro keeps
        simp [inBody, PythonPoint.keepsGil] at keeps
      · exact sound.calls t
  | call t call w due =>
      rcases whenever_eq_some.mp next with ⟨⟨inBody, held, called, owes⟩, rfl⟩
      apply sound.python t
      · intro t' other
        constructor
        · simp [ProcessState.setPython, other]
        · cases call.releasesGil <;> simp [held, Ne.symm other]
      · intro w'
        have changes := requested_worker s call.requestsStop w due w'
        refine ⟨by cases call.releasesGil <;> simp [held], changes.1,
          changes.2.1, ?_⟩
        intro silent zero
        have unchanged : w' ≠ w ∨ due = 0 := by
          by_cases same : w' = w
          · subst same
            rcases owes with runs | none
            · rw [silent] at runs
              cases runs
            · exact .inr none
          · exact .inl same
        exact (changes.2.2.1 unchanged).trans zero
      · intro still
        right
        cases releases : call.releasesGil with
        | true => simp [releases] at still
        | false => simp [ProcessState.setPython, PythonPoint.keepsGil, releases]
      · intro keeps
        simp only [ProcessState.setPython, Function.update_self,
          PythonPoint.keepsGil, Bool.not_eq_eq_eq_not, Bool.not_true] at keeps
        simp [keeps, held]
      · intro call' w' waiting
        simp only [ProcessState.setPython, Function.update_self,
          PythonPoint.waiting.injEq] at waiting
        rcases waiting with ⟨rfl, rfl⟩
        exact ⟨called, (requested_worker s _ w due w).2.2.2⟩
  | callReturns t =>
      simp only [ProcessState.step] at next
      split at next
      case h_1 call w waiting =>
          rcases whenever_eq_some.mp next with ⟨exited, rfl⟩
          apply sound.python t
          · intro t' other
            simp [ProcessState.setPython, other]
          · exact fun w' => ⟨Iff.rfl, rfl, id, fun _ => id⟩
          · intro held
            rcases sound.holder t held with inBody | keeps
            · rw [waiting] at inBody
              cases inBody
            · right
              rw [waiting] at keeps
              simpa [ProcessState.setPython, PythonPoint.keepsGil] using keeps
          · intro keeps
            apply sound.keeping t
            rw [waiting]
            simpa [ProcessState.setPython, PythonPoint.keepsGil] using keeps
          · intro call' w' waits
            simp [ProcessState.setPython] at waits
      case h_2 => cases next
  | resume t =>
      simp only [ProcessState.step] at next
      split at next
      case h_1 call returned =>
          rcases whenever_eq_some.mp next with ⟨available, rfl⟩
          apply sound.python t
          · intro t' other
            cases releases : call.releasesGil <;>
              simp [releases, ProcessState.setPython, other, available,
                Ne.symm other]
          · intro w'
            cases releases : call.releasesGil <;>
              simp [releases, ProcessState.setPython, available]
          · exact fun _ => .inl (by simp [ProcessState.setPython])
          · exact fun _ => rfl
          · intro call' w' waits
            simp [ProcessState.setPython] at waits
      case h_2 => cases next
  | work w due =>
      rcases whenever_eq_some.mp next with ⟨⟨native, none, fresh, owes⟩, rfl⟩
      have outside : (s.worker w).point ≠ .callback := by simp [native]
      apply sound.worker (fun _ => Iff.rfl) (fun _ _ => Iff.rfl)
      · simp [native, sound.not_held outside]
      · exact id
      · intro silent
        rcases owes with runs | zero
        · rw [silent] at runs
          cases runs
        · exact ⟨zero, .inl native⟩
  | beginCallback w =>
      rcases whenever_eq_some.mp next with ⟨⟨native, some⟩, rfl⟩
      have outside : (s.worker w).point ≠ .callback := by simp [native]
      apply sound.worker (fun _ => Iff.rfl) (fun _ _ => Iff.rfl)
      · simp [sound.not_held outside]
      · exact id
      · intro silent
        rw [(sound.quiet w silent).1] at some
        exact absurd some (Nat.lt_irrefl 0)
  | acquire w =>
      rcases whenever_eq_some.mp next with ⟨⟨wants, free⟩, rfl⟩
      apply sound.worker
      · simp [free]
      · intro w' other
        simp [free, Ne.symm other]
      · simp
      · exact id
      · intro silent
        rw [sound.callbacks (.inl wants)] at silent
        cases silent
  | switchOutCallback w | callbackReturns w =>
      rcases whenever_eq_some.mp next with ⟨running, rfl⟩
      have held := sound.holding w running
      apply sound.worker
      · simp [held]
      · intro w' other
        simp [held, Ne.symm other]
      · simp
      · exact id
      · intro silent
        rw [sound.callbacks (.inr running)] at silent
        cases silent
  | exitThread w =>
      rcases whenever_eq_some.mp next with ⟨⟨native, none, _⟩, rfl⟩
      have outside : (s.worker w).point ≠ .callback := by simp [native]
      apply sound.worker (fun _ => Iff.rfl) (fun _ _ => Iff.rfl)
      · simp [sound.not_held outside]
      · exact id
      · exact fun _ => ⟨none, .inr rfl⟩

/-! ### Setting the GIL free -/

/-- Every Python thread is where it was, or back in Python code. -/
def ProcessState.Follows (s u : ProcessState) : Prop :=
  ∀ t, u.python t = s.python t ∨ u.python t = .body

theorem ProcessState.Follows.refl (s : ProcessState) : s.Follows s :=
  fun _ => .inl rfl

theorem ProcessState.Follows.trans {u v : ProcessState}
    (first : s.Follows u) (second : u.Follows v) : s.Follows v := by
  intro t
  rcases second t with same | body
  · rw [same]
    exact first t
  · exact .inr body

/-- The GIL is free, and background threads that wait for it still do. -/
def ProcessState.Freed (P : Program) (s u : ProcessState) : Prop :=
  u.Sound P ∧ u.gil = none ∧ s.Follows u ∧
    ∀ w, (s.worker w).point = .wantGil → u.worker w = s.worker w

theorem keeping_requestsStop {call : WaitingCall}
    (keeps : call.releasesGil = false) : call.requestsStop = true := by
  cases call with
  | receiverExit | serverExit | serverDestructor => rfl
  | receiverStop | receiverJoin | producerStop | producerJoin | consumerStop
  | consumerFinish | serverStop | managerStop => cases keeps

/-- A call that keeps the GIL waits for a thread without callbacks. -/
theorem Program.Disciplined.silent (disciplined : P.Disciplined)
    {call : WaitingCall} {w : Nat} (called : P.calls call w = true)
    (keeps : call.releasesGil = false) : P.callbacks w = false := by
  cases call with
  | receiverExit => exact disciplined w called
  | serverExit | serverDestructor => exact P.ioThread w (P.kinds _ w called)
  | receiverStop | receiverJoin | producerStop | producerJoin | consumerStop
  | consumerFinish | serverStop | managerStop => cases keeps

/-- What one Python thread does on its way back to Python code changes
nothing for the others. -/
theorem ProcessState.Freed.of_setPython {t : Nat} {point : PythonPoint}
    {gil : Option GilHolder} {u : ProcessState}
    (freed : ProcessState.Freed P { s.setPython t point with gil := gil } u)
    (back : u.python t = .body) : ProcessState.Freed P s u := by
  rcases freed with ⟨sound, free, follows, kept⟩
  refine ⟨sound, free, ?_, kept⟩
  intro t'
  by_cases same : t' = t
  · subst same
    exact .inr back
  · simpa [ProcessState.setPython, same] using follows t'

theorem freed_of_body (sound : s.Sound P) {t : Nat}
    (inBody : s.python t = .body) (held : s.gil = some (.python t)) :
    Can (ProcessState.step P)
      (fun u => ProcessState.Freed P s u ∧ u.python t = .body) s := by
  have next : s.step P (.switchOut t) = some { s with gil := none } :=
    whenever_of ⟨inBody, held⟩ _
  exact .next next
    (.here ⟨⟨sound.step next, rfl, .refl s, fun _ _ => rfl⟩, inBody⟩)

theorem freed_of_returned (sound : s.Sound P) {t : Nat} {call : WaitingCall}
    (returned : s.python t = .returned call)
    (keeps : call.releasesGil = false) (held : s.gil = some (.python t)) :
    Can (ProcessState.step P)
      (fun u => ProcessState.Freed P s u ∧ u.python t = .body) s := by
  have next : s.step P (.resume t) =
      some { s.setPython t .body with gil := some (.python t) } := by
    simp only [ProcessState.step, returned]
    exact whenever_of (by simp [keeps, held]) _
  apply Can.next next
  apply (freed_of_body (sound.step next) (t := t)
    (by simp [ProcessState.setPython]) rfl).bind
  rintro u ⟨freed, back⟩
  exact .here ⟨freed.of_setPython back, back⟩

theorem freed_of_exited (sound : s.Sound P) {t w : Nat} {call : WaitingCall}
    (waiting : s.python t = .waiting call w)
    (exited : (s.worker w).point = .exited)
    (keeps : call.releasesGil = false) (held : s.gil = some (.python t)) :
    Can (ProcessState.step P)
      (fun u => ProcessState.Freed P s u ∧ u.python t = .body) s := by
  have next : s.step P (.callReturns t) =
      some (s.setPython t (.returned call)) := by
    simp only [ProcessState.step, waiting]
    exact whenever_of exited _
  apply Can.next next
  apply (freed_of_returned (sound.step next) (t := t)
    (by simp [ProcessState.setPython]) keeps held).bind
  rintro u ⟨freed, back⟩
  exact .here ⟨freed.of_setPython back, back⟩

/-- A background thread that leaves a point where it does not wait for the
GIL. -/
theorem ProcessState.Freed.of_setWorker {w : Nat} {x : WorkerState}
    {gil : Option GilHolder} {u : ProcessState}
    (elsewhere : (s.worker w).point ≠ .wantGil)
    (freed : ProcessState.Freed P { s.setWorker w x with gil := gil } u) :
    ProcessState.Freed P s u := by
  rcases freed with ⟨sound, free, follows, kept⟩
  refine ⟨sound, free, follows, ?_⟩
  intro w' wants
  have other : w' ≠ w := by
    rintro rfl
    exact elsewhere wants
  have same : (s.setWorker w x).worker w' = s.worker w' := by
    simp [ProcessState.setWorker, other]
  have waits : ((s.setWorker w x).worker w').point = .wantGil := by
    rw [same]
    exact wants
  rw [← same]
  exact kept w' waits

theorem freed_of_waiting (disciplined : P.Disciplined) (sound : s.Sound P)
    {t w : Nat} {call : WaitingCall} (waiting : s.python t = .waiting call w)
    (keeps : call.releasesGil = false) (held : s.gil = some (.python t)) :
    Can (ProcessState.step P) (ProcessState.Freed P s) s := by
  rcases sound.calls t call w waiting with ⟨called, requested⟩
  rcases sound.quiet w (disciplined.silent called keeps) with
    ⟨none, native | exited⟩
  · have next : s.step P (.exitThread w) =
        some (s.setWorker w { s.worker w with point := .exited }) :=
      whenever_of ⟨native, none, requested (keeping_requestsStop keeps)⟩ _
    apply Can.next next
    apply (freed_of_exited (sound.step next) (t := t) (w := w) waiting
      (by simp [ProcessState.setWorker]) keeps held).bind
    rintro u ⟨freed, _⟩
    exact .here (freed.of_setWorker (by simp [native]))
  · apply (freed_of_exited sound waiting exited keeps held).bind
    exact fun u freed => .here freed.1

/-- The GIL can be set free, whoever holds it. -/
theorem free_gil (disciplined : P.Disciplined) (sound : s.Sound P) :
    Can (ProcessState.step P) (ProcessState.Freed P s) s := by
  cases held : s.gil with
  | none => exact .here ⟨sound, held, .refl s, fun _ _ => rfl⟩
  | some holder =>
      cases holder with
      | python t =>
          rcases sound.holder t held with inBody | keeps
          · apply (freed_of_body sound inBody held).bind
            exact fun u freed => .here freed.1
          · cases point : s.python t with
            | body => simp [point, PythonPoint.keepsGil] at keeps
            | waiting call w =>
                rw [point, PythonPoint.keepsGil,
                  Bool.not_eq_true'] at keeps
                exact freed_of_waiting disciplined sound point keeps held
            | returned call =>
                rw [point, PythonPoint.keepsGil,
                  Bool.not_eq_true'] at keeps
                apply (freed_of_returned sound point keeps held).bind
                exact fun u freed => .here freed.1
      | worker w =>
          have running := sound.inCallback w held
          have next : s.step P (.switchOutCallback w) =
              some { s.setWorker w { s.worker w with point := .wantGil } with
                gil := none } :=
            whenever_of running _
          apply Can.next next
          refine .here (ProcessState.Freed.of_setWorker (by simp [running])
            ⟨sound.step next, rfl, .refl _, fun _ _ => rfl⟩)

/-! ### Background threads get the GIL and exit -/

theorem acquires (disciplined : P.Disciplined) (sound : s.Sound P) {w : Nat}
    (wants : (s.worker w).point = .wantGil) :
    Can (ProcessState.step P) (fun u => u.Sound P ∧ s.Follows u ∧
      u.worker w = { s.worker w with point := .callback }) s := by
  apply (free_gil disciplined sound).bind
  rintro u ⟨soundFree, free, follows, kept⟩
  have next : u.step P (.acquire w) =
      some { u.setWorker w { u.worker w with point := .callback } with
        gil := some (.worker w) } :=
    whenever_of ⟨by rw [kept w wants]; exact wants, free⟩ _
  apply Can.next next
  refine .here ⟨soundFree.step next, follows, ?_⟩
  simp [ProcessState.setWorker, kept w wants]

/-- A background thread makes the callbacks that are left and exits. -/
theorem worker_exits (disciplined : P.Disciplined) {w : Nat} (due : Nat)
    (sound : s.Sound P) (native : (s.worker w).point = .native)
    (owes : (s.worker w).due = due)
    (requested : (s.worker w).stopRequested = true) :
    Can (ProcessState.step P) (fun u => u.Sound P ∧ s.Follows u ∧
      (u.worker w).point = .exited) s := by
  induction due generalizing s with
  | zero =>
      have next : s.step P (.exitThread w) =
          some (s.setWorker w { s.worker w with point := .exited }) :=
        whenever_of ⟨native, owes, requested⟩ _
      exact .next next (.here ⟨sound.step next, .refl s,
        by simp [ProcessState.setWorker]⟩)
  | succ due inductionHypothesis =>
      have next : s.step P (.beginCallback w) = some (s.setWorker w
          { s.worker w with
            point := .wantGil, due := (s.worker w).due - 1 }) :=
        whenever_of ⟨native, by omega⟩ _
      apply Can.next next
      apply (acquires disciplined (sound.step next) (w := w)
        (by simp [ProcessState.setWorker])).bind
      rintro u ⟨soundRunning, follows, running⟩
      simp only [ProcessState.setWorker, Function.update_self] at running
      have returns : u.step P (.callbackReturns w) =
          some { u.setWorker w { u.worker w with point := .native } with
            gil := none } :=
        whenever_of (by simp [running]) _
      apply Can.next returns
      apply (inductionHypothesis (soundRunning.step returns)
        (by simp [ProcessState.setWorker])
        (by simp [ProcessState.setWorker, running, owes])
        (by simp [ProcessState.setWorker, running, requested])).bind
      rintro v ⟨soundExited, onward, exited⟩
      exact .here ⟨soundExited, ProcessState.Follows.trans follows onward,
        exited⟩

theorem requested_exits (disciplined : P.Disciplined) {w : Nat}
    (sound : s.Sound P) (requested : (s.worker w).stopRequested = true) :
    Can (ProcessState.step P) (fun u => u.Sound P ∧ s.Follows u ∧
      (u.worker w).point = .exited) s := by
  have ofCallback {s : ProcessState} (sound : s.Sound P)
      (requested : (s.worker w).stopRequested = true)
      (running : (s.worker w).point = .callback) :
      Can (ProcessState.step P) (fun u => u.Sound P ∧ s.Follows u ∧
        (u.worker w).point = .exited) s := by
    have returns : s.step P (.callbackReturns w) =
        some { s.setWorker w { s.worker w with point := .native } with
          gil := none } :=
      whenever_of running _
    apply Can.next returns
    exact worker_exits disciplined _ (sound.step returns)
      (by simp [ProcessState.setWorker]) rfl
      (by simp [ProcessState.setWorker, requested])
  cases point : (s.worker w).point with
  | native => exact worker_exits disciplined _ sound point rfl requested
  | wantGil =>
      apply (acquires disciplined sound point).bind
      rintro u ⟨soundRunning, follows, running⟩
      apply (ofCallback soundRunning (by simp [running, requested])
        (by simp [running])).bind
      rintro v ⟨soundExited, onward, exited⟩
      exact .here ⟨soundExited, follows.trans onward, exited⟩
  | callback => exact ofCallback sound requested point
  | exited => exact .here ⟨sound, .refl s, point⟩

/-! ### Calls return -/

theorem returns_of_returned (disciplined : P.Disciplined) (sound : s.Sound P)
    {t : Nat} {call : WaitingCall} (returned : s.python t = .returned call) :
    Can (ProcessState.step P) (fun u => u.python t = .body) s := by
  cases releases : call.releasesGil with
  | false =>
      have held := sound.keeping t
        (by simp [returned, PythonPoint.keepsGil, releases])
      apply (freed_of_returned sound returned releases held).bind
      exact fun u freed => .here freed.2
  | true =>
      apply (free_gil disciplined sound).bind
      rintro u ⟨_, free, follows, _⟩
      rcases follows t with same | body
      · have next : u.step P (.resume t) =
            some { u.setPython t .body with gil := some (.python t) } := by
          simp only [ProcessState.step, same, returned]
          exact whenever_of (by simp [releases, free]) _
        exact .next next (.here (by simp [ProcessState.setPython]))
      · exact .here body

theorem call_returns (disciplined : P.Disciplined) (sound : s.Sound P)
    {t w : Nat} {call : WaitingCall} (waiting : s.python t = .waiting call w)
    (requested : (s.worker w).stopRequested = true) :
    Can (ProcessState.step P) (fun u => u.python t = .body) s := by
  apply (requested_exits disciplined sound requested).bind
  rintro u ⟨soundExited, follows, exited⟩
  rcases follows t with same | body
  · have next : u.step P (.callReturns t) =
        some (u.setPython t (.returned call)) := by
      simp only [ProcessState.step, same, waiting]
      exact whenever_of exited _
    have returned : (u.setPython t (.returned call)).python t =
        .returned call := by
      simp [ProcessState.setPython]
    exact .next next (returns_of_returned disciplined
      (soundExited.step next) returned)
  · exact .here body

theorem responsive (disciplined : P.Disciplined) (sound : s.Sound P) :
    s.Responsive P := by
  constructor
  · intro t call w waiting requested
    exact call_returns disciplined sound waiting requested
  · intro w wants
    apply (acquires disciplined sound wants).bind
    rintro u ⟨_, _, running⟩
    exact .here (by simp [running])

/-! ### The way out that keeps the GIL -/

/-- Thread 0 has left the receiver `w` with the GIL held while the receiver's
thread wants it for a callback. -/
def StuckOn (w : Nat) (s : ProcessState) : Prop :=
  s.python 0 = .waiting .receiverExit w ∧ s.gil = some (.python 0) ∧
    (s.worker w).point = .wantGil

theorem StuckOn.step {w : Nat} {t : ProcessState} {action : ProcessAction}
    (sound : s.Sound P) (stuck : StuckOn w s)
    (next : s.step P action = some t) : StuckOn w t := by
  rcases stuck with ⟨waiting, held, wants⟩
  have notRunning (w' : Nat) : (s.worker w').point ≠ .callback := by
    intro running
    rw [sound.holding w' running] at held
    cases held
  have unmoved {w' : Nat} {x : WorkerState}
      (native : (s.worker w').point = .native) :
      ((s.setWorker w' x).worker w).point = .wantGil := by
    have other : w ≠ w' := by
      rintro rfl
      rw [native] at wants
      cases wants
    simpa [ProcessState.setWorker, other] using wants
  cases action with
  | switchIn t' =>
      rcases whenever_eq_some.mp next with ⟨⟨_, free⟩, rfl⟩
      rw [held] at free
      cases free
  | switchOut t' =>
      rcases whenever_eq_some.mp next with ⟨⟨inBody, holds⟩, rfl⟩
      rw [held] at holds
      cases holds
      rw [waiting] at inBody
      cases inBody
  | call t' call w' due =>
      rcases whenever_eq_some.mp next with ⟨⟨inBody, holds, _⟩, rfl⟩
      rw [held] at holds
      cases holds
      rw [waiting] at inBody
      cases inBody
  | callReturns t' =>
      simp only [ProcessState.step] at next
      split at next
      case h_1 call w' waits =>
          rcases whenever_eq_some.mp next with ⟨exited, rfl⟩
          have other : 0 ≠ t' := by
            rintro rfl
            rw [waiting] at waits
            cases waits
            rw [wants] at exited
            cases exited
          exact ⟨by simpa [ProcessState.setPython, other] using waiting, held,
            wants⟩
      case h_2 => cases next
  | resume t' =>
      simp only [ProcessState.step] at next
      split at next
      case h_1 call returned =>
          rcases whenever_eq_some.mp next with ⟨available, rfl⟩
          rw [held] at available
          cases releases : call.releasesGil with
          | true => simp [releases] at available
          | false =>
              simp only [releases, Bool.false_eq_true, if_false,
                Option.some.injEq, GilHolder.python.injEq] at available
              subst available
              rw [waiting] at returned
              cases returned
      case h_2 => cases next
  | work w' due =>
      rcases whenever_eq_some.mp next with ⟨⟨native, _⟩, rfl⟩
      exact ⟨waiting, held, unmoved native⟩
  | beginCallback w' =>
      rcases whenever_eq_some.mp next with ⟨⟨native, _⟩, rfl⟩
      exact ⟨waiting, held, unmoved native⟩
  | exitThread w' =>
      rcases whenever_eq_some.mp next with ⟨⟨native, _⟩, rfl⟩
      exact ⟨waiting, held, unmoved native⟩
  | acquire w' =>
      rcases whenever_eq_some.mp next with ⟨⟨_, free⟩, rfl⟩
      rw [held] at free
      cases free
  | switchOutCallback w' | callbackReturns w' =>
      rcases whenever_eq_some.mp next with ⟨running, rfl⟩
      exact absurd running (notRunning w')

/-- The receiver's thread is about to notify a client when thread 0 leaves the
receiver. -/
theorem leaves_stuck {w : Nat} (called : P.calls .receiverExit w = true)
    (runs : P.callbacks w = true) :
    Can (ProcessState.step P)
      (fun s => StuckOn w s ∧ (s.worker w).stopRequested = true) {} := by
  have received : ProcessState.step P {} (.work w 1) =
      some (ProcessState.setWorker {} w { due := 1 }) :=
    whenever_of ⟨rfl, rfl, rfl, .inl runs⟩ _
  apply Can.next received
  have notifies : ProcessState.step P
      (ProcessState.setWorker {} w { due := 1 }) (.beginCallback w) =
      some (ProcessState.setWorker {} w { point := .wantGil }) := by
    simp [ProcessState.step, ProcessState.setWorker]
  apply Can.next notifies
  have switches : ProcessState.step P
      (ProcessState.setWorker {} w { point := .wantGil }) (.switchIn 0) =
      some { ProcessState.setWorker {} w { point := .wantGil } with
        gil := some (.python 0) } :=
    whenever_of ⟨rfl, rfl⟩ _
  apply Can.next switches
  have leaves : ProcessState.step P
      { ProcessState.setWorker {} w { point := .wantGil } with
        gil := some (.python 0) } (.call 0 .receiverExit w 0) =
      some _ :=
    whenever_of ⟨rfl, rfl, called, .inr rfl⟩ _
  apply Can.next leaves
  apply Can.here
  simp [StuckOn, ProcessState.setPython, ProcessState.setWorker,
    WaitingCall.releasesGil, WaitingCall.requestsStop,
    WorkerState.requestStop]

/-- Every call that waits for a background thread that was asked to exit can
return from every state, and every background thread that waits for the GIL
can get it, if and only if no receiver with a client in its buffer is left
through `__exit__`. -/
theorem calls_return_iff (P : Program) :
    (∀ s, Reachable (ProcessState.step P) {} s → s.Responsive P) ↔
      P.Disciplined := by
  constructor
  · intro alwaysResponsive w called
    by_contra runs
    rw [Bool.not_eq_false] at runs
    rcases leaves_stuck called runs with ⟨s, reached, stuck, requested⟩
    have sound : s.Sound P :=
      reached.invariant (fun _ _ _ sound next => sound.step next) sound_start
    have trapped : ¬ Can (ProcessState.step P)
        (fun u => u.python 0 = .body) s := by
      refine not_can_of_trapped
        (fun u action v (both : u.Sound P ∧ StuckOn w u) next =>
          ⟨both.1.step next, both.2.step both.1 next⟩) ?_ ⟨sound, stuck⟩
      rintro u ⟨_, waiting, _⟩ inBody
      rw [waiting] at inBody
      cases inBody
    exact trapped ((alwaysResponsive s reached).1 0 _ w stuck.1 requested)
  · intro disciplined s reached
    have sound : s.Sound P :=
      reached.invariant (fun _ _ _ sound next => sound.step next) sound_start
    exact responsive disciplined sound

end CycFlowPy.ProcessGil
