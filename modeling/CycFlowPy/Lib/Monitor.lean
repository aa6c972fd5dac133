/-
Module: CycFlowPy.Lib.Monitor
Purpose: Critical sections of several statements under one lock, run by any
  number of threads: what the threads do is what the sections do one after
  another.
Trusted boundary: none
Main exports: Sections, Sections.Does, Sections.Executes, Executes.rule,
  State, Action, step, finished, Serial, Serialized, serialized_of_run
-/
import CycFlowPy.Lib.Runs
import Mathlib.Logic.Function.Basic
import Mathlib.Logic.Relation

namespace Monitor

open Runs

/-! ### Sections -/

/-- Critical sections over a shared state `σ`.  The section of a call begins at
the point `enter call`; `statement` is what it does next, and nothing at its
end. -/
structure Sections (σ κ π : Type*) where
  enter : κ → π
  statement : π → σ → Option (σ × π)

variable {θ σ κ π : Type*} {S : Sections σ κ π}

/-- Some statements of one section, without any other thread in between. -/
def Sections.Does (S : Sections σ κ π) : σ × π → σ × π → Prop :=
  Relation.ReflTransGen fun before after =>
    S.statement before.2 before.1 = some after

/-- The section of the call from `s` on, all of it: it ends in `t` at
`point`. -/
def Sections.Executes (S : Sections σ κ π) (s : σ) (call : κ) (t : σ)
    (point : π) : Prop :=
  S.Does (s, S.enter call) (t, point) ∧ S.statement point t = none

/-- The invariant rule for a section. -/
theorem Sections.Executes.rule {P : σ → π → Prop} {s t : σ} {call : κ}
    {point : π} (executes : S.Executes s call t point)
    (start : P s (S.enter call))
    (kept : ∀ s point t next, P s point →
      S.statement point s = some (t, next) → P t next) : P t point := by
  have along : ∀ last, S.Does (s, S.enter call) last → P last.1 last.2 := by
    intro last does
    induction does with
    | refl => exact start
    | tail _ next inductionHypothesis =>
        exact kept _ _ _ _ inductionHypothesis next
  exact along (t, point) executes.1

/-! ### Threads -/

/-- `points` are the threads that are in a section, each with its call and
where it is. -/
structure State (θ σ κ π : Type*) where
  shared : σ
  lock : Option θ := none
  points : θ → Option (κ × π) := fun _ => none

/-- A thread takes the lock for a call, does one statement of its section, or
gives the lock back. -/
inductive Action (θ κ : Type*) where
  | acquire (thread : θ) (call : κ)
  | statement (thread : θ)
  | release (thread : θ)
deriving DecidableEq

variable [DecidableEq θ]

def State.set (s : State θ σ κ π) (thread : θ) (point : Option (κ × π)) :
    State θ σ κ π :=
  { s with points := Function.update s.points thread point }

/-- Only `acquire` looks at the lock. -/
def step (S : Sections σ κ π) (s : State θ σ κ π) :
    Action θ κ → Option (State θ σ κ π)
  | .acquire thread call =>
      if s.lock.isNone ∧ (s.points thread).isNone then
        some (State.set { s with lock := some thread } thread
          (some (call, S.enter call)))
      else none
  | .statement thread =>
      match s.points thread with
      | none => none
      | some (call, point) =>
          (S.statement point s.shared).map fun (shared, next) =>
            State.set { s with shared := shared } thread (some (call, next))
  | .release thread =>
      match s.points thread with
      | none => none
      | some (_, point) =>
          if (S.statement point s.shared).isNone then
            some (State.set { s with lock := none } thread none)
          else none

/-- The section that ends in a step, with its thread, its call and the point it
ends at. -/
def finishedIn (s : State θ σ κ π) : Action θ κ → List (θ × κ × π)
  | .release thread =>
      match s.points thread with
      | none => []
      | some (call, point) => [(thread, call, point)]
  | .acquire _ _ | .statement _ => []

/-- The sections that end in a run, in the order in which they end. -/
def finished (S : Sections σ κ π) :
    State θ σ κ π → List (Action θ κ) → List (θ × κ × π)
  | _, [] => []
  | s, action :: actions =>
      finishedIn s action ++
        match step S s action with
        | none => []
        | some t => finished S t actions

/-! ### One section after another -/

/-- The sections executed one after another, none inside another. -/
inductive Serial (S : Sections σ κ π) (init : σ) :
    List (θ × κ × π) → σ → Prop where
  | nil : Serial S init [] init
  | snoc {sections : List (θ × κ × π)} {middle t : σ} (thread : θ) {call : κ}
      {point : π} (before : Serial S init sections middle)
      (executes : S.Executes middle call t point) :
      Serial S init (sections ++ [(thread, call, point)]) t

/-- The lock is held by the thread that is in a section.  The shared state is
what the finished sections made of it one after another and, when a thread is
in a section, what that section has done since. -/
structure Serialized (S : Sections σ κ π) (init : σ)
    (sections : List (θ × κ × π)) (s : State θ σ κ π) : Prop where
  exclusive : ∀ thread, (s.points thread).isSome ↔ s.lock = some thread
  serial : ∃ base, Serial S init sections base ∧
    (s.lock = none → s.shared = base) ∧
    ∀ thread call point, s.points thread = some (call, point) →
      S.Does (base, S.enter call) (s.shared, point)

omit [DecidableEq θ] in
theorem serialized_start (S : Sections σ κ π) (init : σ) :
    Serialized S init [] ({ shared := init } : State θ σ κ π) := by
  refine ⟨fun thread => by simp, init, .nil, fun _ => rfl, ?_⟩
  intro thread call point inside
  cases inside

omit [DecidableEq θ] in
/-- Two threads in a section are one. -/
theorem Serialized.unique {init : σ} {sections : List (θ × κ × π)}
    {s : State θ σ κ π} (serialized : Serialized S init sections s)
    {one other : θ} (first : (s.points one).isSome)
    (second : (s.points other).isSome) : other = one := by
  have holds := (serialized.exclusive one).mp first
  rw [(serialized.exclusive other).mp second] at holds
  exact Option.some.inj holds

omit [DecidableEq θ] in
/-- When the lock is free, no thread is in a section. -/
theorem Serialized.outside {init : σ} {sections : List (θ × κ × π)}
    {s : State θ σ κ π} (serialized : Serialized S init sections s)
    (free : s.lock = none) (thread : θ) : s.points thread = none := by
  rw [← Option.not_isSome_iff_eq_none, serialized.exclusive, free]
  simp

theorem Serialized.acquire {init : σ} {sections : List (θ × κ × π)}
    {s : State θ σ κ π} (serialized : Serialized S init sections s)
    (free : s.lock = none) (thread : θ) (call : κ) :
    Serialized S init sections
      (State.set { s with lock := some thread } thread
        (some (call, S.enter call))) := by
  rcases serialized.serial with ⟨base, serial, same, _⟩
  refine ⟨?_, base, serial, (nomatch ·), ?_⟩
  · intro other
    by_cases mine : other = thread
    · simp [State.set, mine]
    · simp [State.set, mine, serialized.outside free other, Ne.symm mine]
  · intro other otherCall point inside
    by_cases mine : other = thread
    · subst mine
      simp only [State.set, Function.update_self, Option.some.injEq,
        Prod.mk.injEq] at inside
      rcases inside with ⟨rfl, rfl⟩
      have unchanged : s.shared = base := same free
      rw [← unchanged]
      exact .refl
    · simp [State.set, mine, serialized.outside free other] at inside

theorem Serialized.statement {init : σ} {sections : List (θ × κ × π)}
    {s : State θ σ κ π} (serialized : Serialized S init sections s)
    {thread : θ} {call : κ} {point next : π} {shared : σ}
    (inside : s.points thread = some (call, point))
    (does : S.statement point s.shared = some (shared, next)) :
    Serialized S init sections
      (State.set { s with shared := shared } thread (some (call, next))) := by
  rcases serialized.serial with ⟨base, serial, _, since⟩
  have present : (s.points thread).isSome := by simp [inside]
  have held := (serialized.exclusive thread).mp present
  refine ⟨?_, base, serial, ?_, ?_⟩
  · intro other
    by_cases mine : other = thread
    · simp [State.set, mine, held]
    · simp only [State.set, Function.update_of_ne mine]
      exact serialized.exclusive other
  · intro free
    rw [show s.lock = none from free] at held
    cases held
  · intro other otherCall reached now
    have mine : other = thread := by
      by_contra differ
      simp only [State.set, Function.update_of_ne differ] at now
      exact differ (serialized.unique present (by simp [now]))
    subst mine
    simp only [State.set, Function.update_self, Option.some.injEq,
      Prod.mk.injEq] at now
    rcases now with ⟨rfl, rfl⟩
    exact (since other call point inside).tail does

theorem Serialized.release {init : σ} {sections : List (θ × κ × π)}
    {s : State θ σ κ π} (serialized : Serialized S init sections s)
    {thread : θ} {call : κ} {point : π}
    (inside : s.points thread = some (call, point))
    (ends : S.statement point s.shared = none) :
    Serialized S init (sections ++ [(thread, call, point)])
      (State.set { s with lock := none } thread none) := by
  rcases serialized.serial with ⟨base, serial, _, since⟩
  have present : (s.points thread).isSome := by simp [inside]
  have outside : ∀ other,
      (State.set { s with lock := none } thread none).points other = none := by
    intro other
    by_cases mine : other = thread
    · simp [State.set, mine]
    · simp only [State.set, Function.update_of_ne mine]
      by_contra someOther
      exact mine (serialized.unique present
        (Option.isSome_iff_ne_none.mpr someOther))
  refine ⟨?_, s.shared, ?_, fun _ => rfl, ?_⟩
  · intro other
    rw [outside other]
    simp [State.set]
  · exact serial.snoc thread ⟨since thread call point inside, ends⟩
  · intro other otherCall reached now
    rw [outside other] at now
    cases now

theorem Serialized.step {init : σ} {sections : List (θ × κ × π)}
    {s t : State θ σ κ π} {action : Action θ κ}
    (serialized : Serialized S init sections s)
    (next : Monitor.step S s action = some t) :
    Serialized S init (sections ++ finishedIn s action) t := by
  cases action with
  | acquire thread call =>
      simp only [Monitor.step] at next
      split at next
      case isFalse => cases next
      case isTrue enabled =>
          cases next
          rw [finishedIn, List.append_nil]
          exact serialized.acquire (Option.isNone_iff_eq_none.mp enabled.1)
            thread call
  | statement thread =>
      simp only [Monitor.step] at next
      rw [finishedIn, List.append_nil]
      cases inside : s.points thread with
      | none =>
          rw [inside] at next
          cases next
      | some entry =>
          rcases entry with ⟨call, point⟩
          rw [inside] at next
          rcases Option.map_eq_some_iff.mp next with
            ⟨⟨shared, reached⟩, does, rfl⟩
          exact serialized.statement inside does
  | release thread =>
      simp only [Monitor.step] at next
      cases inside : s.points thread with
      | none =>
          rw [inside] at next
          cases next
      | some entry =>
          rcases entry with ⟨call, point⟩
          simp only [inside, Option.isNone_iff_eq_none] at next
          split at next
          case isFalse => cases next
          case isTrue ends =>
              cases next
              simp only [finishedIn, inside]
              exact serialized.release inside ends

/-- Whatever the threads do in between, the shared state is what the sections
make of it one after another, in the order in which they end. -/
theorem serialized_of_run {init : σ} {actions : List (Action θ κ)}
    {s : State θ σ κ π}
    (run : Run (Monitor.step S) { shared := init } actions s) :
    Serialized S init (finished S { shared := init } actions) s := by
  suffices extended : ∀ sections start, Serialized S init sections start →
      Run (Monitor.step S) start actions s →
      Serialized S init (sections ++ finished S start actions) s from
    extended [] _ (serialized_start S init) run
  clear run
  induction actions with
  | nil =>
      intro sections start serialized run
      obtain rfl := Run.nil_iff.mp run
      simpa [finished] using serialized
  | cons action actions inductionHypothesis =>
      intro sections start serialized run
      rcases Run.cons_iff.mp run with ⟨middle, next, tail⟩
      have rest := inductionHypothesis _ middle (serialized.step next) tail
      simpa only [finished, next, List.append_assoc] using rest

end Monitor
