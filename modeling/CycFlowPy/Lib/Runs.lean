/-
Module: CycFlowPy.Lib.Runs
Purpose: Finite runs of a partial labelled step function: invariants along a
  run, runs whose steps all meet a condition, and when such a condition is
  exactly what keeps a property true in every state visited.
Trusted boundary: none
Main exports: whenever, Run, Run.invariant, Run.history, Run.project,
  Run.cost_le, Reachable, Can, not_can_of_trapped, Meets, Meets.of_append,
  Meets.of_forall, Meets.invariant, Meets.imp_of_invariant, Visits,
  Visits.meets, Run.meets_iff_visits, Run.meets_or_ends, Until,
  Until.invariant
-/
import Mathlib.Algebra.GroupWithZero.Nat
import Mathlib.Data.List.Basic

namespace Runs

variable {σ α : Type*} {step : σ → α → Option σ}

/-- A guarded command: it leads to `next` when its guard holds and is not
enabled otherwise. -/
def whenever (guard : Prop) [Decidable guard] (next : σ) : Option σ :=
  if guard then some next else none

@[simp] theorem whenever_eq_some {guard : Prop} [Decidable guard]
    {next t : σ} : whenever guard next = some t ↔ guard ∧ next = t := by
  simp [whenever]

theorem whenever_of {guard : Prop} [Decidable guard] (holds : guard)
    (next : σ) : whenever guard next = some next :=
  whenever_eq_some.mpr ⟨holds, rfl⟩

/-- `Run step s schedule t`: performing the labels of `schedule` in order from
`s` is possible and ends in `t`.  A label that is not enabled makes the whole
schedule impossible. -/
def Run (step : σ → α → Option σ) (s : σ) (schedule : List α) (t : σ) : Prop :=
  schedule.foldlM step s = some t

instance [DecidableEq σ] (s : σ) (schedule : List α) (t : σ) :
    Decidable (Run step s schedule t) :=
  inferInstanceAs (Decidable (_ = _))

@[simp] theorem Run.nil_iff {s t : σ} : Run step s [] t ↔ s = t := by
  simp [Run]

@[simp] theorem Run.cons_iff {s t : σ} {a : α} {rest : List α} :
    Run step s (a :: rest) t ↔
      ∃ middle, step s a = some middle ∧ Run step middle rest t := by
  simp [Run, List.foldlM_cons, Option.bind_eq_some_iff]

theorem Run.append_iff {s t : σ} {first second : List α} :
    Run step s (first ++ second) t ↔
      ∃ middle, Run step s first middle ∧ Run step middle second t := by
  simp [Run, List.foldlM_append, Option.bind_eq_some_iff]

theorem Run.append {s middle t : σ} {first second : List α}
    (one : Run step s first middle) (two : Run step middle second t) :
    Run step s (first ++ second) t :=
  Run.append_iff.mpr ⟨middle, one, two⟩

/-- A run is extended at its end by one enabled label. -/
theorem Run.snoc {s middle t : σ} {schedule : List α} {a : α}
    (run : Run step s schedule middle) (next : step middle a = some t) :
    Run step s (schedule ++ [a]) t :=
  run.append (by simp [next])

/-- The invariant rule: what every step preserves, every run preserves. -/
theorem Run.invariant {Inv : σ → Prop}
    (preserved : ∀ s a t, Inv s → step s a = some t → Inv t)
    {s t : σ} {schedule : List α} (run : Run step s schedule t)
    (start : Inv s) : Inv t := by
  induction schedule generalizing s with
  | nil =>
      rw [Run.nil_iff] at run
      exact run ▸ start
  | cons a rest inductionHypothesis =>
      obtain ⟨middle, next, tail⟩ := Run.cons_iff.mp run
      exact inductionHypothesis tail (preserved s a middle start next)

/-- The invariant rule with history: the invariant may speak about the
labels performed so far. -/
theorem Run.history {Inv : List α → σ → Prop}
    (preserved : ∀ past s a t, Inv past s → step s a = some t →
      Inv (past ++ [a]) t)
    {init s : σ} {schedule : List α} (run : Run step init schedule s)
    (start : Inv [] init) : Inv schedule s := by
  suffices extended : ∀ past middle, Inv past middle →
      Run step middle schedule s → Inv (past ++ schedule) s by
    simpa using extended [] init start run
  clear run
  induction schedule with
  | nil =>
      intro past middle held tail
      rw [Run.nil_iff] at tail
      simpa [tail] using held
  | cons a rest inductionHypothesis =>
      intro past middle held tail
      obtain ⟨after, next, others⟩ := Run.cons_iff.mp tail
      have extended := inductionHypothesis (past ++ [a]) after
        (preserved past middle a after held next) others
      simpa using extended

/-- The simulation rule.  If every step is a run of another system on what
`view` shows of the state, so is every run. -/
theorem Run.project {τ β : Type*} {other : τ → β → Option τ} {view : σ → τ}
    {labels : α → List β}
    (simulates : ∀ s a t, step s a = some t →
      Run other (view s) (labels a) (view t))
    {s t : σ} {schedule : List α} (run : Run step s schedule t) :
    Run other (view s) (schedule.flatMap labels) (view t) := by
  induction schedule generalizing s with
  | nil => exact Run.nil_iff.mpr (congrArg view (Run.nil_iff.mp run))
  | cons a rest inductionHypothesis =>
      obtain ⟨middle, next, tail⟩ := Run.cons_iff.mp run
      rw [List.flatMap_cons]
      exact (simulates s a middle next).append (inductionHypothesis tail)

/-- The ranking rule.  If every step that has not reached the goal pays its
cost out of a measure, then a run that has not reached it costs no more than
the measure it started with. -/
theorem Run.cost_le {Inv Goal : σ → Prop} {ok : α → Prop} {measure : σ → Nat}
    {cost : α → Nat}
    (kept : ∀ s a t, Inv s → ok a → step s a = some t → Inv t)
    (stays : ∀ s a t, step s a = some t → Goal s → Goal t)
    (pays : ∀ s a t, Inv s → ok a → step s a = some t → ¬ Goal t →
      measure t + cost a ≤ measure s)
    {s t : σ} {schedule : List α} (run : Run step s schedule t)
    (allowed : ∀ a ∈ schedule, ok a) (start : Inv s) (unmet : ¬ Goal t) :
    measure t + (schedule.map cost).sum ≤ measure s := by
  induction schedule generalizing s with
  | nil =>
      rw [Run.nil_iff] at run
      exact Nat.le_of_eq (congrArg measure run.symm)
  | cons a rest inductionHypothesis =>
      obtain ⟨middle, next, tail⟩ := Run.cons_iff.mp run
      rw [List.forall_mem_cons] at allowed
      have ahead : ¬ Goal middle := by
        intro reached
        exact unmet (tail.invariant (fun s a t goal next =>
          stays s a t next goal) reached)
      have first := pays s a middle start allowed.1 next ahead
      have others := inductionHypothesis tail allowed.2
        (kept s a middle start allowed.1 next)
      rw [List.map_cons, List.sum_cons]
      omega

/-- Some schedule leads from `init` to `s`. -/
def Reachable (step : σ → α → Option σ) (init s : σ) : Prop :=
  ∃ schedule, Run step init schedule s

theorem Reachable.refl (s : σ) : Reachable step s s :=
  ⟨[], by simp⟩

theorem Reachable.tail {init s t : σ} {a : α}
    (reached : Reachable step init s) (next : step s a = some t) :
    Reachable step init t := by
  obtain ⟨schedule, run⟩ := reached
  exact ⟨schedule ++ [a], run.snoc next⟩

theorem Reachable.append {init s t : σ} {schedule : List α}
    (reached : Reachable step init s) (tail : Run step s schedule t) :
    Reachable step init t := by
  obtain ⟨before, run⟩ := reached
  exact ⟨before ++ schedule, run.append tail⟩

theorem Reachable.invariant {Inv : σ → Prop}
    (preserved : ∀ s a t, Inv s → step s a = some t → Inv t)
    {init s : σ} (reached : Reachable step init s) (start : Inv init) :
    Inv s := by
  obtain ⟨_, run⟩ := reached
  exact run.invariant preserved start

/-- Some schedule leads from `s` to a state in `P`. -/
def Can (step : σ → α → Option σ) (P : σ → Prop) (s : σ) : Prop :=
  ∃ t, Reachable step s t ∧ P t

theorem Can.here {P : σ → Prop} {s : σ} (holds : P s) : Can step P s :=
  ⟨s, .refl s, holds⟩

theorem Can.next {P : σ → Prop} {s t : σ} {a : α} (next : step s a = some t)
    (can : Can step P t) : Can step P s := by
  obtain ⟨u, ⟨schedule, run⟩, holds⟩ := can
  exact ⟨u, ⟨a :: schedule, Run.cons_iff.mpr ⟨t, next, run⟩⟩, holds⟩

/-- What can be reached from everything that can be reached. -/
theorem Can.bind {P Q : σ → Prop} {s : σ} (can : Can step P s)
    (goesOn : ∀ t, P t → Can step Q t) : Can step Q s := by
  obtain ⟨t, ⟨first, run⟩, holds⟩ := can
  obtain ⟨u, ⟨second, more⟩, reached⟩ := goesOn t holds
  exact ⟨u, ⟨first ++ second, run.append more⟩, reached⟩

/-- An invariant that keeps out of `P` keeps `P` out of reach. -/
theorem not_can_of_trapped {Inv P : σ → Prop}
    (preserved : ∀ s a t, Inv s → step s a = some t → Inv t)
    (apart : ∀ s, Inv s → ¬ P s) {s : σ} (start : Inv s) :
    ¬ Can step P s := by
  rintro ⟨t, reached, holds⟩
  exact apart t (reached.invariant preserved start) holds

/-- Every label of the schedule is performed in a state in which it meets
`ok`. -/
def Meets (step : σ → α → Option σ) (ok : σ → α → Prop) : σ → List α → Prop
  | _, [] => True
  | s, a :: rest => ok s a ∧ ∀ t ∈ step s a, Meets step ok t rest

/-- Every state the schedule passes through, the first and the last included,
satisfies `P`. -/
def Visits (step : σ → α → Option σ) (P : σ → Prop) : σ → List α → Prop
  | s, [] => P s
  | s, a :: rest => P s ∧ ∀ t ∈ step s a, Visits step P t rest

/-- A decidable condition is decidable along a schedule. -/
def decideMeets (step : σ → α → Option σ) (ok : σ → α → Prop)
    [∀ s a, Decidable (ok s a)] :
    (s : σ) → (schedule : List α) → Decidable (Meets step ok s schedule)
  | _, [] => isTrue trivial
  | s, a :: rest =>
      have := fun t => decideMeets step ok t rest
      inferInstanceAs (Decidable (_ ∧ ∀ t ∈ step s a, _))

instance {ok : σ → α → Prop} [∀ s a, Decidable (ok s a)] (s : σ)
    (schedule : List α) : Decidable (Meets step ok s schedule) :=
  decideMeets step ok s schedule

/-- A decidable property is decidable along a schedule. -/
def decideVisits (step : σ → α → Option σ) (P : σ → Prop)
    [DecidablePred P] :
    (s : σ) → (schedule : List α) → Decidable (Visits step P s schedule)
  | s, [] => inferInstanceAs (Decidable (P s))
  | s, a :: rest =>
      have := fun t => decideVisits step P t rest
      inferInstanceAs (Decidable (_ ∧ ∀ t ∈ step s a, _))

instance {P : σ → Prop} [DecidablePred P] (s : σ) (schedule : List α) :
    Decidable (Visits step P s schedule) :=
  decideVisits step P s schedule

/-- The steps of a first part of the schedule meet the condition. -/
theorem Meets.of_append {ok : σ → α → Prop} {s : σ} {first second : List α}
    (meets : Meets step ok s (first ++ second)) : Meets step ok s first := by
  induction first generalizing s with
  | nil => trivial
  | cons a rest inductionHypothesis =>
      exact ⟨meets.1, fun t next => inductionHypothesis (meets.2 t next)⟩

/-- A condition that the labels meet in every state. -/
theorem Meets.of_forall {ok : σ → α → Prop} {schedule : List α}
    (always : ∀ a ∈ schedule, ∀ s, ok s a) (s : σ) :
    Meets step ok s schedule := by
  induction schedule generalizing s with
  | nil => trivial
  | cons a rest inductionHypothesis =>
      rw [List.forall_mem_cons] at always
      exact ⟨always.1 s, fun t _ => inductionHypothesis always.2 t⟩

/-- The invariant rule for runs whose steps meet a condition. -/
theorem Meets.invariant {ok : σ → α → Prop} {Inv : σ → Prop}
    (preserved : ∀ s a t, Inv s → ok s a → step s a = some t → Inv t)
    {s t : σ} {schedule : List α} (run : Run step s schedule t)
    (meets : Meets step ok s schedule) (start : Inv s) : Inv t := by
  induction schedule generalizing s with
  | nil =>
      rw [Run.nil_iff] at run
      exact run ▸ start
  | cons a rest inductionHypothesis =>
      obtain ⟨middle, next, tail⟩ := Run.cons_iff.mp run
      exact inductionHypothesis tail (meets.2 middle next)
        (preserved s a middle start meets.1 next)

/-- A condition on steps implies another one that follows from it and from an
invariant that it keeps. -/
theorem Meets.imp_of_invariant {ok ok' : σ → α → Prop} {Inv : σ → Prop}
    (preserved : ∀ s a t, Inv s → ok s a → step s a = some t → Inv t)
    (implies : ∀ s a, Inv s → ok s a → ok' s a)
    {s : σ} {schedule : List α} (meets : Meets step ok s schedule)
    (start : Inv s) : Meets step ok' s schedule := by
  induction schedule generalizing s with
  | nil => trivial
  | cons a rest inductionHypothesis =>
      refine ⟨implies s a start meets.1, ?_⟩
      intro t next
      exact inductionHypothesis (meets.2 t next)
        (preserved s a t start meets.1 next)

/-- What holds of every state is a condition that every step meets. -/
theorem Visits.meets {P : σ → Prop} {s : σ} {schedule : List α}
    (visits : Visits step P s schedule) :
    Meets step (fun s _ => P s) s schedule := by
  induction schedule generalizing s with
  | nil => trivial
  | cons a rest inductionHypothesis =>
      exact ⟨visits.1, fun t next => inductionHypothesis (visits.2 t next)⟩

/-- Exactness of a step condition.  If steps that meet `ok` keep `Inv`, which
implies `P`, and a step that does not meet it leaves `P` at once, then a run
stays inside `P` exactly when all its steps meet `ok`. -/
theorem Run.meets_iff_visits {ok : σ → α → Prop} {Inv P : σ → Prop}
    (implies : ∀ s, Inv s → P s)
    (kept : ∀ s a t, Inv s → ok s a → step s a = some t → Inv t)
    (left : ∀ s a t, Inv s → ¬ ok s a → step s a = some t → ¬ P t)
    {s t : σ} {schedule : List α} (run : Run step s schedule t)
    (start : Inv s) :
    Meets step ok s schedule ↔ Visits step P s schedule := by
  induction schedule generalizing s with
  | nil => simp [Meets, Visits, implies s start]
  | cons a rest inductionHypothesis =>
      obtain ⟨middle, next, tail⟩ := Run.cons_iff.mp run
      have onlyMiddle : ∀ other, step s a = some other → other = middle := by
        intro other same
        rw [next] at same
        exact (Option.some.inj same).symm
      constructor
      · rintro ⟨met, restMeets⟩
        refine ⟨implies s start, ?_⟩
        intro other same
        obtain rfl := onlyMiddle other same
        exact (inductionHypothesis tail (kept s a other start met next)).mp
          (restMeets other next)
      · rintro ⟨_, restVisits⟩
        have met : ok s a := by
          by_contra unmet
          -- every visited list of states has its first state in `P`
          have first : P middle := by
            cases rest with
            | nil => exact restVisits middle next
            | cons b others => exact (restVisits middle next).1
          exact left s a middle start unmet next first
        refine ⟨met, ?_⟩
        intro other same
        obtain rfl := onlyMiddle other same
        exact (inductionHypothesis tail (kept s a other start met next)).mpr
          (restVisits other next)

/-- Exactness of a step condition, at the end of a run.  If a step that does
not meet `ok` leads from `Inv` to `Bad`, which no step leaves, then a run whose
steps meet `ok` ends in `Inv`, and any other in `Bad`. -/
theorem Run.meets_or_ends {ok : σ → α → Prop} {Inv Bad : σ → Prop}
    (kept : ∀ s a t, Inv s → ok s a → step s a = some t → Inv t)
    (left : ∀ s a t, Inv s → ¬ ok s a → step s a = some t → Bad t)
    (stays : ∀ s a t, Bad s → step s a = some t → Bad t)
    {s t : σ} {schedule : List α} (run : Run step s schedule t)
    (start : Inv s) :
    Meets step ok s schedule ∧ Inv t ∨ ¬ Meets step ok s schedule ∧ Bad t := by
  induction schedule generalizing s with
  | nil =>
      rw [Run.nil_iff] at run
      exact .inl ⟨trivial, run ▸ start⟩
  | cons a rest inductionHypothesis =>
      obtain ⟨middle, next, tail⟩ := Run.cons_iff.mp run
      by_cases met : ok s a
      · rcases inductionHypothesis tail (kept s a middle start met next) with
          ⟨meets, ends⟩ | ⟨unmet, ends⟩
        · refine .inl ⟨⟨met, ?_⟩, ends⟩
          intro other same
          rw [next] at same
          exact Option.some.inj same ▸ meets
        · exact .inr ⟨fun meets => unmet (meets.2 middle next), ends⟩
      · exact .inr ⟨fun meets => met meets.1,
          tail.invariant stays (left s a middle start met next)⟩

/-- A run from `s` that goes on until, and no further than, the first state
that is `finished`. -/
inductive Until (step : σ → α → Option σ) (finished : σ → Prop) :
    σ → σ → Prop where
  | ended {s : σ} (atEnd : finished s) : Until step finished s s
  | tail {s middle t : σ} {a : α} (inside : ¬ finished s)
      (next : step s a = some middle) (rest : Until step finished middle t) :
      Until step finished s t

theorem Until.finished {finished : σ → Prop} {s t : σ}
    (stops : Until step finished s t) : finished t := by
  induction stops with
  | ended atEnd => exact atEnd
  | tail _ _ _ inductionHypothesis => exact inductionHypothesis

/-- The invariant rule for runs that stop at the first state that is `finished`:
only the steps from states that are not `finished` have to keep it. -/
theorem Until.invariant {finished : σ → Prop} {Inv : σ → Prop}
    (preserved : ∀ s a t, Inv s → ¬ finished s → step s a = some t → Inv t)
    {s t : σ} (stops : Until step finished s t) (start : Inv s) : Inv t := by
  induction stops with
  | ended => exact start
  | tail inside next _ inductionHypothesis =>
      exact inductionHypothesis (preserved _ _ _ start inside next)

end Runs
