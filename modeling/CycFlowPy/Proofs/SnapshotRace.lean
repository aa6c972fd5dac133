/-
Module: CycFlowPy.Proofs.SnapshotRace
Purpose: What `RecBuffer.snapshot` returns when records are pushed while it
  runs.
Trusted boundary: none
Main exports: regular_lateWindow, CallHistory, Recorded, Recorded.step,
  snapshot_regular
-/
import CycFlowPy.Model.SnapshotRace
import CycFlowPy.Proofs.RecordPaths

namespace CycFlowPy.SnapshotRace

open Numpy Ring Runs Slices

@[simp] theorem pushedIn_append (first second : List RaceAction) :
    pushedIn (first ++ second) = pushedIn first ++ pushedIn second :=
  List.flatMap_append

theorem pushedIn_prefix_append (before middle : List RaceAction) :
    pushedIn before <+: pushedIn (before ++ middle) := by
  rw [pushedIn_append]
  exact List.prefix_append _ _

/-! ### Windows of the records pushed -/

/-- As many records as there were, of those that there are, is all that a
snapshot should return. -/
theorem regular_lateWindow (capacity : Nat) (before middle : List RaceAction) :
    RegularSnapshot capacity before middle
      (lateWindow capacity (pushedIn before) (pushedIn (before ++ middle)))
    where
  valid := List.take_prefix _ _
  sized := by
    rw [length_lateWindow (pushedIn_prefix_append before middle),
      length_rtake]
  complete := drop_prefix_lateWindow (pushedIn_prefix_append before middle)
  atOnce := by
    intro undisturbed
    rcases undisturbed with empty | full | fits
    · refine ⟨[], List.nil_prefix, ?_⟩
      rw [List.append_nil, empty]
      simp [lateWindow, List.rtake]
    · exact ⟨middle, List.prefix_refl middle, lateWindow_of_full full⟩
    · refine ⟨[], List.nil_prefix, ?_⟩
      rw [List.append_nil]
      exact lateWindow_of_fits (pushedIn_prefix_append before middle) fits
  never := by
    intro different moment sooner same
    rcases sooner with ⟨later, rfl⟩
    by_contra disturbed
    rw [not_or, not_or, Nat.not_le, Nat.not_le] at disturbed
    rcases disturbed with ⟨nonempty, notFull, overrun⟩
    have grows : pushedIn (before ++ moment) <+:
        pushedIn (before ++ (moment ++ later)) := by
      rw [← List.append_assoc]
      exact pushedIn_prefix_append (before ++ moment) later
    exact lateWindow_ne_rtake (pushedIn_prefix_append before moment) grows
      different nonempty notFull overrun same

/-! ### The history of a call -/

section Race

variable {types : CycTypes} {rule : RecRule} {capacity : Nat}

/-- What was done when the last call of thread `i` got to where it is. -/
def CallHistory (rule : RecRule) (capacity : Nat) (past : List RaceAction)
    (i : Nat) : SnapshotPoint → Prop
  | .idle => True
  | .sized n => ∃ before middle,
      past = before ++ .size i :: middle ∧
        (∀ action ∈ middle, action.caller ≠ some i) ∧
        n = ((pushedIn before).rtake capacity).length
  | .returned array => ∃ before middle memory after,
      past = before ++ .size i :: middle ++ .readRelative i memory :: after ∧
        (∀ action ∈ middle ++ after, action.caller ≠ some i) ∧
        array.dtype = rule.dtype ∧
        array.records =
          lateWindow capacity (pushedIn before) (pushedIn (before ++ middle))
  | .raised _ | .overread => False

/-- A step of another thread leaves a call where it is. -/
theorem CallHistory.snoc {past : List RaceAction} {i : Nat}
    {point : SnapshotPoint} (history : CallHistory rule capacity past i point)
    {action : RaceAction} (other : action.caller ≠ some i) :
    CallHistory rule capacity (past ++ [action]) i point := by
  have quiet : ∀ {steps : List RaceAction},
      (∀ step ∈ steps, step.caller ≠ some i) →
        ∀ step ∈ steps ++ [action], step.caller ≠ some i := by
    intro steps quiet
    rw [List.forall_mem_append, List.forall_mem_singleton]
    exact ⟨quiet, other⟩
  cases point with
  | idle => trivial
  | sized n =>
      rcases history with ⟨before, middle, rfl, rests, size⟩
      exact ⟨before, middle ++ [action], by simp, quiet rests, size⟩
  | returned array =>
      rcases history with ⟨before, middle, memory, after, rfl, rests, shows⟩
      refine ⟨before, middle, memory, after ++ [action], by simp, ?_, shows⟩
      rw [← List.append_assoc]
      exact quiet rests
  | raised error => exact history
  | overread => exact history

/-- The buffer has the last records pushed, and every call its history. -/
structure Recorded (rule : RecRule) (capacity : Nat) (past : List RaceAction)
    (s : RaceState) : Prop where
  records : s.records = (pushedIn past).rtake capacity
  formed : ∀ record ∈ s.records, record.length = rule.recSize
  calls : ∀ i, CallHistory rule capacity past i (s.calls i)

/-- The rest of a call returns the oldest `n` records. -/
theorem RaceState.rest_eq (laidOut : rule.LaidOut types)
    (positive : ∀ attr ∈ rule.attributes, 1 ≤ attr.count) {s : RaceState}
    (formed : ∀ record ∈ s.records, record.length = rule.recSize) {n : Nat}
    (there : n ≤ s.records.length) (memory : Nat → UInt8) :
    ∃ array, s.rest types rule n memory = .returned array ∧
      array.dtype = rule.dtype ∧ array.records = s.records.take n := by
  have rows : slice s.records 0 n = s.records.take n := by
    rw [slice, List.drop_zero]
  have length : (slice s.records 0 n).length = n := by
    rw [rows, List.length_take, Nat.min_eq_left there]
  have rowsFormed : ∀ record ∈ slice s.records 0 n,
      record.length = rule.recSize := by
    intro record member
    rw [rows] at member
    exact formed record (List.mem_of_mem_take member)
  have bytes : ((s.reads rule n).readRelative 0 (s.reads rule n).size).length =
      (s.reads rule n).size * rule.recSize := by
    show (slice s.records 0 n).flatten.length = n * rule.recSize
    rw [List.length_flatten, List.map_congr_left rowsFormed,
      List.map_const', List.sum_replicate_nat, length]
  have read := (s.reads rule n).snapshot_eq laidOut positive memory rfl bytes
  refine ⟨rule.view (slice s.records 0 n).flatten n, ?_, rfl, ?_⟩
  · unfold RaceState.rest
    rw [if_pos there, read]
    rfl
  · have whole := records_flatten rowsFormed
    rw [length, rows] at whole
    rw [RecRule.view_records]
    show Slices.records (slice s.records 0 n).flatten rule.recSize n = _
    rw [rows]
    exact whole

/-- A step of one call. -/
theorem Recorded.call {past : List RaceAction} {s : RaceState}
    (recorded : Recorded rule capacity past s) {action : RaceAction} {i : Nat}
    (byThread : action.caller = some i) {point : SnapshotPoint}
    (called : CallHistory rule capacity (past ++ [action]) i point) :
    Recorded rule capacity (past ++ [action])
      { s with calls := Function.update s.calls i point } := by
  have nothing : pushedIn [action] = [] := by
    cases action with
    | push data => cases byThread
    | size i => rfl
    | readRelative i memory => rfl
  refine ⟨?_, recorded.formed, ?_⟩
  · rw [pushedIn_append, nothing, List.append_nil]
    exact recorded.records
  · intro j
    by_cases same : j = i
    · subst same
      simp only [Function.update_self]
      exact called
    · simp only [Function.update_of_ne same]
      apply (recorded.calls j).snoc
      rw [byThread]
      exact fun equal => same (Option.some.inj equal).symm

theorem Recorded.step (laidOut : rule.LaidOut types)
    (positive : ∀ attr ∈ rule.attributes, 1 ≤ attr.count)
    {past : List RaceAction} {s t : RaceState} {action : RaceAction}
    (recorded : Recorded rule capacity past s)
    (next : s.step types rule capacity action = some t) :
    Recorded rule capacity (past ++ [action]) t := by
  cases action with
  | push data =>
      rcases whenever_eq_some.mp next with ⟨fits, rfl⟩
      refine ⟨?_, ?_, ?_⟩
      · rw [pushedIn_append, recorded.records, rtake_rtake_append,
          Nat.min_eq_left (Nat.le_add_right capacity data.length)]
        simp [pushedIn]
      · intro record member
        rcases List.mem_append.mp (List.mem_of_mem_drop member) with old | new
        · exact recorded.formed record old
        · exact fits record new
      · intro i
        exact (recorded.calls i).snoc (by simp [RaceAction.caller])
  | size i =>
      have called : CallHistory rule capacity (past ++ [.size i]) i
          (.sized s.records.length) :=
        ⟨past, [], rfl, List.forall_mem_nil _, by rw [recorded.records]⟩
      cases point : s.calls i with
      | sized n =>
          simp only [RaceState.step, point] at next
          cases next
      | idle | returned array | raised error | overread =>
          simp only [RaceState.step, point] at next
          obtain rfl := Option.some.inj next
          exact recorded.call rfl called
  | readRelative i memory =>
      cases point : s.calls i with
      | idle | returned array | raised error | overread =>
          simp only [RaceState.step, point] at next
          cases next
      | sized n =>
          simp only [RaceState.step, point] at next
          obtain rfl := Option.some.inj next
          have history := recorded.calls i
          rw [point] at history
          rcases history with ⟨before, middle, split, quiet, size⟩
          -- the buffer does not have fewer records than it had
          have there : n ≤ s.records.length := by
            rw [recorded.records, size, split, length_rtake, length_rtake,
              pushedIn_append, List.length_append]
            omega
          rcases RaceState.rest_eq laidOut positive recorded.formed there
            memory with ⟨array, rest, dtype, rows⟩
          rw [rest]
          apply recorded.call rfl
          refine ⟨before, middle, memory, [], by rw [split], ?_, dtype, ?_⟩
          · rwa [List.append_nil]
          · have pushed : pushedIn (before ++ .size i :: middle) =
                pushedIn (before ++ middle) := by
              rw [pushedIn_append, pushedIn_append]
              rfl
            rw [rows, recorded.records, split, pushed, size]
            rfl

/-- Records of a laid-out rule, every count of which is at least 1, are
pushed.  In every run with any number of threads in `snapshot` in the meantime,
no call reads beyond the records that there are or raises, and the array that a
call returns has the oldest records that the buffer has by then, as many as it
had before: every record that it had throughout, and the records of one moment
if it was empty or full at first or was not overrun, and only then if all
records differ. -/
theorem snapshot_regular (types : CycTypes) {rule : RecRule}
    (laidOut : rule.LaidOut types)
    (positive : ∀ attr ∈ rule.attributes, 1 ≤ attr.count) (capacity : Nat)
    {actions : List RaceAction} {s : RaceState}
    (run : Run (RaceState.step types rule capacity) {} actions s) (i : Nat) :
    s.calls i ≠ .overread ∧ (∀ error, s.calls i ≠ .raised error) ∧
      ∀ array, s.calls i = .returned array →
        ∃ before middle memory after,
          actions =
              before ++ .size i :: middle ++ .readRelative i memory :: after ∧
            (∀ action ∈ middle ++ after, action.caller ≠ some i) ∧
            array.dtype = rule.dtype ∧
            RegularSnapshot capacity before middle array.records := by
  have start : Recorded rule capacity [] {} :=
    ⟨by simp [pushedIn, List.rtake], List.forall_mem_nil _,
      fun _ => trivial⟩
  have recorded := run.history
    (fun _ _ _ _ recorded next => recorded.step laidOut positive next) start
  have history := recorded.calls i
  refine ⟨?_, ?_, ?_⟩
  · intro overread
    rw [overread] at history
    exact history
  · intro error raised
    rw [raised] at history
    exact history
  · intro array returned
    rw [returned] at history
    rcases history with
      ⟨before, middle, memory, after, split, quiet, dtype, rows⟩
    refine ⟨before, middle, memory, after, split, quiet, dtype, ?_⟩
    rw [rows]
    exact regular_lateWindow capacity before middle

end Race

/-- Two more records are pushed into a buffer of two records that has one,
while it is copied. -/
def overrun : List RaceAction :=
  [.push [[1]], .size 0, .push [[2], [3]], .readRelative 0 (fun _ => 255)]

/-- The snapshot has the second record only. -/
theorem snapshot_regular_overrun :
    ∃ s array, Run (RaceState.step types64 byteRule 2) {} overrun s ∧
      s.calls 0 = .returned array ∧ array.records = [[2]] ∧
      ∀ moment, moment <+: [.push [[2], [3]]] →
        array.records ≠ (pushedIn (.push [[1]] :: moment)).rtake 2 := by
  obtain ⟨s, array, run, returned, rows⟩ :
      ∃ s array, Run (RaceState.step types64 byteRule 2) {} overrun s ∧
        s.calls 0 = .returned array ∧ array.records = [[2]] :=
    ⟨_, _, rfl, rfl, rfl⟩
  refine ⟨s, array, run, returned, rows, ?_⟩
  intro moment sooner same
  rcases (snapshot_regular types64 byteRule_laidOut (by decide) 2 run 0).2.2
    array returned with ⟨before, middle, memory, after, split, _, _, regular⟩
  have parts : before = [.push [[1]]] ∧ middle = [.push [[2], [3]]] := by
    cases before with
    | nil => simp [overrun] at split
    | cons first before =>
        cases before with
        | cons second before =>
            simp only [overrun, List.cons_append, List.cons.injEq,
              List.append_assoc] at split
            have member := congrArg (RaceAction.size 0 ∈ ·) split.2.2
            simp at member
        | nil =>
            cases middle with
            | nil => simp [overrun] at split
            | cons next middle =>
                simp only [overrun, List.cons_append, List.nil_append,
                  List.cons.injEq] at split
                have lengths := congrArg List.length split.2.2.2
                simp only [List.length_append, List.length_cons,
                  List.length_nil] at lengths
                have last : middle = [] :=
                  List.eq_nil_of_length_eq_zero (by omega)
                rw [← split.1, ← split.2.2.1, last]
                exact ⟨rfl, rfl⟩
  rcases parts with ⟨rfl, rfl⟩
  rcases regular.never (by decide) moment sooner same with
    empty | full | fits
  · exact absurd empty (by decide)
  · exact absurd full (by decide)
  · exact absurd fits (by decide)

end CycFlowPy.SnapshotRace
