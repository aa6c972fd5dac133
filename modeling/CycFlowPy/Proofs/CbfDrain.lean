/-
Module: CycFlowPy.Proofs.CbfDrain
Purpose: For which files the drain loop of `read_cbf_to_array` stops exactly
  when all records have been received.
Trusted boundary: none
Main exports: BreaksComplete, BreaksPromptly, breaksComplete,
  readCbfToArray_returns, breaksPromptly_empty, not_breaksPromptly,
  drain_stops_iff
-/
import CycFlowPy.Lib.Slices
import CycFlowPy.Model.CbfArray

namespace CycFlowPy.CbfArray

open Runs

variable {ρ : Type} {file : List ρ} {batchCapacity : Nat}

/-! ### What the loop promises -/

/-- The state in which the loop is entered. -/
def DrainState.start (ρ : Type) : DrainState ρ := {}

/-- An execution of one whole iteration, interleaved with the background
threads. -/
def Iteration (file : List ρ) (batchCapacity : Nat) :
    DrainState ρ → DrainState ρ → Prop :=
  Until (DrainState.step file batchCapacity)
    (fun s => s.point.iterationOver = true)

/-- Whenever the loop has executed its `break`, the parts are the records of
the file in order. -/
def BreaksComplete (file : List ρ) (batchCapacity : Nat) : Prop :=
  ∀ s, Reachable (DrainState.step file batchCapacity) (DrainState.start ρ) s →
    s.point = .broke → s.received = file

/-- Every iteration that begins when the producer has stopped and all records
have been appended can be carried to its end, and its end is the `break`. -/
def BreaksPromptly (file : List ρ) (batchCapacity : Nat) : Prop :=
  ∀ s, Reachable (DrainState.step file batchCapacity) (DrainState.start ρ) s →
    s.point = .nextBatch → s.running = false → s.received = file →
    (∃ t, Iteration file batchCapacity s t) ∧
      ∀ t, Iteration file batchCapacity s t → t.point = .broke

/-! ### The loop over any file -/

/-- Records travel from the file through the ring and the reader into the
parts, no stage ahead of the one before it; the size is tested only after the
producer has stopped, and the `break` was executed over an empty ring. -/
structure DrainState.Consistent (file : List ρ) (batchCapacity : Nat)
    (s : DrainState ρ) : Prop where
  inOrder : s.received <+: file
  behindReader : s.received.length ≤ s.prefetched
  behindRing : s.prefetched ≤ s.written
  behindFile : s.written ≤ file.length
  stopped : s.running = false → s.written = file.length
  sizeAfterStop : s.point = .testSize → s.running = false
  brokeEmpty : s.point = .broke →
    s.running = false ∧ s.size batchCapacity = 0

theorem consistent_start :
    DrainState.Consistent file batchCapacity (DrainState.start ρ) where
  inOrder := List.nil_prefix
  behindReader := Nat.le_refl _
  behindRing := Nat.le_refl _
  behindFile := Nat.zero_le _
  stopped := fun stopped => absurd stopped (by simp [DrainState.start])
  sizeAfterStop := fun point => absurd point (by simp [DrainState.start])
  brokeEmpty := fun point => absurd point (by simp [DrainState.start])

theorem DrainState.Consistent.step {s t : DrainState ρ} {action : DrainAction}
    (consistent : s.Consistent file batchCapacity)
    (next : s.step file batchCapacity action = some t) :
    t.Consistent file batchCapacity := by
  rcases consistent with ⟨inOrder, behindReader, behindRing, behindFile,
    stopped, sizeAfterStop, brokeEmpty⟩
  cases action with
  | push count =>
      simp only [DrainState.step, whenever_eq_some] at next
      rcases next with ⟨⟨running, inFile, _⟩, rfl⟩
      -- a stopped producer does not push, so the ring stays as the exit saw it
      refine ⟨inOrder, behindReader, Nat.le_trans behindRing
        (Nat.le_add_right _ _), inFile, ?_, sizeAfterStop, ?_⟩
      · intro notRunning
        simp [running] at notRunning
      · intro point
        exact absurd (brokeEmpty point).1 (by simp [running])
  | producerStop =>
      simp only [DrainState.step, whenever_eq_some] at next
      rcases next with ⟨⟨running, complete⟩, rfl⟩
      refine ⟨inOrder, behindReader, behindRing, behindFile, fun _ => complete,
        fun _ => rfl, ?_⟩
      intro point
      exact absurd (brokeEmpty point).1 (by simp [running])
  | prefetch count =>
      simp only [DrainState.step, whenever_eq_some] at next
      rcases next with ⟨bound, rfl⟩
      exact ⟨inOrder, Nat.le_trans behindReader (Nat.le_add_right _ _), bound,
        behindFile, stopped, sizeAfterStop, brokeEmpty⟩
  | takeBatch count =>
      simp only [DrainState.step, whenever_eq_some] at next
      rcases next with ⟨⟨_, _, _, bound⟩, rfl⟩
      have cut : DrainState.received
          { s with
            parts := s.parts ++ [(file.drop s.received.length).take count]
            point := .appended } =
            file.take (s.received.length + count) := by
        rw [← Slices.append_next_of_prefix inOrder count]
        simp [DrainState.received]
      refine ⟨?_, ?_, behindRing, behindFile, stopped, ?_, ?_⟩
      · rw [cut]
        exact List.take_prefix _ _
      · rw [cut, List.length_take]
        exact Nat.le_trans (Nat.min_le_left _ _) bound
      · intro point
        cases point
      · intro point
        cases point
  | batchInvalid | again =>
      simp only [DrainState.step, whenever_eq_some] at next
      rcases next with ⟨_, rfl⟩
      refine ⟨inOrder, behindReader, behindRing, behindFile, stopped, ?_, ?_⟩
      · intro point
        cases point
      · intro point
        cases point
  | testRunning =>
      simp only [DrainState.step, whenever_eq_some] at next
      rcases next with ⟨_, rfl⟩
      refine ⟨inOrder, behindReader, behindRing, behindFile, stopped, ?_, ?_⟩
      · intro point
        by_contra running
        simp [running] at point
      · intro point
        split at point <;> cases point
  | testSize =>
      simp only [DrainState.step, whenever_eq_some] at next
      rcases next with ⟨atSize, rfl⟩
      refine ⟨inOrder, behindReader, behindRing, behindFile, stopped, ?_, ?_⟩
      · intro _
        exact sizeAfterStop atSize
      · intro point
        by_cases empty : s.size batchCapacity = 0
        · exact ⟨sizeAfterStop atSize, empty⟩
        · simp [empty] at point

theorem Reachable.consistent {s : DrainState ρ}
    (reached : Reachable (DrainState.step file batchCapacity)
      (DrainState.start ρ) s) :
    s.Consistent file batchCapacity :=
  reached.invariant (fun _ _ _ held next => held.step next) consistent_start

/-- The ring's size counts the records it retains, received or not: it is zero
after the stop only when the file has no records. -/
theorem file_eq_nil_of_size {s : DrainState ρ} (positive : 1 ≤ batchCapacity)
    (consistent : s.Consistent file batchCapacity)
    (stopped : s.running = false) (empty : s.size batchCapacity = 0) :
    file = [] := by
  have written := consistent.stopped stopped
  unfold DrainState.size ringCapacity at empty
  apply List.eq_nil_of_length_eq_zero
  omega

theorem breaksComplete (positive : 1 ≤ batchCapacity) :
    BreaksComplete file batchCapacity := by
  intro s reached broke
  have consistent := Reachable.consistent reached
  rcases consistent.brokeEmpty broke with ⟨stopped, empty⟩
  have noRecords : file = [] :=
    file_eq_nil_of_size positive consistent stopped empty
  subst noRecords
  exact List.prefix_nil.mp consistent.inOrder

/-- What `read_cbf_to_array` returns, when it returns, is the file. -/
theorem readCbfToArray_returns (positive : 1 ≤ batchCapacity) {path : String}
    {cbf : Option (List ρ)} {entered s : DrainState ρ}
    (opened : readCbfToArray path cbf = .ok (file, entered))
    (reached : Reachable (DrainState.step file batchCapacity) entered s)
    (broke : s.point = .broke) : cbf = some file ∧ s.result = file := by
  cases cbf with
  | none => cases opened
  | some records =>
      cases opened
      refine ⟨rfl, ?_⟩
      rw [DrainState.result_eq]
      exact breaksComplete positive s reached broke

/-! ### The loop over a file without records -/

/-- Over a file without records, after the stop, an iteration only moves
towards the `break`. -/
def LeavesEmpty (batchCapacity : Nat) (s : DrainState ρ) : Prop :=
  s.Consistent [] batchCapacity ∧ s.running = false ∧
    (s.point = .nextBatch ∨ s.point = .testRunning ∨ s.point = .testSize ∨
      s.point = .broke)

theorem LeavesEmpty.step {s t : DrainState ρ} {action : DrainAction}
    (leaves : LeavesEmpty batchCapacity s)
    (next : s.step [] batchCapacity action = some t) :
    LeavesEmpty batchCapacity t := by
  rcases leaves with ⟨consistent, stopped, point⟩
  refine ⟨consistent.step next, ?_⟩
  have nothingWritten : s.written = 0 := consistent.stopped stopped
  cases action with
  | push | producerStop =>
      simp only [DrainState.step, whenever_eq_some] at next
      simp [stopped] at next
  | prefetch =>
      simp only [DrainState.step, whenever_eq_some] at next
      rcases next with ⟨_, rfl⟩
      exact ⟨stopped, point⟩
  | takeBatch count =>
      simp only [DrainState.step, whenever_eq_some] at next
      rcases next with ⟨⟨_, nonempty, _, bound⟩, rfl⟩
      have ring := consistent.behindRing
      omega
  | batchInvalid =>
      simp only [DrainState.step, whenever_eq_some] at next
      rcases next with ⟨_, rfl⟩
      exact ⟨stopped, .inr (.inl rfl)⟩
  | testRunning =>
      simp only [DrainState.step, whenever_eq_some] at next
      rcases next with ⟨_, rfl⟩
      simp [stopped]
  | testSize =>
      simp only [DrainState.step, whenever_eq_some] at next
      rcases next with ⟨_, rfl⟩
      simp [stopped, DrainState.size, nothingWritten]
  | again =>
      simp only [DrainState.step, whenever_eq_some] at next
      rcases next with ⟨atEnd, rfl⟩
      exact ⟨stopped, .inl rfl⟩

/-- The three steps of an iteration that finds no batch. -/
theorem iteration_noBatch {s : DrainState ρ} (point : s.point = .nextBatch)
    (stopped : s.running = false) (noBatch : s.prefetched ≤ s.received.length) :
    Iteration file batchCapacity s
      { s with
        point := if s.size batchCapacity = 0 then .broke else .sleeping } := by
  have first : s.step file batchCapacity .batchInvalid =
      some { s with point := .testRunning } :=
    whenever_of ⟨point, noBatch⟩ _
  have second : DrainState.step file batchCapacity
      { s with point := .testRunning } .testRunning =
      some { s with point := .testSize } := by
    simp [DrainState.step, stopped]
  have third : DrainState.step file batchCapacity
      { s with point := .testSize } .testSize =
      some { s with
        point := if s.size batchCapacity = 0 then .broke else .sleeping } :=
    whenever_of rfl _
  refine .tail (by simp [point, DrainPoint.iterationOver]) first
    (.tail (by simp [DrainPoint.iterationOver]) second
      (.tail (by simp [DrainPoint.iterationOver]) third (.ended ?_)))
  change DrainPoint.iterationOver
    (if s.size batchCapacity = 0 then .broke else .sleeping) = true
  split <;> rfl

theorem breaksPromptly_empty :
    BreaksPromptly ([] : List ρ) batchCapacity := by
  intro s reached point stopped received
  have consistent := Reachable.consistent reached
  have nothingWritten : s.written = 0 := consistent.stopped stopped
  have nothingCopied : s.prefetched ≤ s.received.length := by
    have ring := consistent.behindRing
    omega
  refine ⟨⟨_, iteration_noBatch point stopped nothingCopied⟩, ?_⟩
  intro t iteration
  have leaves : LeavesEmpty batchCapacity t :=
    iteration.invariant (fun _ _ _ held _ next => held.step next)
      ⟨consistent, stopped, .inl point⟩
  have ended := iteration.finished
  rcases leaves.2.2 with atNext | atRunning | atSize | broke
  · simp [atNext, DrainPoint.iterationOver] at ended
  · simp [atRunning, DrainPoint.iterationOver] at ended
  · simp [atSize, DrainPoint.iterationOver] at ended
  · exact broke

/-! ### The loop over a file with records -/

/-- The state in which the first `count` records have been pushed, copied and
appended one at a time. -/
def receivedUpTo (file : List ρ) (count : Nat) : DrainState ρ :=
  { written := count, prefetched := count,
    parts := (file.take count).map fun record => [record] }

theorem receivedUpTo_received (file : List ρ) (count : Nat) :
    (receivedUpTo file count).received = file.take count := by
  simp only [receivedUpTo, DrainState.received]
  induction file.take count with
  | nil => rfl
  | cons record rest inductionHypothesis => simp [inductionHypothesis]

/-- One record more: push it, copy it, append it and begin the next
iteration. -/
theorem receivedUpTo_succ (positive : 1 ≤ batchCapacity) {count : Nat}
    (inFile : count < file.length) :
    Run (DrainState.step file batchCapacity) (receivedUpTo file count)
      [.push 1, .prefetch 1, .takeBatch 1, .again]
      (receivedUpTo file (count + 1)) := by
  have received : (receivedUpTo file count).received.length = count := by
    rw [receivedUpTo_received, List.length_take]
    omega
  have room : count + 1 ≤ count + ringCapacity batchCapacity := by
    unfold ringCapacity
    omega
  have cut : (file.drop count).take 1 = [file[count]] := by
    rw [List.drop_eq_getElem_cons inFile]
    rfl
  have push : (receivedUpTo file count).step file batchCapacity (.push 1) =
      some { receivedUpTo file count with written := count + 1 } :=
    whenever_of ⟨rfl, inFile, room⟩ _
  have copy : DrainState.step file batchCapacity
      { receivedUpTo file count with written := count + 1 } (.prefetch 1) =
      some { receivedUpTo file count with
        written := count + 1, prefetched := count + 1 } :=
    whenever_of (Nat.le_refl _) _
  have append : DrainState.step file batchCapacity
      { receivedUpTo file count with
        written := count + 1, prefetched := count + 1 } (.takeBatch 1) =
      some { receivedUpTo file (count + 1) with point := .appended } := by
    have guard : (receivedUpTo file count).received.length + 1 ≤ count + 1 :=
      by omega
    refine (whenever_of ⟨rfl, Nat.one_pos, positive, guard⟩ _).trans ?_
    have parts : (receivedUpTo file count).parts ++
        [(file.drop (receivedUpTo file count).received.length).take 1] =
        (receivedUpTo file (count + 1)).parts := by
      rw [received, cut]
      simp only [receivedUpTo]
      rw [← List.take_append_getElem inFile, List.map_append]
      rfl
    exact congrArg (fun parts => some
      { receivedUpTo file (count + 1) with
        parts := parts, point := .appended }) parts
  simp only [Run.cons_iff, Run.nil_iff]
  exact ⟨_, push, _, copy, _, append, _, whenever_of (.inl rfl) _, rfl⟩

theorem reachable_receivedUpTo (positive : 1 ≤ batchCapacity) :
    ∀ count, count ≤ file.length →
      Reachable (DrainState.step file batchCapacity) (DrainState.start ρ)
        (receivedUpTo file count)
  | 0, _ => Reachable.refl _
  | count + 1, inFile =>
      (reachable_receivedUpTo positive count (Nat.le_of_succ_le inFile)).append
        (receivedUpTo_succ positive inFile)

/-- Once the producer has stopped and everything has been received, the ring
of a file with records still has a size, and the loop goes to sleep. -/
theorem not_breaksPromptly (positive : 1 ≤ batchCapacity)
    (records : file ≠ []) : ¬ BreaksPromptly file batchCapacity := by
  intro prompt
  let stopped : DrainState ρ :=
    { receivedUpTo file file.length with running := false }
  have stop : (receivedUpTo file file.length).step file batchCapacity
      .producerStop = some stopped :=
    whenever_of ⟨rfl, rfl⟩ _
  have reached : Reachable (DrainState.step file batchCapacity)
      (DrainState.start ρ) stopped :=
    (reachable_receivedUpTo positive file.length (Nat.le_refl _)).tail stop
  have received : stopped.received = file := by
    exact (receivedUpTo_received file file.length).trans List.take_length
  have nonempty : stopped.size batchCapacity ≠ 0 := by
    intro empty
    exact records (file_eq_nil_of_size positive
      (Reachable.consistent reached) rfl empty)
  have noBatch : stopped.prefetched ≤ stopped.received.length := by
    rw [received]
    exact Nat.le_refl _
  have iteration : Iteration file batchCapacity stopped _ :=
    iteration_noBatch rfl rfl noBatch
  have broke := (prompt stopped reached rfl rfl received).2 _ iteration
  rw [if_neg nonempty] at broke
  cases broke

/-- The drain loop of `read_cbf_to_array` stops exactly when it should for the
files without records, and for no other file. -/
theorem drain_stops_iff (file : List ρ) (positive : 1 ≤ batchCapacity) :
    BreaksComplete file batchCapacity ∧ BreaksPromptly file batchCapacity ↔
      file = [] := by
  constructor
  · rintro ⟨_, prompt⟩
    by_contra records
    exact not_breaksPromptly positive records prompt
  · intro empty
    subst empty
    exact ⟨breaksComplete positive, breaksPromptly_empty⟩

theorem drain_stops_iff_oneRecord :
    BreaksComplete [7] 10000 ∧ BreaksPromptly [7] 10000 ↔ [7] = [] :=
  drain_stops_iff [7] (by decide)

/-- With one record in the file, an iteration after the stop with the record
appended goes to sleep instead of executing the `break`. -/
theorem drain_does_not_stop :
    ¬ (BreaksComplete [7] 10000 ∧ BreaksPromptly [7] 10000) := by
  rintro ⟨_, prompt⟩
  exact not_breaksPromptly (by decide) (by decide) prompt

end CycFlowPy.CbfArray
