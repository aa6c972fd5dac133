/-
Module: CycFlowPy.Proofs.RecordMemory
Purpose: Every live object that denotes record memory has its reader or writer
  alive, exactly when Python code never drops the last reference that holds a
  writer while a `WriteBatch` of it is alive.
Trusted boundary: none
Main exports: MemoryState.Tied, MemoryState.Consistent, OutlivesBatches,
  record_memory_alive_iff
-/
import CycFlowPy.Model.RecordMemory

namespace CycFlowPy.RecordMemory

open KeepAlive Runs

/-! ### Bookkeeping -/

/-- How an object that denotes record memory of `o` is tied to it: a record
and an array of a reader keep it, a `WriteBatch` keeps nothing, and an array of
a batch keeps the batch. -/
def MemoryState.Tied (s : MemoryState) : MemoryObject → Owner → Prop
  | .owner _, _ => False
  | .record n, o => (.record n, .owner o) ∈ s.heap.keeps
  | .readerArray n, o => (.readerArray n, .owner o) ∈ s.heap.keeps
  | .writeBatch _, o => ∃ w, o = .writer w
  | .batchArray n, o => ∃ batch,
      (.batchArray n, .writeBatch batch) ∈ s.heap.keeps ∧
        s.producer (.writeBatch batch) = some o

/-- The edges that the bindings create. -/
def BindingEdge : MemoryObject → MemoryObject → Prop
  | .record _, .owner _ => True
  | .readerArray _, .owner _ => True
  | .batchArray _, .writeBatch _ => True
  | _, _ => False

/-- Only objects that were created are referenced, keep others or denote
record memory; the edges are those of the bindings; and every object is tied
to its producer in the way of its binding. -/
structure MemoryState.Consistent (s : MemoryState) : Prop where
  referenced : ∀ x, s.heap.Referenced x → x ∈ s.created
  edges : ∀ nurse patient, (nurse, patient) ∈ s.heap.keeps →
    nurse ∈ s.created ∧ BindingEdge nurse patient
  tied : ∀ x o, s.producer x = some o → x ∈ s.created ∧ s.Tied x o

theorem consistent_start : MemoryState.Consistent {} where
  referenced := by
    intro x held
    exact absurd held (Nat.lt_irrefl 0)
  edges := by
    intro nurse patient edge
    cases edge
  tied := by
    intro x o produced
    cases produced

theorem MemoryState.Tied.mono {s t : MemoryState} {x : MemoryObject}
    {o : Owner} (tied : s.Tied x o)
    (edges : ∀ edge ∈ s.heap.keeps, edge ∈ t.heap.keeps)
    (producer : ∀ y o, s.producer y = some o → t.producer y = some o) :
    t.Tied x o := by
  cases x with
  | owner => exact tied
  | record | readerArray => exact edges _ tied
  | writeBatch => exact tied
  | batchArray =>
      rcases tied with ⟨batch, edge, produced⟩
      exact ⟨batch, edges _ edge, producer _ _ produced⟩

/-- An object that keeps others is kept by no other. -/
theorem MemoryState.Consistent.flat {s : MemoryState}
    (consistent : s.Consistent) (x nurse : MemoryObject)
    (edge : (nurse, x) ∈ s.heap.keeps) (z : MemoryObject) :
    (z, nurse) ∉ s.heap.keeps := by
  intro above
  have lower := (consistent.edges nurse x edge).2
  have upper := (consistent.edges z nurse above).2
  cases nurse with
  | owner | writeBatch => cases x <;> exact lower
  | record | readerArray | batchArray => cases z <;> exact upper

theorem MemoryState.Consistent.create {s : MemoryState}
    (consistent : s.Consistent) (x : MemoryObject) :
    (s.create x).Consistent where
  referenced := by
    apply Heap.forall_referenced_take
    · exact List.mem_cons_self
    · intro y held
      exact List.mem_cons_of_mem x (consistent.referenced y held)
  edges := by
    intro nurse patient edge
    rcases consistent.edges nurse patient edge with ⟨created, shape⟩
    exact ⟨List.mem_cons_of_mem x created, shape⟩
  tied := by
    intro y o produced
    rcases consistent.tied y o produced with ⟨created, tied⟩
    exact ⟨List.mem_cons_of_mem x created,
      tied.mono (fun _ edge => edge) (fun _ _ produced => produced)⟩

theorem producer_produce {s : MemoryState} {x y : MemoryObject}
    {o o' : Owner} (produced : (s.produce x o).producer y = some o') :
    (y = x ∧ o' = o) ∨ s.producer y = some o' := by
  by_cases same : y = x
  · subst same
    have new : (s.produce y o).producer y = some o := Function.update_self ..
    rw [new] at produced
    exact .inl ⟨rfl, (Option.some.inj produced).symm⟩
  · right
    rw [← produced]
    exact (Function.update_of_ne same ..).symm

/-- A new object does not take the place of another. -/
theorem MemoryState.Consistent.producer_kept {s : MemoryState}
    (consistent : s.Consistent) {x : MemoryObject} (new : x ∉ s.created)
    (o : Owner) {o' : Owner} {y : MemoryObject}
    (produced : s.producer y = some o') :
    (s.produce x o).producer y = some o' := by
  have other : y ≠ x := by
    rintro rfl
    exact new (consistent.tied y o' produced).1
  rw [← produced]
  exact Function.update_of_ne other _ _

/-- A new object that keeps nothing. -/
theorem MemoryState.Consistent.produce {s : MemoryState}
    (consistent : s.Consistent) {x : MemoryObject} {o : Owner}
    (new : x ∉ s.created) (tied : (s.produce x o).Tied x o) :
    (s.produce x o).Consistent where
  referenced := (consistent.create x).referenced
  edges := (consistent.create x).edges
  tied := by
    intro y o' produced
    rcases producer_produce produced with ⟨rfl, rfl⟩ | before
    · exact ⟨List.mem_cons_self, tied⟩
    · rcases consistent.tied y o' before with ⟨created, tiedBefore⟩
      exact ⟨List.mem_cons_of_mem x created,
        tiedBefore.mono (fun _ edge => edge)
          (fun _ _ => consistent.producer_kept new o)⟩

/-- A new object that keeps what it is tied to by. -/
theorem MemoryState.Consistent.produceKept {s : MemoryState}
    (consistent : s.Consistent) {x patient : MemoryObject} {o : Owner}
    (new : x ∉ s.created) (edge : BindingEdge x patient)
    (tied : ((s.produce x o).keep x patient).Tied x o) :
    ((s.produce x o).keep x patient).Consistent where
  referenced := (consistent.create x).referenced
  edges := by
    intro nurse patient' edge'
    rcases List.mem_cons.mp edge' with added | old
    · cases added
      exact ⟨List.mem_cons_self, edge⟩
    · exact (consistent.create x).edges nurse patient' old
  tied := by
    intro y o' produced
    rcases producer_produce produced with ⟨rfl, rfl⟩ | before
    · exact ⟨List.mem_cons_self, tied⟩
    · rcases consistent.tied y o' before with ⟨created, tiedBefore⟩
      exact ⟨List.mem_cons_of_mem x created,
        tiedBefore.mono (fun _ old => List.mem_cons_of_mem _ old)
          (fun _ _ => consistent.producer_kept new o)⟩

/-- `as_numpy` is called on a batch that its writer produced. -/
theorem asNumpy_step {s t : MemoryState} {batch n : Nat}
    (next : s.step (.asNumpy batch n) = some t) :
    s.heap.Referenced (.writeBatch batch) ∧ .batchArray n ∉ s.created ∧
      ∃ o, s.producer (.writeBatch batch) = some o ∧
        t = (s.produce (.batchArray n) o).keep (.batchArray n)
          (.writeBatch batch) := by
  rw [MemoryState.step] at next
  split at next
  case isFalse => cases next
  case isTrue guard =>
    rcases Option.map_eq_some_iff.mp next with ⟨o, produced, rfl⟩
    exact ⟨guard.1, guard.2, o, produced, rfl⟩

theorem MemoryState.Consistent.step {s t : MemoryState}
    {action : MemoryAction} (consistent : s.Consistent)
    (next : s.step action = some t) : t.Consistent := by
  cases action with
  | newOwner o =>
      rcases whenever_eq_some.mp next with ⟨_, rfl⟩
      exact consistent.create (.owner o)
  | nextRecord | readerNextBatch =>
      rcases whenever_eq_some.mp next with ⟨⟨_, new⟩, rfl⟩
      exact consistent.produceKept new trivial List.mem_cons_self
  | writerNextBatch w n =>
      rcases whenever_eq_some.mp next with ⟨⟨_, new⟩, rfl⟩
      exact consistent.produce new ⟨w, rfl⟩
  | asNumpy batch n =>
      rcases asNumpy_step next with ⟨_, new, o, produced, rfl⟩
      exact consistent.produceKept new trivial
        ⟨batch, List.mem_cons_self, consistent.producer_kept new o produced⟩
  | takeRef x =>
      rcases whenever_eq_some.mp next with ⟨held, rfl⟩
      have created := consistent.referenced x held
      exact { consistent with
        referenced := Heap.forall_referenced_take created
          consistent.referenced }
  | dropRef x =>
      rcases whenever_eq_some.mp next with ⟨_, rfl⟩
      exact { consistent with
        referenced := Heap.forall_referenced_drop consistent.referenced }

/-! ### Handing out record memory -/

theorem MemoryState.Safe.create {s : MemoryState} (safe : s.Safe)
    (consistent : s.Consistent) {x : MemoryObject} (new : x ∉ s.created) :
    (s.create x).Safe := by
  intro y o produced alive
  have created := (consistent.tied y o produced).1
  apply Heap.Alive.take
  apply safe y o produced
  by_contra destroyed
  refine Heap.destroyed_create ?_ ?_ destroyed alive
  · intro patient edge
    exact new (consistent.edges x patient edge).1
  · rintro rfl
    exact new created

/-- A new object for memory of a live reader or writer. -/
theorem MemoryState.Safe.produce {s : MemoryState} (safe : s.Safe)
    (consistent : s.Consistent) {x : MemoryObject} {o : Owner}
    (new : x ∉ s.created) (ownerAlive : s.heap.Alive (.owner o)) :
    (s.produce x o).Safe := by
  intro y o' produced alive
  rcases producer_produce produced with ⟨_, rfl⟩ | before
  · exact ownerAlive.take x
  · exact safe.create consistent new y o' before alive

theorem MemoryState.Safe.keep {s : MemoryState} (safe : s.Safe)
    (nurse : MemoryObject) {patient : MemoryObject}
    (live : s.heap.Alive patient) : (s.keep nurse patient).Safe := by
  intro y o produced alive
  apply Heap.Alive.keep
  apply safe y o produced
  by_contra destroyed
  exact Heap.destroyed_keep live destroyed alive

theorem MemoryState.Safe.step {s t : MemoryState} {action : MemoryAction}
    (safe : s.Safe) (consistent : s.Consistent)
    (next : s.step action = some t) (notDrop : ∀ x, action ≠ .dropRef x) :
    t.Safe := by
  cases action with
  | newOwner o =>
      rcases whenever_eq_some.mp next with ⟨new, rfl⟩
      exact safe.create consistent new
  | nextRecord | readerNextBatch =>
      rcases whenever_eq_some.mp next with ⟨⟨held, new⟩, rfl⟩
      have live := Heap.Alive.referenced held
      exact (safe.produce consistent new live).keep _ (live.take _)
  | writerNextBatch w n =>
      rcases whenever_eq_some.mp next with ⟨⟨held, new⟩, rfl⟩
      exact safe.produce consistent new (.referenced held)
  | asNumpy batch n =>
      rcases asNumpy_step next with ⟨held, new, o, produced, rfl⟩
      have live := Heap.Alive.referenced held
      have ownerAlive := safe _ o produced live
      exact (safe.produce consistent new ownerAlive).keep _ (live.take _)
  | takeRef x =>
      rcases whenever_eq_some.mp next with ⟨held, rfl⟩
      intro y o produced alive
      apply Heap.Alive.take
      apply safe y o produced
      by_contra destroyed
      exact Heap.destroyed_take (.referenced held) destroyed alive
  | dropRef x => exact absurd rfl (notDrop x)

/-! ### The references that may not be dropped -/

/-- The last reference that holds a writer is not dropped while a `WriteBatch`
of that writer is alive. -/
def OutlivesBatches (s : MemoryState) : MemoryAction → Prop
  | .dropRef x => ∀ w, s.heap.LastHolder x (.owner (.writer w)) →
      ∀ n, s.producer (.writeBatch n) = some (.writer w) →
        ¬ s.heap.Alive (.writeBatch n)
  | _ => True

/-- What holds a writer does not hold a batch. -/
theorem MemoryState.Consistent.holds_batch {s : MemoryState}
    (consistent : s.Consistent) {x : MemoryObject} {o : Owner}
    (holds : s.heap.Holds x (.owner o)) (n : Nat) :
    ¬ s.heap.Holds x (.writeBatch n) := by
  rintro (rfl | batchEdge)
  · rcases holds with same | edge
    · cases same
    · exact (consistent.edges _ _ edge).2
  · have batchShape := (consistent.edges _ _ batchEdge).2
    rcases holds with rfl | edge
    · exact batchShape
    · have shape := (consistent.edges _ _ edge).2
      cases x with
      | record | readerArray => exact batchShape
      | owner | writeBatch | batchArray => exact shape

theorem safe_drop_iff {s : MemoryState} {x : MemoryObject}
    (consistent : s.Consistent) (safe : s.Safe) (held : s.heap.Referenced x) :
    MemoryState.Safe { s with heap := s.heap.drop x } ↔
      OutlivesBatches s (.dropRef x) := by
  have alive_drop (y : MemoryObject) :
      (s.heap.drop x).Alive y ↔ s.heap.Alive y ∧ ¬ s.heap.LastHolder x y :=
    Heap.alive_drop_iff (consistent.flat y) held
  constructor
  · intro safeAfter w lastHolder n produced alive
    have batchAfter : (s.heap.drop x).Alive (.writeBatch n) := by
      rw [alive_drop]
      refine ⟨alive, ?_⟩
      intro lastOfBatch
      exact consistent.holds_batch lastHolder.1 n lastOfBatch.1
    have writerAfter := safeAfter _ _ produced batchAfter
    rw [alive_drop] at writerAfter
    exact writerAfter.2 lastHolder
  · intro outlives
    have batchSafe (n : Nat) (o : Owner)
        (produced : s.producer (.writeBatch n) = some o)
        (aliveAfter : (s.heap.drop x).Alive (.writeBatch n)) :
        (s.heap.drop x).Alive (.owner o) := by
      have alive := ((alive_drop _).mp aliveAfter).1
      rcases (consistent.tied _ o produced).2 with ⟨w, rfl⟩
      rw [alive_drop]
      refine ⟨safe _ _ produced alive, ?_⟩
      intro lastHolder
      exact outlives w lastHolder n produced alive
    intro y o produced aliveAfter
    have tied := (consistent.tied y o produced).2
    cases y with
    | owner => exact absurd tied id
    | record | readerArray => exact .kept tied aliveAfter
    | writeBatch n => exact batchSafe n o produced aliveAfter
    | batchArray n =>
        rcases tied with ⟨batch, edge, batchProduced⟩
        exact batchSafe batch o batchProduced (.kept edge aliveAfter)

/-! ### Whole runs -/

def MemoryState.Kept (s : MemoryState) : Prop :=
  s.Consistent ∧ s.Safe

theorem kept_start : MemoryState.Kept {} := by
  refine ⟨consistent_start, ?_⟩
  intro x o produced
  cases produced

theorem MemoryState.Kept.step {s t : MemoryState} {action : MemoryAction}
    (kept : s.Kept) (outlives : OutlivesBatches s action)
    (next : s.step action = some t) : t.Kept := by
  rcases kept with ⟨consistent, safe⟩
  refine ⟨consistent.step next, ?_⟩
  by_cases drops : ∃ x, action = .dropRef x
  · rcases drops with ⟨x, rfl⟩
    rcases whenever_eq_some.mp next with ⟨held, rfl⟩
    exact (safe_drop_iff consistent safe held).mpr outlives
  · rw [not_exists] at drops
    exact safe.step consistent next drops

theorem MemoryState.Kept.left {s t : MemoryState} {action : MemoryAction}
    (kept : s.Kept) (outlivesNot : ¬ OutlivesBatches s action)
    (next : s.step action = some t) : ¬ t.Safe := by
  rcases kept with ⟨consistent, safe⟩
  cases action with
  | dropRef x =>
      rcases whenever_eq_some.mp next with ⟨held, rfl⟩
      rwa [safe_drop_iff consistent safe held]
  | newOwner | nextRecord | readerNextBatch | writerNextBatch | asNumpy
  | takeRef => exact absurd trivial outlivesNot

/-- In every state of a run the live objects that denote record memory have
their reader or writer alive, if and only if the run never drops the last
reference that holds a writer while a `WriteBatch` of it is alive. -/
theorem record_memory_alive_iff {s : MemoryState}
    {schedule : List MemoryAction}
    (run : Run MemoryState.step {} schedule s) :
    Meets MemoryState.step OutlivesBatches {} schedule ↔
      Visits MemoryState.step MemoryState.Safe {} schedule :=
  run.meets_iff_visits (fun _ kept => kept.2)
    (fun _ _ _ kept outlives next => kept.step outlives next)
    (fun _ _ _ kept outlivesNot next => kept.left outlivesNot next) kept_start

/-- A writer is dropped while an array over its batch is in use. -/
def dropWriterBeforeArray : List MemoryAction :=
  [.newOwner (.writer 0), .writerNextBatch 0 0, .asNumpy 0 0,
    .dropRef (.owner (.writer 0))]

theorem record_memory_alive_iff_dropWriterBeforeArray :
    Meets MemoryState.step OutlivesBatches {} dropWriterBeforeArray ↔
      Visits MemoryState.step MemoryState.Safe {} dropWriterBeforeArray := by
  have enabled :
      (dropWriterBeforeArray.foldlM MemoryState.step {}).isSome = true := by
    decide
  rcases Option.isSome_iff_exists.mp enabled with ⟨s, run⟩
  exact record_memory_alive_iff run

theorem array_outlives_writer :
    ¬ ∀ s, Reachable MemoryState.step {} s → s.Safe := by
  intro safe
  have dangling : (dropWriterBeforeArray.foldlM MemoryState.step {}).any
      (fun s => s.producer (.batchArray 0) = some (.writer 0) ∧
        s.heap.keeps = [(.batchArray 0, .writeBatch 0)] ∧
        s.heap.Referenced (.batchArray 0) ∧
        ¬ s.heap.Referenced (.owner (.writer 0))) = true := by
    decide
  rcases (Option.any_eq_true ..).mp dangling with ⟨s, run, state⟩
  rw [decide_eq_true_eq] at state
  rcases state with ⟨produced, edges, arrayHeld, noWriter⟩
  have alive := safe s ⟨dropWriterBeforeArray, run⟩ _ _ produced
    (.referenced arrayHeld)
  rw [Heap.alive_iff_referenced] at alive
  · exact noWriter alive
  · intro nurse edge
    rw [edges, List.mem_singleton] at edge
    cases edge

end CycFlowPy.RecordMemory
