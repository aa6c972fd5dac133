/-
Module: CycFlowPy.Proofs.ServedBuffers
Purpose: The clients of a buffer live while a `TcpServer` serves it, and while
  the manager does as long as one of the manager's wrappers is kept.
Trusted boundary: none
Main exports: ServedState.Consistent, safe_iff_managed, safe_drop_iff,
  HoldsManaged, KeepsManager, served_clients_alive
-/
import CycFlowPy.Model.ServedBuffers

namespace CycFlowPy.ServedBuffers

open KeepAlive Runs

/-! ### Bookkeeping -/

/-- A wrapper keeps every client registered in its buffer, and a server every
buffer it serves. -/
structure ServedState.Consistent (s : ServedState) : Prop where
  registered : ∀ b, ∀ c ∈ s.clients b,
    (.buffer b, .client c) ∈ s.heap.keeps
  published : ∀ v name b, (name, b) ∈ s.published v →
    (.server v, .buffer b) ∈ s.heap.keeps

theorem consistent_start : ServedState.Consistent {} where
  registered := by
    intro b c registered
    cases registered
  published := by
    intro v name b served
    cases served

/-- An entry of one list after the list was replaced. -/
theorem mem_update {β : Type} {lists : Nat → List β} {i j : Nat} {x : β}
    {replaced : List β}
    (member : x ∈ Function.update lists i replaced j) :
    (j = i ∧ x ∈ replaced) ∨ x ∈ lists j := by
  by_cases same : j = i
  · subst same
    rw [Function.update_self] at member
    exact .inl ⟨rfl, member⟩
  · rw [Function.update_of_ne same] at member
    exact .inr member

theorem mem_of_mem_unregistered {name : String} {served : List (String × Nat)}
    {entry : String × Nat} (member : entry ∈ unregistered name served) :
    entry ∈ served :=
  List.mem_of_mem_filter member

theorem mem_registered {name : String} {b : Nat} {accepted : Bool}
    {served : List (String × Nat)} {entry : String × Nat}
    (member : entry ∈ registered name b accepted served) :
    entry = (name, b) ∨ entry ∈ served := by
  cases accepted with
  | false => exact .inr member
  | true =>
      rcases List.mem_cons.mp member with new | old
      · exact .inl new
      · exact .inr (mem_of_mem_unregistered old)

/-- A step keeps the bookkeeping when it keeps the edges, and adds one for
what it registers or publishes. -/
theorem ServedState.Consistent.grow {s t : ServedState}
    (consistent : s.Consistent)
    (edges : ∀ edge ∈ s.heap.keeps, edge ∈ t.heap.keeps)
    (registered : ∀ b, ∀ c ∈ t.clients b,
      c ∈ s.clients b ∨ (.buffer b, .client c) ∈ t.heap.keeps)
    (published : ∀ v name b, (name, b) ∈ t.published v →
      (name, b) ∈ s.published v ∨
        (.server v, .buffer b) ∈ t.heap.keeps) : t.Consistent where
  registered := by
    intro b c member
    rcases registered b c member with before | edge
    · exact edges _ (consistent.registered b c before)
    · exact edge
  published := by
    intro v name b member
    rcases published v name b member with before | edge
    · exact edges _ (consistent.published v name b before)
    · exact edge

theorem ServedState.Consistent.step {s t : ServedState} {action : ServedAction}
    (consistent : s.Consistent) (next : s.step action = some t) :
    t.Consistent := by
  cases action with
  | newServer v =>
      rcases whenever_eq_some.mp next with ⟨_, rfl⟩
      refine consistent.grow (fun _ old => old) (fun _ _ old => .inl old) ?_
      intro v' name b served
      rcases mem_update served with ⟨_, none⟩ | old
      · cases none
      · exact .inl old
  | newBuffer b =>
      rcases whenever_eq_some.mp next with ⟨_, rfl⟩
      refine consistent.grow (fun _ old => old) ?_ (fun _ _ _ old => .inl old)
      intro b' c registered
      rcases mem_update registered with ⟨_, none⟩ | old
      · cases none
      · exact .inl old
  | newClient | managerStart | managerStop | managerUnregister | takeRef
  | dropRef =>
      rcases whenever_eq_some.mp next with ⟨_, rfl⟩
      exact { consistent with }
  | managerInstance g =>
      simp only [ServedState.step] at next
      split at next
      · cases next
        exact { consistent with }
      · rcases whenever_eq_some.mp next with ⟨_, rfl⟩
        exact { consistent with }
  | addClient b c =>
      rcases whenever_eq_some.mp next with ⟨_, rfl⟩
      refine consistent.grow (fun _ old => List.mem_cons_of_mem _ old) ?_
        (fun _ _ _ old => .inl old)
      intro b' c' registered
      rcases mem_update registered with ⟨rfl, added⟩ | old
      · rcases List.mem_append.mp added with old | new
        · exact .inl old
        · obtain rfl := List.mem_singleton.mp new
          exact .inr List.mem_cons_self
      · exact .inl old
  | removeClient b c =>
      rcases whenever_eq_some.mp next with ⟨_, rfl⟩
      refine consistent.grow (fun _ old => old) ?_ (fun _ _ _ old => .inl old)
      intro b' c' registered
      rcases mem_update registered with ⟨rfl, kept⟩ | old
      · exact .inl (List.mem_of_mem_filter kept)
      · exact .inl old
  | registerBuffer v name b accepted =>
      rcases whenever_eq_some.mp next with ⟨_, rfl⟩
      refine consistent.grow (fun _ old => List.mem_cons_of_mem _ old)
        (fun _ _ old => .inl old) ?_
      intro v' name' b' served
      rcases mem_update served with ⟨rfl, after⟩ | old
      · rcases mem_registered after with new | old
        · cases new
          exact .inr List.mem_cons_self
        · exact .inl old
      · exact .inl old
  | unregisterBuffer v name =>
      rcases whenever_eq_some.mp next with ⟨_, rfl⟩
      refine consistent.grow (fun _ old => old) (fun _ _ old => .inl old) ?_
      intro v' name' b' served
      rcases mem_update served with ⟨rfl, kept⟩ | old
      · exact .inl (mem_of_mem_unregistered kept)
      · exact .inl old
  | managerRegister g name b accepted =>
      rcases whenever_eq_some.mp next with ⟨_, rfl⟩
      exact consistent.grow (fun _ old => List.mem_cons_of_mem _ old)
        (fun _ _ old => .inl old) (fun _ _ _ old => .inl old)

/-! ### Only the manager serves a buffer without its wrapper -/

/-- The clients of every buffer that the manager serves are alive. -/
def ServedState.ManagedSafe (s : ServedState) : Prop :=
  ∀ name b, (name, b) ∈ s.managed →
    ∀ c ∈ s.clients b, s.heap.Alive (.client c)

/-- The clients of a buffer with a wrapper, or with a server that was not
destroyed, are alive. -/
theorem ServedState.Consistent.client_alive {s : ServedState}
    (consistent : s.Consistent) {b c : Nat}
    (owned : s.heap.Alive (.buffer b) ∨
      ∃ v name, (name, b) ∈ s.published v ∧ s.heap.Alive (.server v))
    (registered : c ∈ s.clients b) : s.heap.Alive (.client c) := by
  have wrapper : s.heap.Alive (.buffer b) := by
    rcases owned with wrapper | ⟨v, name, served, server⟩
    · exact wrapper
    · exact .kept (consistent.published v name b served) server
  exact .kept (consistent.registered b c registered) wrapper

theorem safe_iff_managed {s : ServedState} (consistent : s.Consistent) :
    s.Safe ↔ s.ManagedSafe := by
  constructor
  · intro safe name b managed
    exact safe b (.inr (.inr ⟨name, managed⟩))
  · rintro managedSafe b (wrapper | served | ⟨name, managed⟩) c registered
    · exact consistent.client_alive (.inl wrapper) registered
    · exact consistent.client_alive (.inr served) registered
    · exact managedSafe name b managed c registered

/-- A step that destroys nothing, registers live clients only and lets the
manager serve buffers with a wrapper only keeps the manager's clients. -/
theorem ServedState.ManagedSafe.grow {s t : ServedState}
    (managedSafe : s.ManagedSafe) (consistentAfter : t.Consistent)
    (managed : ∀ name b, (name, b) ∈ t.managed →
      (name, b) ∈ s.managed ∨ t.heap.Alive (.buffer b))
    (registered : ∀ b, ∀ c ∈ t.clients b,
      c ∈ s.clients b ∨ t.heap.Alive (.client c))
    (alive : ∀ x, s.heap.Alive x → t.heap.Alive x) : t.ManagedSafe := by
  intro name b served c member
  rcases managed name b served with before | wrapper
  · rcases registered b c member with old | live
    · exact alive _ (managedSafe name b before c old)
    · exact live
  · exact consistentAfter.client_alive (.inl wrapper) member

theorem ServedState.ManagedSafe.step {s t : ServedState}
    {action : ServedAction} (managedSafe : s.ManagedSafe)
    (consistent : s.Consistent) (next : s.step action = some t)
    (notDrop : ∀ x, action ≠ .dropRef x) : t.ManagedSafe := by
  have consistentAfter := consistent.step next
  cases action with
  | newServer | newClient | takeRef =>
      rcases whenever_eq_some.mp next with ⟨_, rfl⟩
      exact managedSafe.grow consistentAfter (fun _ _ old => .inl old)
        (fun _ _ old => .inl old) (fun _ alive => alive.take _)
  | newBuffer b =>
      rcases whenever_eq_some.mp next with ⟨_, rfl⟩
      refine managedSafe.grow consistentAfter (fun _ _ old => .inl old) ?_
        (fun _ alive => alive.take _)
      intro b' c registered
      rcases mem_update registered with ⟨_, none⟩ | old
      · cases none
      · exact .inl old
  | managerInstance g =>
      simp only [ServedState.step] at next
      split at next
      · cases next
        exact managedSafe.grow consistentAfter (fun _ _ old => .inl old)
          (fun _ _ old => .inl old) (fun _ alive => alive.take _)
      · rcases whenever_eq_some.mp next with ⟨_, rfl⟩
        exact managedSafe.grow consistentAfter (fun _ _ old => .inl old)
          (fun _ _ old => .inl old) (fun _ alive => alive.take _)
  | addClient b c =>
      rcases whenever_eq_some.mp next with ⟨⟨_, clientHeld⟩, rfl⟩
      refine managedSafe.grow consistentAfter (fun _ _ old => .inl old) ?_
        (fun _ alive => alive.keep _ _)
      intro b' c' registered
      rcases mem_update registered with ⟨rfl, added⟩ | old
      · rcases List.mem_append.mp added with old | new
        · exact .inl old
        · obtain rfl := List.mem_singleton.mp new
          exact .inr (.referenced clientHeld)
      · exact .inl old
  | removeClient b c =>
      rcases whenever_eq_some.mp next with ⟨_, rfl⟩
      refine managedSafe.grow consistentAfter (fun _ _ old => .inl old) ?_
        (fun _ alive => alive)
      intro b' c' registered
      rcases mem_update registered with ⟨rfl, kept⟩ | old
      · exact .inl (List.mem_of_mem_filter kept)
      · exact .inl old
  | registerBuffer v name b accepted =>
      rcases whenever_eq_some.mp next with ⟨_, rfl⟩
      exact managedSafe.grow consistentAfter (fun _ _ old => .inl old)
        (fun _ _ old => .inl old) (fun _ alive => alive.keep _ _)
  | unregisterBuffer | managerStart =>
      rcases whenever_eq_some.mp next with ⟨_, rfl⟩
      exact managedSafe.grow consistentAfter (fun _ _ old => .inl old)
        (fun _ _ old => .inl old) (fun _ alive => alive)
  | managerStop g =>
      rcases whenever_eq_some.mp next with ⟨_, rfl⟩
      intro name b served
      cases served
  | managerRegister g name b accepted =>
      rcases whenever_eq_some.mp next with ⟨⟨_, bufferHeld⟩, rfl⟩
      refine managedSafe.grow consistentAfter ?_ (fun _ _ old => .inl old)
        (fun _ alive => alive.keep _ _)
      intro name' b' served
      simp only at served
      split at served
      · rcases mem_registered served with new | old
        · cases new
          exact .inr (.referenced bufferHeld)
        · exact .inl old
      · exact .inl served
  | managerUnregister g name =>
      rcases whenever_eq_some.mp next with ⟨_, rfl⟩
      refine managedSafe.grow consistentAfter ?_ (fun _ _ old => .inl old)
        (fun _ alive => alive)
      intro name' b' served
      exact .inl (mem_of_mem_unregistered served)
  | dropRef x => exact absurd rfl (notDrop x)

/-! ### The references that may not be dropped -/

/-- No reference is dropped that is the last one to keep a client of a buffer
that the manager serves. -/
def HoldsManaged (s : ServedState) : ServedAction → Prop
  | .dropRef x => ∀ name b, (name, b) ∈ s.managed →
      ∀ c ∈ s.clients b, ¬ s.heap.LastRoot x (.client c)
  | _ => True

theorem safe_drop_iff {s : ServedState} {x : ServedObject}
    (managedSafe : s.ManagedSafe) (held : s.heap.Referenced x) :
    ServedState.ManagedSafe { s with heap := s.heap.drop x } ↔
      HoldsManaged s (.dropRef x) := by
  constructor
  · intro safeAfter name b managed c registered
    have alive := safeAfter name b managed c registered
    exact ((Heap.alive_drop_iff_root held).mp alive).2
  · intro holds name b managed c registered
    have alive := managedSafe name b managed c registered
    exact (Heap.alive_drop_iff_root held).mpr
      ⟨alive, holds name b managed c registered⟩

/-- While the manager serves a buffer no wrapper of it is destroyed. -/
def KeepsManager (s : ServedState) : ServedAction → Prop
  | .dropRef (.manager g) => s.managed ≠ [] → s.heap.refs (.manager g) ≠ 1
  | _ => True

instance (s : ServedState) (action : ServedAction) :
    Decidable (KeepsManager s action) := by
  unfold KeepsManager
  split <;> infer_instance

/-- A wrapper of the manager that is referenced keeps every buffer that the
manager serves. -/
def ServedState.Held (s : ServedState) : Prop :=
  ∀ name b, (name, b) ∈ s.managed →
    ∃ g, s.heap.Referenced (.manager g) ∧
      (.manager g, .buffer b) ∈ s.heap.keeps

theorem ServedState.Held.grow {s t : ServedState} (held : s.Held)
    (managed : ∀ entry ∈ t.managed, entry ∈ s.managed)
    (edges : ∀ edge ∈ s.heap.keeps, edge ∈ t.heap.keeps)
    (referenced : s.managed ≠ [] → ∀ g, s.heap.Referenced (.manager g) →
      t.heap.Referenced (.manager g)) : t.Held := by
  intro name b served
  have before := managed _ served
  rcases held name b before with ⟨g, wrapper, edge⟩
  exact ⟨g, referenced (List.ne_nil_of_mem before) g wrapper, edges _ edge⟩

theorem ServedState.Held.step {s t : ServedState} {action : ServedAction}
    (held : s.Held) (keeps : KeepsManager s action)
    (next : s.step action = some t) : t.Held := by
  have taken {x y : ServedObject} (before : s.heap.Referenced y) :
      (s.heap.take x).Referenced y :=
    Heap.referenced_take.mpr (.inr before)
  cases action with
  | newServer | newBuffer | newClient | takeRef =>
      rcases whenever_eq_some.mp next with ⟨_, rfl⟩
      exact held.grow (fun _ old => old) (fun _ old => old)
        (fun _ _ before => taken before)
  | managerInstance g =>
      simp only [ServedState.step] at next
      split at next
      · cases next
        exact held.grow (fun _ old => old) (fun _ old => old)
          (fun _ _ before => taken before)
      · rcases whenever_eq_some.mp next with ⟨_, rfl⟩
        exact held.grow (fun _ old => old) (fun _ old => old)
          (fun _ _ before => taken before)
  | addClient | registerBuffer =>
      rcases whenever_eq_some.mp next with ⟨_, rfl⟩
      exact held.grow (fun _ old => old)
        (fun _ old => List.mem_cons_of_mem _ old) (fun _ _ before => before)
  | removeClient | unregisterBuffer | managerStart =>
      rcases whenever_eq_some.mp next with ⟨_, rfl⟩
      exact held.grow (fun _ old => old) (fun _ old => old)
        (fun _ _ before => before)
  | managerStop g =>
      rcases whenever_eq_some.mp next with ⟨_, rfl⟩
      intro name b served
      cases served
  | managerRegister g name b accepted =>
      rcases whenever_eq_some.mp next with ⟨⟨wrapper, _⟩, rfl⟩
      have before {name' : String} {b' : Nat}
          (served : (name', b') ∈ s.managed) :
          ∃ g', s.heap.Referenced (.manager g') ∧
            (ServedObject.manager g', ServedObject.buffer b') ∈
              (.manager g, .buffer b) :: s.heap.keeps := by
        rcases held name' b' served with ⟨g', wrapper', edge⟩
        exact ⟨g', wrapper', List.mem_cons_of_mem _ edge⟩
      intro name' b' served
      simp only at served
      split at served
      · rcases mem_registered served with new | old
        · cases new
          exact ⟨g, wrapper, List.mem_cons_self⟩
        · exact before old
      · exact before served
  | managerUnregister g name =>
      rcases whenever_eq_some.mp next with ⟨_, rfl⟩
      exact held.grow (fun _ kept => mem_of_mem_unregistered kept)
        (fun _ old => old) (fun _ _ before => before)
  | dropRef x =>
      rcases whenever_eq_some.mp next with ⟨xHeld, rfl⟩
      refine held.grow (fun _ old => old) (fun _ old => old) ?_
      intro serves g wrapper
      refine Heap.referenced_drop.mpr ⟨wrapper, ?_⟩
      rintro rfl
      exact Nat.lt_of_le_of_ne wrapper (Ne.symm (keeps serves))

/-- A wrapper that keeps the manager's buffers keeps their clients. -/
theorem ServedState.Held.holdsManaged {s : ServedState} (held : s.Held)
    (consistent : s.Consistent) {action : ServedAction}
    (keeps : KeepsManager s action) : HoldsManaged s action := by
  cases action with
  | dropRef x =>
      intro name b managed c registered last
      rcases last with ⟨_, once, only⟩
      rcases held name b managed with ⟨g, wrapper, edge⟩
      have reaches : s.heap.Reaches (.manager g) (.client c) := by
        apply Relation.ReflTransGen.tail (.single edge)
        exact consistent.registered b c registered
      obtain rfl := only _ reaches wrapper
      exact keeps (List.ne_nil_of_mem managed) once
  | newServer | newBuffer | newClient | managerInstance | addClient
  | removeClient | registerBuffer | unregisterBuffer | managerStart
  | managerStop | managerRegister | managerUnregister | takeRef =>
      exact trivial

/-! ### Whole runs -/

def ServedState.Kept (s : ServedState) : Prop :=
  s.Consistent ∧ s.Safe

theorem kept_start : ServedState.Kept {} := by
  refine ⟨consistent_start, (safe_iff_managed consistent_start).mpr ?_⟩
  intro name b served
  cases served

theorem ServedState.Kept.step_iff {s t : ServedState} {action : ServedAction}
    (kept : s.Kept) (next : s.step action = some t) :
    t.Safe ↔ HoldsManaged s action := by
  rcases kept with ⟨consistent, safe⟩
  have managedSafe := (safe_iff_managed consistent).mp safe
  rw [safe_iff_managed (consistent.step next)]
  by_cases drops : ∃ x, action = .dropRef x
  · rcases drops with ⟨x, rfl⟩
    rcases whenever_eq_some.mp next with ⟨held, rfl⟩
    exact safe_drop_iff managedSafe held
  · rw [not_exists] at drops
    constructor
    · intro _
      cases action with
      | dropRef x => exact absurd rfl (drops x)
      | newServer | newBuffer | newClient | managerInstance | addClient
      | removeClient | registerBuffer | unregisterBuffer | managerStart
      | managerStop | managerRegister | managerUnregister | takeRef =>
          exact trivial
    · intro _
      exact managedSafe.step consistent next drops

/-- In every state of a run the clients of a buffer are alive while its
wrapper is, or a `TcpServer` that serves it.  The clients of the buffers that
the manager serves are too, if and only if the run never drops the last
reference that keeps one of them; so if it never destroys a wrapper of the
manager while the manager serves a buffer. -/
theorem served_clients_alive {s : ServedState} {schedule : List ServedAction}
    (run : Run ServedState.step {} schedule s) :
    (∀ b, ∀ c ∈ s.clients b,
      (s.heap.Alive (.buffer b) ∨
        ∃ v name, (name, b) ∈ s.published v ∧ s.heap.Alive (.server v)) →
      s.heap.Alive (.client c)) ∧
    (Meets ServedState.step HoldsManaged {} schedule ↔
      Visits ServedState.step ServedState.Safe {} schedule) ∧
    (Meets ServedState.step KeepsManager {} schedule →
      Visits ServedState.step ServedState.Safe {} schedule) := by
  have consistent : s.Consistent :=
    run.invariant (fun _ _ _ consistent next => consistent.step next)
      consistent_start
  have exact_holds := run.meets_iff_visits (fun _ kept => kept.2)
    (fun _ _ _ (kept : ServedState.Kept _) holds next =>
      ⟨kept.1.step next, (kept.step_iff next).mpr holds⟩)
    (fun _ _ _ kept holdsNot next safe =>
      holdsNot ((kept.step_iff next).mp safe)) kept_start
  refine ⟨?_, exact_holds, ?_⟩
  · intro b c registered owned
    exact consistent.client_alive owned registered
  · intro keeps
    rw [← exact_holds]
    apply keeps.imp_of_invariant
      (fun _ _ _ (both : _ ∧ _) keeps next =>
        ⟨both.1.step keeps next, both.2.step next⟩)
      (fun _ _ (both : ServedState.Held _ ∧ ServedState.Consistent _) keeps =>
        both.1.holdsManaged both.2 keeps)
    refine ⟨?_, consistent_start⟩
    intro name b served
    cases served

/-- A buffer with a client is served through a wrapper of the manager that
stays referenced until the manager is stopped. -/
def keptManager : List ServedAction :=
  [.newBuffer 0, .newClient 0, .addClient 0 0, .managerInstance 0,
    .managerStart 0, .managerRegister 0 "sensors" 0 true, .dropRef (.client 0),
    .dropRef (.buffer 0), .managerStop 0, .dropRef (.manager 0)]

theorem served_clients_alive_keptManager :
    Visits ServedState.step ServedState.Safe {} keptManager := by
  have enabled : (keptManager.foldlM ServedState.step {}).isSome = true := by
    decide
  rcases Option.isSome_iff_exists.mp enabled with ⟨s, run⟩
  exact (served_clients_alive run).2.2 (by decide)

end CycFlowPy.ServedBuffers
