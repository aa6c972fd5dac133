/-
Module: CycFlowPy.Proofs.BufferClients
Purpose: A live `RecBuffer` has a destroyed client registered exactly when
  Python code dropped the last reference that held the client while a writer
  or reader shared the buffer.
Trusted boundary: none
Main exports: BufferState.Consistent, destroyed_stays, HoldsClients,
  clients_alive_iff
-/
import CycFlowPy.Model.BufferClients

namespace CycFlowPy.BufferClients

open KeepAlive Runs

/-! ### Bookkeeping -/

/-- Only objects that were created are referenced or keep others, only the
wrappers of buffers keep others and only clients are kept, a wrapper keeps
every client registered in its buffer, and only objects that were created
share buffers. -/
structure BufferState.Consistent (s : BufferState) : Prop where
  referenced : ∀ x, s.heap.Referenced x → x ∈ s.created
  edges : ∀ nurse patient, (nurse, patient) ∈ s.heap.keeps →
    nurse ∈ s.created ∧ ∃ b c, nurse = .buffer b ∧ patient = .client c
  registered : ∀ b, ∀ c ∈ s.clients b,
    (.buffer b, .client c) ∈ s.heap.keeps
  shared : ∀ o b, (o, b) ∈ s.shares → .owner o ∈ s.created

/-- A client registered after one buffer's clients were replaced. -/
theorem registered_update {clients : Nat → List Nat} {b b' c : Nat}
    {replaced : List Nat}
    (registered : c ∈ Function.update clients b replaced b') :
    (b' = b ∧ c ∈ replaced) ∨ c ∈ clients b' := by
  by_cases same : b' = b
  · subst same
    rw [Function.update_self] at registered
    exact .inl ⟨rfl, registered⟩
  · rw [Function.update_of_ne same] at registered
    exact .inr registered

theorem consistent_start : BufferState.Consistent {} where
  referenced := by
    intro x held
    exact absurd held (Nat.lt_irrefl 0)
  edges := by
    intro nurse patient edge
    cases edge
  registered := by
    intro b c registered
    cases registered
  shared := by
    intro o b share
    cases share

theorem BufferState.Consistent.create {s : BufferState}
    (consistent : s.Consistent) (x : PyObject) : (s.create x).Consistent where
  referenced := by
    apply Heap.forall_referenced_take
    · exact List.mem_cons_self
    · intro y held
      exact List.mem_cons_of_mem x (consistent.referenced y held)
  edges := by
    intro nurse patient edge
    rcases consistent.edges nurse patient edge with ⟨created, shape⟩
    exact ⟨List.mem_cons_of_mem x created, shape⟩
  registered := consistent.registered
  shared := by
    intro o b share
    exact List.mem_cons_of_mem x (consistent.shared o b share)

theorem BufferState.Consistent.step {s t : BufferState} {action : BufferAction}
    (consistent : s.Consistent) (next : s.step action = some t) :
    t.Consistent := by
  cases action with
  | newBuffer b =>
      rcases whenever_eq_some.mp next with ⟨_, rfl⟩
      have created := consistent.create (.buffer b)
      constructor
      · exact created.referenced
      · exact created.edges
      · intro b' c registered
        rcases registered_update registered with ⟨_, none⟩ | old
        · cases none
        · exact consistent.registered b' c old
      · exact created.shared
  | newClient c =>
      rcases whenever_eq_some.mp next with ⟨_, rfl⟩
      exact consistent.create (.client c)
  | newOwner o b =>
      rcases whenever_eq_some.mp next with ⟨_, rfl⟩
      refine { consistent.create (.owner o) with shared := ?_ }
      intro o' b' share
      rcases List.mem_cons.mp share with new | old
      · cases new
        exact List.mem_cons_self
      · exact List.mem_cons_of_mem _ (consistent.shared o' b' old)
  | addClient b c =>
      rcases whenever_eq_some.mp next with ⟨⟨bufferHeld, _⟩, rfl⟩
      constructor
      · exact consistent.referenced
      · intro nurse patient edge
        rw [Heap.keep_keeps, List.mem_cons] at edge
        rcases edge with new | old
        · cases new
          exact ⟨consistent.referenced _ bufferHeld, b, c, rfl, rfl⟩
        · exact consistent.edges nurse patient old
      · intro b' c' registered
        rw [Heap.keep_keeps, List.mem_cons]
        rcases registered_update registered with ⟨rfl, added⟩ | old
        · rcases List.mem_append.mp added with old | new
          · exact .inr (consistent.registered b' c' old)
          · obtain rfl := List.mem_singleton.mp new
            exact .inl rfl
        · exact .inr (consistent.registered b' c' old)
      · exact consistent.shared
  | removeClient b c =>
      rcases whenever_eq_some.mp next with ⟨_, rfl⟩
      constructor
      · exact consistent.referenced
      · exact consistent.edges
      · intro b' c' registered
        rcases registered_update registered with ⟨rfl, kept⟩ | old
        · exact consistent.registered b' c' (List.mem_of_mem_filter kept)
        · exact consistent.registered b' c' old
      · exact consistent.shared
  | takeRef x =>
      rcases whenever_eq_some.mp next with ⟨held, rfl⟩
      have created := consistent.referenced x held
      exact { consistent with
        referenced := Heap.forall_referenced_take created
          consistent.referenced }
  | dropRef x =>
      rcases whenever_eq_some.mp next with ⟨_, rfl⟩
      exact { consistent with
        referenced := Heap.forall_referenced_drop consistent.referenced }
  | push o b =>
      rcases whenever_eq_some.mp next with ⟨_, rfl⟩
      exact consistent

/-- An object that was destroyed is never alive again. -/
theorem destroyed_stays {s t : BufferState} {action : BufferAction}
    (consistent : s.Consistent) (next : s.step action = some t)
    {x : PyObject} (created : x ∈ s.created) (destroyed : ¬ s.heap.Alive x) :
    ¬ t.heap.Alive x := by
  have creation {y : PyObject} (new : y ∉ s.created) :
      ¬ (s.create y).heap.Alive x := by
    apply Heap.destroyed_create
    · intro patient edge
      exact new (consistent.edges y patient edge).1
    · rintro rfl
      exact new created
    · exact destroyed
  cases action with
  | newBuffer b =>
      rcases whenever_eq_some.mp next with ⟨new, rfl⟩
      exact creation new
  | newClient c =>
      rcases whenever_eq_some.mp next with ⟨new, rfl⟩
      exact creation new
  | newOwner o b =>
      rcases whenever_eq_some.mp next with ⟨⟨new, _⟩, rfl⟩
      exact creation new
  | addClient b c =>
      rcases whenever_eq_some.mp next with ⟨⟨_, clientHeld⟩, rfl⟩
      exact Heap.destroyed_keep (.referenced clientHeld) destroyed
  | takeRef y =>
      rcases whenever_eq_some.mp next with ⟨held, rfl⟩
      exact Heap.destroyed_take (.referenced held) destroyed
  | dropRef y =>
      rcases whenever_eq_some.mp next with ⟨_, rfl⟩
      exact Heap.destroyed_drop destroyed
  | removeClient | push =>
      rcases whenever_eq_some.mp next with ⟨_, rfl⟩
      exact destroyed

/-! ### Who keeps whom alive -/

/-- `x` is the client `c` or the wrapper of a buffer it was added to. -/
def BufferState.Holds (s : BufferState) (x : PyObject) (c : Nat) : Prop :=
  x = .client c ∨ (x, .client c) ∈ s.heap.keeps

theorem BufferState.Consistent.alive_buffer {s : BufferState}
    (consistent : s.Consistent) (b : Nat) :
    s.heap.Alive (.buffer b) ↔ s.heap.Referenced (.buffer b) := by
  apply Heap.alive_iff_referenced
  intro nurse edge
  rcases consistent.edges nurse _ edge with ⟨_, _, _, _, patient⟩
  cases patient

theorem BufferState.Consistent.alive_owner {s : BufferState}
    (consistent : s.Consistent) (o : Nat) :
    s.heap.Alive (.owner o) ↔ s.heap.Referenced (.owner o) := by
  apply Heap.alive_iff_referenced
  intro nurse edge
  rcases consistent.edges nurse _ edge with ⟨_, _, _, _, patient⟩
  cases patient

/-- The wrapper of a buffer is kept by no object. -/
theorem BufferState.Consistent.flat {s : BufferState}
    (consistent : s.Consistent) (x nurse : PyObject)
    (edge : (nurse, x) ∈ s.heap.keeps) (z : PyObject) :
    (z, nurse) ∉ s.heap.keeps := by
  intro above
  rcases consistent.edges nurse x edge with ⟨_, _, _, isBuffer, _⟩
  rcases consistent.edges z nurse above with ⟨_, _, _, _, isClient⟩
  rw [isBuffer] at isClient
  cases isClient

theorem BufferState.Consistent.alive_client {s : BufferState}
    (consistent : s.Consistent) (c : Nat) :
    s.heap.Alive (.client c) ↔ ∃ x, s.Holds x c ∧ s.heap.Referenced x :=
  Heap.alive_iff_holder (consistent.flat (.client c))

/-- The buffer has a reference to its wrapper or to a writer or reader that
shares it. -/
theorem BufferState.Consistent.owned_iff {s : BufferState}
    (consistent : s.Consistent) (b : Nat) :
    s.Owned b ↔ s.heap.Referenced (.buffer b) ∨
      ∃ o, (o, b) ∈ s.shares ∧ s.heap.Referenced (.owner o) := by
  simp only [BufferState.Owned, consistent.alive_buffer,
    consistent.alive_owner]

/-! ### The references that may not be dropped -/

/-- `x` has the only reference there is to `c` or to a wrapper that keeps
`c`. -/
def BufferState.LastHolder (s : BufferState) (x : PyObject) (c : Nat) : Prop :=
  s.Holds x c ∧ s.heap.refs x = 1 ∧
    ∀ y, s.Holds y c → s.heap.Referenced y → y = x

/-- No reference is dropped that is the last one to hold a client while the
client is registered in a buffer that a writer or reader shares. -/
def HoldsClients (s : BufferState) : BufferAction → Prop
  | .dropRef x => ∀ b, ∀ c ∈ s.clients b, s.LastHolder x c →
      ∀ o, (o, b) ∈ s.shares → ¬ s.heap.Referenced (.owner o)
  | _ => True

/-- A step that creates no owner of a buffer with clients, registers only
live clients and destroys none keeps the buffers safe. -/
theorem BufferState.Safe.grow {s t : BufferState} (safe : s.Safe)
    (owned : ∀ b, t.Owned b → s.Owned b ∨ t.clients b = [])
    (registered : ∀ b, ∀ c ∈ t.clients b,
      c ∈ s.clients b ∨ t.heap.Alive (.client c))
    (alive : ∀ c, s.heap.Alive (.client c) → t.heap.Alive (.client c)) :
    t.Safe := by
  intro b ownedAfter c registeredAfter
  rcases registered b c registeredAfter with before | live
  · rcases owned b ownedAfter with ownedBefore | none
    · exact alive c (safe b ownedBefore c before)
    · rw [none] at registeredAfter
      cases registeredAfter
  · exact live

theorem BufferState.Safe.step {s t : BufferState} {action : BufferAction}
    (consistent : s.Consistent) (safe : s.Safe)
    (next : s.step action = some t) (notDrop : ∀ x, action ≠ .dropRef x) :
    t.Safe := by
  have consistentAfter := consistent.step next
  cases action with
  | newBuffer b =>
      rcases whenever_eq_some.mp next with ⟨_, rfl⟩
      apply safe.grow
      · intro b' owned
        rw [consistentAfter.owned_iff] at owned
        rw [consistent.owned_iff]
        by_cases same : b' = b
        · subst same
          exact .inr (Function.update_self ..)
        · simpa [BufferState.create, same] using Or.inl owned
      · intro b' c registered
        rcases registered_update registered with ⟨_, none⟩ | old
        · cases none
        · exact .inl old
      · exact fun c alive => alive.take _
  | newClient c =>
      rcases whenever_eq_some.mp next with ⟨_, rfl⟩
      apply safe.grow
      · intro b owned
        rw [consistentAfter.owned_iff] at owned
        rw [consistent.owned_iff]
        simpa [BufferState.create] using Or.inl owned
      · exact fun b c registered => .inl registered
      · exact fun c alive => alive.take _
  | newOwner o b =>
      rcases whenever_eq_some.mp next with ⟨⟨new, bufferHeld⟩, rfl⟩
      apply safe.grow
      · intro b' owned
        left
        rw [consistentAfter.owned_iff] at owned
        rw [consistent.owned_iff]
        rcases owned with wrapper | ⟨o', share, held⟩
        · left
          simpa [BufferState.create] using wrapper
        · rcases List.mem_cons.mp share with added | old
          · cases added
            exact .inl bufferHeld
          · have other : o' ≠ o := by
              rintro rfl
              exact new (consistent.shared o' b' old)
            right
            refine ⟨o', old, ?_⟩
            simpa [BufferState.create, other] using held
      · exact fun b c registered => .inl registered
      · exact fun c alive => alive.take _
  | addClient b c =>
      rcases whenever_eq_some.mp next with ⟨⟨_, clientHeld⟩, rfl⟩
      apply safe.grow
      · intro b' owned
        rw [consistentAfter.owned_iff] at owned
        rw [consistent.owned_iff]
        exact .inl owned
      · intro b' c' registered
        rcases registered_update registered with ⟨rfl, added⟩ | old
        · rcases List.mem_append.mp added with old | new
          · exact .inl old
          · obtain rfl := List.mem_singleton.mp new
            exact .inr (.referenced clientHeld)
        · exact .inl old
      · exact fun c' alive => alive.keep ..
  | removeClient b c =>
      rcases whenever_eq_some.mp next with ⟨_, rfl⟩
      apply safe.grow
      · exact fun b' owned => .inl owned
      · intro b' c' registered
        rcases registered_update registered with ⟨rfl, kept⟩ | old
        · exact .inl (List.mem_of_mem_filter kept)
        · exact .inl old
      · exact fun c' alive => alive
  | takeRef x =>
      rcases whenever_eq_some.mp next with ⟨held, rfl⟩
      have unchanged (y : PyObject) :
          (s.heap.take x).Referenced y ↔ s.heap.Referenced y := by
        rw [Heap.referenced_take]
        constructor
        · rintro (rfl | heldBefore)
          · exact held
          · exact heldBefore
        · exact .inr
      apply safe.grow
      · intro b owned
        rw [consistentAfter.owned_iff] at owned
        rw [consistent.owned_iff]
        simpa [unchanged] using Or.inl owned
      · exact fun b c registered => .inl registered
      · exact fun c alive => alive.take _
  | dropRef x => exact absurd rfl (notDrop x)
  | push o b =>
      rcases whenever_eq_some.mp next with ⟨_, rfl⟩
      exact safe

/-- Dropping a reference keeps the buffers safe exactly when it is not the
last one to hold a client of a shared buffer. -/
theorem safe_drop_iff {s : BufferState} {x : PyObject}
    (consistent : s.Consistent) (safe : s.Safe) (held : s.heap.Referenced x) :
    BufferState.Safe { s with heap := s.heap.drop x } ↔
      HoldsClients s (.dropRef x) := by
  have next : s.step (.dropRef x) = some { s with heap := s.heap.drop x } :=
    whenever_of held _
  have after := consistent.step next
  have alive_drop (c : Nat) : (s.heap.drop x).Alive (.client c) ↔
      s.heap.Alive (.client c) ∧ ¬ s.LastHolder x c :=
    Heap.alive_drop_iff (consistent.flat (.client c)) held
  constructor
  · intro safeAfter b c registered lastHolder o share ownerHeld
    have other : PyObject.owner o ≠ x := by
      rintro rfl
      rcases lastHolder.1 with same | edge
      · cases same
      · rcases consistent.edges _ _ edge with ⟨_, _, _, same, _⟩
        cases same
    have owned : BufferState.Owned { s with heap := s.heap.drop x } b := by
      rw [after.owned_iff]
      exact .inr ⟨o, share,
        Heap.referenced_drop.mpr ⟨ownerHeld, fun same => absurd same other⟩⟩
    have alive := safeAfter b owned c registered
    exact ((alive_drop c).mp alive).2 lastHolder
  · intro holdsClients b ownedAfter c registered
    rw [after.owned_iff] at ownedAfter
    rcases ownedAfter with wrapper | ⟨o, share, heldAfter⟩
    · exact .kept (consistent.registered b c registered) (.referenced wrapper)
    · have ownerHeld := (Heap.referenced_drop.mp heldAfter).1
      have ownedBefore : s.Owned b := by
        rw [consistent.owned_iff]
        exact .inr ⟨o, share, ownerHeld⟩
      refine (alive_drop c).mpr ⟨safe b ownedBefore c registered, ?_⟩
      intro lastHolder
      exact holdsClients b c registered lastHolder o share ownerHeld

/-! ### Whole runs -/

def BufferState.Kept (s : BufferState) : Prop :=
  s.Consistent ∧ s.Safe

theorem kept_start : BufferState.Kept {} := by
  refine ⟨consistent_start, ?_⟩
  intro b _ c registered
  cases registered

theorem BufferState.Kept.step {s t : BufferState} {action : BufferAction}
    (kept : s.Kept) (holds : HoldsClients s action)
    (next : s.step action = some t) : t.Kept := by
  rcases kept with ⟨consistent, safe⟩
  refine ⟨consistent.step next, ?_⟩
  by_cases drops : ∃ x, action = .dropRef x
  · rcases drops with ⟨x, rfl⟩
    rcases whenever_eq_some.mp next with ⟨held, rfl⟩
    exact (safe_drop_iff consistent safe held).mpr holds
  · rw [not_exists] at drops
    exact safe.step consistent next drops

theorem BufferState.Kept.left {s t : BufferState} {action : BufferAction}
    (kept : s.Kept) (holdsNot : ¬ HoldsClients s action)
    (next : s.step action = some t) : ¬ t.Safe := by
  rcases kept with ⟨consistent, safe⟩
  cases action with
  | dropRef x =>
      rcases whenever_eq_some.mp next with ⟨held, rfl⟩
      rwa [safe_drop_iff consistent safe held]
  | newBuffer | newClient | newOwner | addClient | removeClient | takeRef
  | push => exact absurd trivial holdsNot

/-- In every state of a run the client pointers of the live buffers denote
live clients, if and only if the run never drops the last reference that holds
a client registered in a buffer that a writer or reader shares. -/
theorem clients_alive_iff {s : BufferState} {schedule : List BufferAction}
    (run : Run BufferState.step {} schedule s) :
    Meets BufferState.step HoldsClients {} schedule ↔
      Visits BufferState.step BufferState.Safe {} schedule :=
  run.meets_iff_visits (fun _ kept => kept.2)
    (fun _ _ _ kept holds next => kept.step holds next)
    (fun _ _ _ kept holdsNot next => kept.left holdsNot next) kept_start

/-- A client registered in a buffer with a writer, whose own reference and
whose buffer's wrapper are dropped. -/
def dropClientThenBuffer : List BufferAction :=
  [.newBuffer 0, .newClient 0, .addClient 0 0, .newOwner 0 0,
    .dropRef (.client 0), .dropRef (.buffer 0)]

theorem clients_alive_iff_dropClientThenBuffer :
    Meets BufferState.step HoldsClients {} dropClientThenBuffer ↔
      Visits BufferState.step BufferState.Safe {} dropClientThenBuffer := by
  have enabled :
      (dropClientThenBuffer.foldlM BufferState.step {}).isSome = true := by
    decide
  rcases Option.isSome_iff_exists.mp enabled with ⟨s, run⟩
  exact clients_alive_iff run

theorem buffer_notifies_destroyed_client :
    ¬ ∀ s, Reachable BufferState.step {} s → s.Safe := by
  intro safe
  have dangling : (dropClientThenBuffer.foldlM BufferState.step {}).any
      (fun s => 0 ∈ s.clients 0 ∧ s.heap.keeps = [(.buffer 0, .client 0)] ∧
        (0, 0) ∈ s.shares ∧ s.heap.Referenced (.owner 0) ∧
        ¬ s.heap.Referenced (.buffer 0) ∧
        ¬ s.heap.Referenced (.client 0)) = true := by
    decide
  rcases (Option.any_eq_true ..).mp dangling with ⟨s, run, state⟩
  rw [decide_eq_true_eq] at state
  rcases state with
    ⟨registered, edges, share, ownerHeld, noWrapper, noClient⟩
  have consistent : s.Consistent :=
    Run.invariant (fun _ _ _ consistent next => consistent.step next) run
      consistent_start
  have owned : s.Owned 0 := .inr ⟨0, share, .referenced ownerHeld⟩
  have alive := safe s ⟨dropClientThenBuffer, run⟩ 0 owned 0 registered
  rw [consistent.alive_client] at alive
  rcases alive with ⟨x, rfl | edge, held⟩
  · exact noClient held
  · rw [edges, List.mem_singleton] at edge
    cases edge
    exact noWrapper held

end CycFlowPy.BufferClients
