/-
Module: CycFlowPy.Lib.KeepAlive
Purpose: Objects owned by counted references and by keep-alive edges, where an
  object lives as long as it is referenced or kept by an object that lives.
Trusted boundary: none
Main exports: Heap, Heap.Referenced, Heap.Alive, Heap.Alive.mono,
  Heap.Alive.closed, Heap.alive_iff, Heap.alive_iff_holder,
  Heap.alive_drop_iff, Heap.destroyed_create, Heap.destroyed_take,
  Heap.destroyed_drop, Heap.destroyed_keep, Heap.Reaches,
  Heap.alive_iff_root, Heap.LastRoot, Heap.alive_drop_iff_root
-/
import Mathlib.Logic.Function.Basic
import Mathlib.Logic.Relation

namespace KeepAlive

variable {ω : Type*}

/-- The number of references to every object, and the edges from a nurse to
the patient it keeps alive. -/
structure Heap (ω : Type*) where
  refs : ω → Nat
  keeps : List (ω × ω)

namespace Heap

def empty : Heap ω where
  refs := fun _ => 0
  keeps := []

def Referenced (h : Heap ω) (x : ω) : Prop :=
  0 < h.refs x

instance (h : Heap ω) (x : ω) : Decidable (h.Referenced x) :=
  inferInstanceAs (Decidable (0 < _))

/-- An object is alive while it is referenced, and while a nurse of it is
alive. -/
inductive Alive (h : Heap ω) : ω → Prop where
  | referenced {x : ω} (held : h.Referenced x) : Alive h x
  | kept {nurse patient : ω} (edge : (nurse, patient) ∈ h.keeps)
      (nurseAlive : Alive h nurse) : Alive h patient

theorem alive_iff {h : Heap ω} {x : ω} :
    h.Alive x ↔
      h.Referenced x ∨ ∃ nurse, (nurse, x) ∈ h.keeps ∧ h.Alive nurse := by
  constructor
  · intro alive
    cases alive with
    | referenced held => exact .inl held
    | kept edge nurseAlive => exact .inr ⟨_, edge, nurseAlive⟩
  · rintro (held | ⟨nurse, edge, nurseAlive⟩)
    · exact .referenced held
    · exact .kept edge nurseAlive

/-- An object that no other object keeps lives by its references only. -/
theorem alive_iff_referenced {h : Heap ω} {x : ω}
    (noNurse : ∀ nurse, (nurse, x) ∉ h.keeps) :
    h.Alive x ↔ h.Referenced x := by
  rw [alive_iff]
  constructor
  · rintro (held | ⟨nurse, edge, _⟩)
    · exact held
    · exact absurd edge (noNurse nurse)
  · exact .inl

/-- What holds of the referenced objects and passes along the edges holds of
every object alive. -/
theorem Alive.closed {h : Heap ω} {P : ω → Prop}
    (referenced : ∀ x, h.Referenced x → P x)
    (passed : ∀ nurse patient, (nurse, patient) ∈ h.keeps → P nurse →
      P patient)
    {x : ω} (alive : h.Alive x) : P x := by
  induction alive with
  | referenced held => exact referenced _ held
  | kept edge _ inductionHypothesis =>
      exact passed _ _ edge inductionHypothesis

/-- `y` is the object `x` or one of its nurses. -/
def Holds (h : Heap ω) (y x : ω) : Prop :=
  y = x ∨ (y, x) ∈ h.keeps

/-- An object whose nurses are kept by nobody lives by a reference to itself or
to one of them. -/
theorem alive_iff_holder {h : Heap ω} {x : ω}
    (flat : ∀ nurse, (nurse, x) ∈ h.keeps → ∀ z, (z, nurse) ∉ h.keeps) :
    h.Alive x ↔ ∃ y, h.Holds y x ∧ h.Referenced y := by
  rw [alive_iff]
  constructor
  · rintro (held | ⟨nurse, edge, nurseAlive⟩)
    · exact ⟨x, .inl rfl, held⟩
    · exact ⟨nurse, .inr edge,
        (alive_iff_referenced (flat nurse edge)).mp nurseAlive⟩
  · rintro ⟨y, rfl | edge, held⟩
    · exact .inl held
    · exact .inr ⟨y, edge, .referenced held⟩

/-- The only reference to `x` or one of its nurses is one to `y`. -/
def LastHolder (h : Heap ω) (y x : ω) : Prop :=
  h.Holds y x ∧ h.refs y = 1 ∧
    ∀ z, h.Holds z x → h.Referenced z → z = y

theorem Alive.mono {h h' : Heap ω}
    (referenced : ∀ x, h.Referenced x → h'.Referenced x)
    (edges : ∀ edge ∈ h.keeps, edge ∈ h'.keeps)
    {x : ω} (alive : h.Alive x) : h'.Alive x :=
  alive.closed (fun x held => .referenced (referenced x held))
    (fun _ _ edge nurseAlive => .kept (edges _ edge) nurseAlive)

/-- The nurse keeps the patient alive from now on. -/
def keep (h : Heap ω) (nurse patient : ω) : Heap ω :=
  { h with keeps := (nurse, patient) :: h.keeps }

@[simp] theorem keep_keeps (h : Heap ω) (nurse patient : ω) :
    (h.keep nurse patient).keeps = (nurse, patient) :: h.keeps := rfl

@[simp] theorem referenced_keep {h : Heap ω} {nurse patient x : ω} :
    (h.keep nurse patient).Referenced x ↔ h.Referenced x := Iff.rfl

theorem Alive.keep {h : Heap ω} {x : ω} (alive : h.Alive x)
    (nurse patient : ω) : (h.keep nurse patient).Alive x := by
  apply alive.mono
  · intro y held
    exact referenced_keep.mpr held
  · intro edge old
    exact List.mem_cons_of_mem _ old

/-- A destroyed object stays destroyed when a live one is kept. -/
theorem destroyed_keep {h : Heap ω} {nurse patient y : ω}
    (live : h.Alive patient) (destroyed : ¬ h.Alive y) :
    ¬ (h.keep nurse patient).Alive y := by
  intro alive
  apply destroyed
  apply alive.closed
  · intro z held
    exact .referenced held
  · intro a b edge nurseAlive
    rw [keep_keeps, List.mem_cons] at edge
    rcases edge with new | old
    · cases new
      exact live
    · exact .kept old nurseAlive

/-- `root` keeps `x` alive, through any number of nurses. -/
def Reaches (h : Heap ω) : ω → ω → Prop :=
  Relation.ReflTransGen fun nurse patient => (nurse, patient) ∈ h.keeps

theorem Alive.reaches {h : Heap ω} {root x : ω} (rootAlive : h.Alive root)
    (reaches : h.Reaches root x) : h.Alive x := by
  induction reaches with
  | refl => exact rootAlive
  | tail _ edge inductionHypothesis => exact .kept edge inductionHypothesis

/-- An object lives by a reference to something that keeps it. -/
theorem alive_iff_root {h : Heap ω} {x : ω} :
    h.Alive x ↔ ∃ root, h.Referenced root ∧ h.Reaches root x := by
  constructor
  · intro alive
    induction alive with
    | referenced held => exact ⟨_, held, .refl⟩
    | kept edge _ inductionHypothesis =>
        rcases inductionHypothesis with ⟨root, held, reaches⟩
        exact ⟨root, held, reaches.tail edge⟩
  · rintro ⟨root, held, reaches⟩
    exact Alive.reaches (.referenced held) reaches

/-- The only reference to anything that keeps `x` is one to `root`. -/
def LastRoot (h : Heap ω) (root x : ω) : Prop :=
  h.Reaches root x ∧ h.refs root = 1 ∧
    ∀ other, h.Reaches other x → h.Referenced other → other = root

variable [DecidableEq ω]

/-- One more reference to `x`. -/
def take (h : Heap ω) (x : ω) : Heap ω :=
  { h with refs := Function.update h.refs x (h.refs x + 1) }

/-- One reference less to `x`. -/
def drop (h : Heap ω) (x : ω) : Heap ω :=
  { h with refs := Function.update h.refs x (h.refs x - 1) }

@[simp] theorem referenced_take {h : Heap ω} {x y : ω} :
    (h.take x).Referenced y ↔ y = x ∨ h.Referenced y := by
  unfold Referenced take
  by_cases same : y = x
  · simp [same]
  · simp [same]

/-- What holds of the referenced objects and of `x` still does when `x` is
taken. -/
theorem forall_referenced_take {h : Heap ω} {P : ω → Prop} {x : ω}
    (taken : P x) (referenced : ∀ y, h.Referenced y → P y) :
    ∀ y, (h.take x).Referenced y → P y := by
  intro y held
  rcases referenced_take.mp held with rfl | before
  · exact taken
  · exact referenced y before

@[simp] theorem referenced_drop {h : Heap ω} {x y : ω} :
    (h.drop x).Referenced y ↔
      h.Referenced y ∧ (y = x → 1 < h.refs x) := by
  unfold Referenced drop
  by_cases same : y = x
  · subst same
    simp only [Function.update_self, forall_const]
    omega
  · simp [same]

theorem forall_referenced_drop {h : Heap ω} {P : ω → Prop} {x : ω}
    (referenced : ∀ y, h.Referenced y → P y) :
    ∀ y, (h.drop x).Referenced y → P y := by
  intro y held
  exact referenced y (referenced_drop.mp held).1

theorem Alive.take {h : Heap ω} {x : ω} (alive : h.Alive x) (y : ω) :
    (h.take y).Alive x := by
  apply alive.mono
  · intro z held
    exact referenced_take.mpr (.inr held)
  · intro edge old
    exact old

/-- A destroyed object stays destroyed when a live one is referenced. -/
theorem destroyed_take {h : Heap ω} {x y : ω} (live : h.Alive x)
    (destroyed : ¬ h.Alive y) : ¬ (h.take x).Alive y := by
  intro alive
  apply destroyed
  apply alive.closed
  · intro z held
    rcases referenced_take.mp held with rfl | held
    · exact live
    · exact .referenced held
  · intro nurse patient edge nurseAlive
    exact .kept edge nurseAlive

/-- A destroyed object stays destroyed when a new one is created, which keeps
nothing yet. -/
theorem destroyed_create {h : Heap ω} {x y : ω}
    (keepsNothing : ∀ patient, (x, patient) ∉ h.keeps) (other : y ≠ x)
    (destroyed : ¬ h.Alive y) : ¬ (h.take x).Alive y := by
  intro alive
  have newOrAlive : y = x ∨ h.Alive y := by
    apply alive.closed
    · intro z held
      rcases referenced_take.mp held with same | held
      · exact .inl same
      · exact .inr (.referenced held)
    · intro nurse patient edge nurseAlive
      rcases nurseAlive with rfl | nurseAlive
      · exact absurd edge (keepsNothing patient)
      · exact .inr (.kept edge nurseAlive)
  rcases newOrAlive with same | alive
  · exact other same
  · exact destroyed alive

theorem destroyed_drop {h : Heap ω} {x y : ω}
    (destroyed : ¬ h.Alive y) : ¬ (h.drop x).Alive y := by
  intro alive
  apply destroyed
  apply alive.mono
  · intro z held
    exact (referenced_drop.mp held).1
  · intro edge old
    exact old

/-- Dropping a reference destroys exactly what it was the last one to hold. -/
theorem alive_drop_iff {h : Heap ω} {x y : ω}
    (flat : ∀ nurse, (nurse, x) ∈ h.keeps → ∀ z, (z, nurse) ∉ h.keeps)
    (held : h.Referenced y) :
    (h.drop y).Alive x ↔ h.Alive x ∧ ¬ h.LastHolder y x := by
  rw [alive_iff_holder (h := h.drop y) flat, alive_iff_holder flat]
  constructor
  · rintro ⟨z, holds, heldAfter⟩
    rcases referenced_drop.mp heldAfter with ⟨heldBefore, twice⟩
    refine ⟨⟨z, holds, heldBefore⟩, ?_⟩
    rintro ⟨_, once, only⟩
    have more := twice (only z holds heldBefore)
    rw [once] at more
    exact Nat.lt_irrefl 1 more
  · rintro ⟨⟨z, holds, heldBefore⟩, notLast⟩
    by_contra destroyed
    -- a holder that is still referenced would keep `x` alive
    have lost (w : ω) (holdsW : h.Holds w x) (heldW : h.Referenced w) :
        w = y ∧ h.refs y ≤ 1 := by
      by_contra stillHeld
      apply destroyed
      refine ⟨w, holdsW, referenced_drop.mpr ⟨heldW, ?_⟩⟩
      intro same
      by_contra once
      exact stillHeld ⟨same, Nat.le_of_not_lt once⟩
    rcases lost z holds heldBefore with ⟨rfl, once⟩
    apply notLast
    refine ⟨holds, Nat.le_antisymm once held, ?_⟩
    intro w holdsW heldW
    exact (lost w holdsW heldW).1

/-- Dropping a reference destroys exactly what it was the last root of. -/
theorem alive_drop_iff_root {h : Heap ω} {x y : ω} (held : h.Referenced y) :
    (h.drop y).Alive x ↔ h.Alive x ∧ ¬ h.LastRoot y x := by
  constructor
  · intro aliveAfter
    rcases alive_iff_root.mp aliveAfter with ⟨root, heldAfter, reaches⟩
    rcases referenced_drop.mp heldAfter with ⟨heldBefore, twice⟩
    refine ⟨alive_iff_root.mpr ⟨root, heldBefore, reaches⟩, ?_⟩
    rintro ⟨_, once, only⟩
    have more := twice (only root reaches heldBefore)
    rw [once] at more
    exact Nat.lt_irrefl 1 more
  · rintro ⟨alive, notLast⟩
    rcases alive_iff_root.mp alive with ⟨root, heldRoot, reaches⟩
    by_contra destroyed
    -- a root that is still referenced would keep `x` alive
    have lost (z : ω) (reachesZ : h.Reaches z x) (heldZ : h.Referenced z) :
        z = y ∧ h.refs y ≤ 1 := by
      by_contra stillHeld
      apply destroyed
      refine alive_iff_root.mpr ⟨z, referenced_drop.mpr ⟨heldZ, ?_⟩, reachesZ⟩
      intro same
      by_contra once
      exact stillHeld ⟨same, Nat.le_of_not_lt once⟩
    rcases lost root reaches heldRoot with ⟨rfl, once⟩
    apply notLast
    refine ⟨reaches, Nat.le_antisymm once held, ?_⟩
    intro z reachesZ heldZ
    exact (lost z reachesZ heldZ).1

end Heap

end KeepAlive
