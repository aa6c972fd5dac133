/-
Module: CycFlowPy.Lib.Slices
Purpose: Slices of a list, overwriting a part of a list, and lists that are
  read as records of one width.
Trusted boundary: none
Main exports: slice, patch, slice_patch_self, slice_patch_of_disjoint,
  slice_slice, append_next_of_prefix, forall₂_flatMap, records,
  flatMap_records, records_flatten, rows_disjoint
-/
import Mathlib.Algebra.GroupWithZero.Nat
import Mathlib.Data.List.Forall2

namespace Slices

variable {α : Type*}

/-- The `count` elements from position `start` on. -/
def slice (l : List α) (start count : Nat) : List α :=
  (l.drop start).take count

/-- `l` with `data` written over it from position `start` on. -/
def patch (l : List α) (start : Nat) (data : List α) : List α :=
  l.take start ++ data ++ l.drop (start + data.length)

theorem getElem?_slice (l : List α) (start count i : Nat) :
    (slice l start count)[i]? = if i < count then l[start + i]? else none := by
  unfold slice
  by_cases inside : i < count
  · rw [if_pos inside, List.getElem?_take_of_lt inside, List.getElem?_drop]
  · rw [if_neg inside]
    apply List.getElem?_eq_none
    rw [List.length_take]
    omega

theorem length_slice {l : List α} {start count : Nat}
    (fits : start + count ≤ l.length) :
    (slice l start count).length = count := by
  unfold slice
  rw [List.length_take, List.length_drop]
  omega

theorem length_patch {l data : List α} {start : Nat}
    (fits : start + data.length ≤ l.length) :
    (patch l start data).length = l.length := by
  simp only [patch, List.length_append, List.length_take, List.length_drop]
  omega

theorem getElem?_patch {l data : List α} {start : Nat}
    (fits : start + data.length ≤ l.length) (i : Nat) :
    (patch l start data)[i]? =
      if start ≤ i ∧ i < start + data.length then data[i - start]?
      else l[i]? := by
  have front : (l.take start).length = start := by
    rw [List.length_take]
    omega
  unfold patch
  rcases Nat.lt_or_ge i start with before | after
  · rw [if_neg (by omega), List.append_assoc,
      List.getElem?_append_left (by omega), List.getElem?_take_of_lt before]
  · rcases Nat.lt_or_ge i (start + data.length) with inside | behind
    · rw [if_pos ⟨after, inside⟩, List.append_assoc,
        List.getElem?_append_right (by omega), front,
        List.getElem?_append_left (by omega)]
    · rw [if_neg (by omega), List.getElem?_append_right
        (by rw [List.length_append, front]; exact behind),
        List.length_append, front, List.getElem?_drop,
        Nat.add_sub_of_le behind]

theorem slice_patch_self {l data : List α} {start : Nat}
    (fits : start + data.length ≤ l.length) :
    slice (patch l start data) start data.length = data := by
  apply List.ext_getElem?
  intro i
  rw [getElem?_slice, getElem?_patch fits]
  by_cases inside : i < data.length
  · rw [if_pos inside, if_pos (by omega), Nat.add_sub_cancel_left]
  · rw [if_neg inside, List.getElem?_eq_none (Nat.le_of_not_lt inside)]

theorem patch_all {l data : List α} (length : data.length = l.length) :
    patch l 0 data = data := by
  simp [patch, length]

/-- A slice does not see what is written outside of it. -/
theorem slice_patch_of_disjoint {l data : List α} {start first count : Nat}
    (fits : start + data.length ≤ l.length)
    (disjoint : first + count ≤ start ∨ start + data.length ≤ first) :
    slice (patch l start data) first count = slice l first count := by
  apply List.ext_getElem?
  intro i
  rw [getElem?_slice, getElem?_slice]
  by_cases inside : i < count
  · rw [if_pos inside, if_pos inside, getElem?_patch fits, if_neg (by omega)]
  · rw [if_neg inside, if_neg inside]

theorem slice_slice {l : List α} {start count first inner : Nat}
    (within : first + inner ≤ count) :
    slice (slice l start count) first inner =
      slice l (start + first) inner := by
  apply List.ext_getElem?
  intro i
  rw [getElem?_slice, getElem?_slice, getElem?_slice]
  by_cases inside : i < inner
  · rw [if_pos inside, if_pos inside, if_pos (by omega), Nat.add_assoc]
  · rw [if_neg inside, if_neg inside]

theorem slice_append_left {l r : List α} {start count : Nat}
    (within : start + count ≤ l.length) :
    slice (l ++ r) start count = slice l start count := by
  apply List.ext_getElem?
  intro i
  rw [getElem?_slice, getElem?_slice]
  by_cases inside : i < count
  · rw [if_pos inside, if_pos inside, List.getElem?_append_left (by omega)]
  · rw [if_neg inside, if_neg inside]

theorem slice_append_right (l r : List α) (start count : Nat) :
    slice (l ++ r) (l.length + start) count = slice r start count := by
  unfold slice
  rw [← List.drop_drop, List.drop_left]

theorem slice_take {l : List α} {start count bound : Nat}
    (within : start + count ≤ bound) :
    slice (l.take bound) start count = slice l start count := by
  apply List.ext_getElem?
  intro i
  rw [getElem?_slice, getElem?_slice]
  by_cases inside : i < count
  · rw [if_pos inside, if_pos inside, List.getElem?_take_of_lt (by omega)]
  · rw [if_neg inside, if_neg inside]

/-- The elements that follow a prefix, put behind it, make a longer prefix. -/
theorem append_next_of_prefix {part whole : List α} (inOrder : part <+: whole)
    (count : Nat) :
    part ++ (whole.drop part.length).take count =
      whole.take (part.length + count) := by
  obtain ⟨rest, rfl⟩ := inOrder
  rw [List.drop_left, List.take_length_add_append]

/-- What holds of the elements of two lists by their positions holds of the
elements of the lists put together. -/
theorem getElem?_append_forall {l r : List α} {P : Nat → α → Prop}
    (left : ∀ i x, l[i]? = some x → P i x)
    (right : ∀ i x, r[i]? = some x → P (l.length + i) x) :
    ∀ i x, (l ++ r)[i]? = some x → P i x := by
  intro i x found
  rcases Nat.lt_or_ge i l.length with before | after
  · rw [List.getElem?_append_left before] at found
    exact left i x found
  · rw [List.getElem?_append_right after] at found
    have holds := right (i - l.length) x found
    rwa [Nat.add_sub_of_le after] at holds

/-- The pieces of two lists are related one by one. -/
theorem forall₂_flatMap {β γ : Type*} {R : β → γ → Prop} {parts : List α}
    {left : α → List β} {right : α → List γ}
    (each : ∀ part ∈ parts, List.Forall₂ R (left part) (right part)) :
    List.Forall₂ R (parts.flatMap left) (parts.flatMap right) := by
  induction parts with
  | nil => exact .nil
  | cons part parts inductionHypothesis =>
      rw [List.flatMap_cons, List.flatMap_cons]
      apply List.rel_append (each part List.mem_cons_self)
      apply inductionHypothesis
      intro other member
      exact each other (List.mem_cons_of_mem part member)

/-! ### Records of one width -/

/-- The first `count` records of a list that holds one record of `width`
elements after the other. -/
def records (l : List α) (width count : Nat) : List (List α) :=
  (List.range count).map fun row => slice l (row * width) width

@[simp] theorem length_records (l : List α) (width count : Nat) :
    (records l width count).length = count := by
  simp [records]

theorem getElem?_records {l : List α} {width count row : Nat}
    (inside : row < count) :
    (records l width count)[row]? = some (slice l (row * width) width) := by
  simp [records, inside]

theorem row_fits {row count width : Nat} (inside : row < count) :
    row * width + width ≤ count * width := by
  rw [← Nat.succ_mul]
  exact Nat.mul_le_mul_right width inside

theorem records_append {l r : List α} {width first second : Nat}
    (length : l.length = first * width) :
    records (l ++ r) width (first + second) =
      records l width first ++ records r width second := by
  unfold records
  rw [List.range_add, List.map_append, List.map_map]
  congr 1
  · apply List.map_congr_left
    intro row inside
    apply slice_append_left
    rw [length]
    exact row_fits (List.mem_range.mp inside)
  · apply List.map_congr_left
    intro row _
    rw [Function.comp_apply, Nat.add_mul, ← length, slice_append_right]

theorem records_take {l : List α} {width count : Nat} :
    records (l.take (count * width)) width count = records l width count := by
  apply List.map_congr_left
  intro row inside
  exact slice_take (row_fits (List.mem_range.mp inside))

/-- The records of several parts, one part after the other, are the records of
the parts put together. -/
theorem flatMap_records {β : Type*} {width : Nat} {parts : List β}
    {data : β → List α} {count : β → Nat}
    (sized : ∀ part ∈ parts, (data part).length = count part * width) :
    (parts.flatMap fun part => records (data part) width (count part)) =
      records (parts.flatMap data) width (parts.map count).sum := by
  induction parts with
  | nil => rfl
  | cons part rest inductionHypothesis =>
      have length := sized part List.mem_cons_self
      rw [List.flatMap_cons, List.flatMap_cons, List.map_cons, List.sum_cons,
        records_append length, inductionHypothesis]
      intro other member
      exact sized other (List.mem_cons_of_mem part member)

/-- Records put one after the other are read back as these records. -/
theorem records_flatten {width : Nat} {rows : List (List α)}
    (sized : ∀ row ∈ rows, row.length = width) :
    records rows.flatten width rows.length = rows := by
  induction rows with
  | nil => rfl
  | cons row rest inductionHypothesis =>
      rw [List.forall_mem_cons] at sized
      have length : row.length = 1 * width := by
        rw [Nat.one_mul, sized.1]
      have first : records row width 1 = [row] := by
        simp [records, slice, ← sized.1]
      rw [List.flatten_cons, List.length_cons, Nat.add_comm,
        records_append length, first, inductionHypothesis sized.2]
      rfl

/-- Parts of two different records do not overlap. -/
theorem rows_disjoint {row row' width first first' count count' : Nat}
    (other : row ≠ row') (inside : first + count ≤ width)
    (inside' : first' + count' ≤ width) :
    row * width + first + count ≤ row' * width + first' ∨
      row' * width + first' + count' ≤ row * width + first := by
  rcases Nat.lt_or_gt_of_ne other with before | after
  · have fits : row * width + width ≤ row' * width := row_fits before
    left
    omega
  · have fits : row' * width + width ≤ row * width := row_fits after
    right
    omega

end Slices
