/-
Module: CycFlowPy.Lib.Recent
Purpose: Bounded lists of the most recent different entries, newest first.
Trusted boundary: none
Main exports: recent, push, push_recent, foldl_push_recent, nodup_recent,
  length_recent_le, mem_of_mem_recent
-/
import Mathlib.Data.List.Dedup

namespace Recent

variable {α : Type*} [DecidableEq α]

/-- The last `cap` different ones of the entries, newest first. -/
def recent (cap : Nat) (entries : List α) : List α :=
  entries.dedup.reverse.take cap

/-- `x` moved or put to the front of a list that keeps `cap` entries. -/
def push (cap : Nat) (x : α) (l : List α) : List α :=
  (x :: l.eraseP fun y => y = x).take cap

theorem nodup_recent (cap : Nat) (entries : List α) :
    (recent cap entries).Nodup := by
  apply (List.take_sublist cap _).nodup
  exact List.nodup_reverse.mpr (List.nodup_dedup entries)

theorem length_recent_le (cap : Nat) (entries : List α) :
    (recent cap entries).length ≤ cap :=
  List.length_take_le cap _

theorem mem_of_mem_recent {cap : Nat} {entries : List α} {x : α}
    (member : x ∈ recent cap entries) : x ∈ entries := by
  have different := List.mem_of_mem_take member
  exact List.mem_dedup.mp (List.mem_reverse.mp different)

/-- Only the last occurrence of an entry counts. -/
theorem dedup_concat (entries : List α) (x : α) :
    (entries ++ [x]).dedup =
      (entries.dedup.filter fun y => y ≠ x) ++ [x] := by
  induction entries with
  | nil => rfl
  | cons y entries inductionHypothesis =>
      by_cases later : y ∈ entries
      · rw [List.cons_append, List.dedup_cons_of_mem later,
          List.dedup_cons_of_mem (List.mem_append_left _ later),
          inductionHypothesis]
      · rw [List.dedup_cons_of_notMem later]
        by_cases same : y = x
        · subst same
          rw [List.cons_append, List.dedup_cons_of_mem (by simp),
            inductionHypothesis]
          simp
        · rw [List.cons_append, List.dedup_cons_of_notMem
            (by simp [later, same]), inductionHypothesis]
          simp [same]

/-- An entry that was cut off is not missed when another one is put in front
of the others. -/
theorem take_eraseP_take (l : List α) (x : α) (n : Nat) :
    ((l.take (n + 1)).eraseP fun y => y = x).take n =
      (l.eraseP fun y => y = x).take n := by
  induction l generalizing n with
  | nil => rfl
  | cons y l inductionHypothesis =>
      by_cases same : y = x
      · simp [same, List.take_take]
      · rw [List.take_succ_cons, List.eraseP_cons_of_neg (by simp [same]),
          List.eraseP_cons_of_neg (by simp [same])]
        cases n with
        | zero => rfl
        | succ n =>
            rw [List.take_succ_cons, List.take_succ_cons,
              inductionHypothesis]

/-- Pushing onto the recent entries gives the recent entries of all pushes. -/
theorem push_recent (cap : Nat) (entries : List α) (x : α) :
    push cap x (recent cap entries) = recent cap (entries ++ [x]) := by
  have different : entries.dedup.reverse.Nodup :=
    List.nodup_reverse.mpr (List.nodup_dedup entries)
  have erased : (entries.dedup.reverse.eraseP fun y => y = x) =
      entries.dedup.reverse.filter fun y => y ≠ x := by
    rw [show (entries.dedup.reverse.eraseP fun y => y = x) =
      entries.dedup.reverse.erase x from (List.erase_eq_eraseP' x _).symm,
      different.erase_eq_filter]
    apply List.filter_congr
    intro y _
    by_cases same : y = x
    · simp [same]
    · simp [same]
  have newest : (entries ++ [x]).dedup.reverse =
      x :: entries.dedup.reverse.eraseP fun y => y = x := by
    rw [dedup_concat, List.reverse_append, List.reverse_singleton, erased,
      ← List.filter_reverse]
    rfl
  rw [push, recent, recent, newest]
  cases cap with
  | zero => rfl
  | succ n =>
      rw [List.take_succ_cons, List.take_succ_cons, take_eraseP_take]

/-- Pushing one entry after the other. -/
theorem foldl_push_recent (cap : Nat) (entries more : List α) :
    more.foldl (fun l x => push cap x l) (recent cap entries) =
      recent cap (entries ++ more) := by
  induction more generalizing entries with
  | nil => rw [List.append_nil, List.foldl_nil]
  | cons x more inductionHypothesis =>
      rw [List.foldl_cons, push_recent, inductionHypothesis,
        List.append_assoc]
      rfl

end Recent
