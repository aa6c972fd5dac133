/-
Module: CycFlowPy.Lib.Ring
Purpose: Lists used as rings: writing a block from a slot on with wrap-around,
  read back from the slot after the block, and the last elements of a list.
Trusted boundary: none
Main exports: rtake_of_length_le, rtake_append_left, rtake_append_right,
  rtake_rtake, map_rtake, rtake_rtake_append, window_append, overwrite,
  rotate_overwrite, lateWindow, length_lateWindow, drop_prefix_lateWindow,
  lateWindow_of_full, lateWindow_of_fits, lateWindow_ne_rtake
-/
import Mathlib.Data.List.DropRight
import Mathlib.Data.List.Rotate

namespace Ring

variable {α : Type*}

/-! ### The last elements of a list -/

theorem length_rtake (l : List α) (n : Nat) :
    (l.rtake n).length = min n l.length := by
  rw [List.rtake, List.length_drop]
  omega

theorem rtake_of_length_le {l : List α} {n : Nat} (bound : l.length ≤ n) :
    l.rtake n = l := by
  rw [List.rtake, Nat.sub_eq_zero_of_le bound, List.drop_zero]

/-- A window no longer than the right part does not see the left part. -/
theorem rtake_append_right (first : List α) {second : List α} {n : Nat}
    (bound : n ≤ second.length) :
    (first ++ second).rtake n = second.rtake n := by
  rw [List.rtake, List.rtake, List.length_append, List.drop_append]
  rw [List.drop_eq_nil_of_le (by omega), List.nil_append]
  congr 1
  omega

/-- A window longer than the right part sees the end of the left part. -/
theorem rtake_append_left (first second : List α) (n : Nat) :
    (first ++ second).rtake (n + second.length) =
      first.rtake n ++ second := by
  rw [List.rtake, List.rtake, List.length_append, Nat.add_sub_add_right]
  exact List.drop_append_of_le_length (Nat.sub_le _ _)

theorem rtake_rtake (l : List α) (n m : Nat) :
    (l.rtake n).rtake m = l.rtake (min m n) := by
  rw [List.rtake, length_rtake, List.rtake, List.rtake, List.drop_drop]
  congr 1
  omega

theorem map_rtake {β : Type*} (f : α → β) (l : List α) (n : Nat) :
    (l.rtake n).map f = (l.map f).rtake n := by
  rw [List.rtake, List.rtake, List.map_drop, List.length_map]

/-- The last elements of a list whose older part was cut before. -/
theorem rtake_rtake_append (l data : List α) (n m : Nat) :
    (l.rtake n ++ data).rtake m =
      (l ++ data).rtake (min m (n + data.length)) := by
  rw [← rtake_append_left, rtake_rtake]

/-- Sliding a window of `n` elements over a ring that drops its oldest
elements for `data`: the window grows with the data until it is the ring. -/
theorem window_append {ring data : List α} {n : Nat} (inRing : n ≤ ring.length)
    (fits : data.length ≤ ring.length) :
    (ring.drop data.length ++ data).rtake
        (min (n + data.length) ring.length) =
      (ring.rtake n ++ data).rtake ring.length := by
  by_cases grows : n + data.length ≤ ring.length
  · have whole : (ring.rtake n ++ data).length ≤ ring.length := by
      rw [List.length_append, length_rtake]
      omega
    have newest : n ≤ (ring.drop data.length).length := by
      rw [List.length_drop]
      omega
    rw [Nat.min_eq_left grows, rtake_of_length_le whole, rtake_append_left,
      ← rtake_append_right (ring.take data.length) newest,
      List.take_append_drop]
  · have full : ring.length ≤ n + data.length := Nat.le_of_not_le grows
    have whole : (ring.drop data.length ++ data).length ≤ ring.length := by
      rw [List.length_append, List.length_drop]
      omega
    have split : ring.length = ring.length - data.length + data.length :=
      (Nat.sub_add_cancel fits).symm
    rw [Nat.min_eq_right full, rtake_of_length_le whole]
    conv_rhs => rw [split, rtake_append_left, rtake_rtake]
    rw [Nat.min_eq_left (by omega), List.rtake, Nat.sub_sub_self fits]

/-! ### Writing with wrap-around -/

/-- Write `data` into the slots from `head` on and continue at slot 0 after
the last slot. -/
def overwrite (buf : List α) (head : Nat) (data : List α) : List α :=
  if head + data.length ≤ buf.length then
    buf.take head ++ data ++ buf.drop (head + data.length)
  else
    data.drop (buf.length - head) ++
      (buf.take head ++ data.take (buf.length - head)).drop
        (data.length - (buf.length - head))

theorem length_overwrite {buf data : List α} {head : Nat}
    (inRing : head < buf.length) (fits : data.length < buf.length) :
    (overwrite buf head data).length = buf.length := by
  unfold overwrite
  split
  · simp only [List.length_append, List.length_take, List.length_drop]
    omega
  · simp only [List.length_append, List.length_take, List.length_drop]
    omega

/-- The ring read from the slot after the block: the elements that were not
overwritten, oldest first, then the block. -/
theorem rotate_overwrite {buf data : List α} {head : Nat}
    (inRing : head < buf.length) (fits : data.length < buf.length) :
    (overwrite buf head data).rotate ((head + data.length) % buf.length) =
      (buf.rotate head).drop data.length ++ data := by
  have length := length_overwrite inRing fits
  have next : (head + data.length) % buf.length ≤
      (overwrite buf head data).length := by
    rw [length]
    exact Nat.le_of_lt (Nat.mod_lt _ (by omega))
  rw [List.rotate_eq_drop_append_take next,
    List.rotate_eq_drop_append_take (Nat.le_of_lt inRing)]
  rcases Nat.lt_trichotomy (head + data.length) buf.length with
    inside | atEnd | wraps
  · -- the block ends before the last slot
    rw [Nat.mod_eq_of_lt inside, overwrite, if_pos (Nat.le_of_lt inside)]
    have before : (buf.take head ++ data).length = head + data.length := by
      simp only [List.length_append, List.length_take]
      omega
    rw [← before, List.drop_left, List.take_left, before]
    have keep : data.length ≤ (buf.drop head).length := by
      rw [List.length_drop]
      omega
    rw [List.drop_append_of_le_length keep, List.drop_drop, List.append_assoc]
  · -- the block ends at the last slot
    rw [atEnd, Nat.mod_self, overwrite, if_pos (Nat.le_of_eq atEnd)]
    have gone : (buf.drop head).length = data.length := by
      rw [List.length_drop]
      omega
    rw [List.drop_zero, List.take_zero, List.append_nil, atEnd,
      List.drop_length, List.append_nil, ← gone, List.drop_left]
  · -- the block continues at slot 0
    have first : (head + data.length) % buf.length =
        data.length - (buf.length - head) := by
      rw [Nat.mod_eq_sub_mod (Nat.le_of_lt wraps), Nat.mod_eq_of_lt (by omega)]
      omega
    rw [first, overwrite, if_neg (Nat.not_le_of_lt wraps)]
    have wrapped : (data.drop (buf.length - head)).length =
        data.length - (buf.length - head) := List.length_drop
    have overwritten : (buf.drop head).length ≤ data.length := by
      rw [List.length_drop]
      omega
    have kept : data.length - (buf.length - head) ≤ (buf.take head).length := by
      rw [List.length_take]
      omega
    rw [← wrapped, List.drop_left, List.take_left, wrapped,
      List.drop_append_of_le_length kept, List.append_assoc,
      List.take_append_drop, List.drop_append,
      List.drop_eq_nil_of_le overwritten, List.nil_append, List.length_drop]

/-! ### A window whose length was taken earlier

The last `n` elements of a list are asked for in two steps: how many there are
of `early`, and then as many of `late`, to which the list has grown.
-/

/-- As many of the last `n` elements of `late`, from the oldest on, as `early`
has. -/
def lateWindow (n : Nat) (early late : List α) : List α :=
  (late.rtake n).take (early.rtake n).length

theorem length_lateWindow {early late : List α} {n : Nat}
    (grown : early <+: late) :
    (lateWindow n early late).length = min n early.length := by
  have longer := grown.length_le
  rw [lateWindow, List.length_take, length_rtake, length_rtake]
  omega

/-- What is early and still among the last elements later is in the window. -/
theorem drop_prefix_lateWindow {early late : List α} {n : Nat}
    (grown : early <+: late) :
    early.drop (late.length - n) <+: lateWindow n early late := by
  have longer := grown.length_le
  have part : early = late.take early.length :=
    List.prefix_iff_eq_take.mp grown
  have both : early.drop (late.length - n) =
      (late.drop (late.length - n)).take
        (early.length - (late.length - n)) := by
    rw [← List.drop_take, ← part]
  rw [both, lateWindow, length_rtake, List.rtake]
  apply List.take_prefix_take_left
  omega

/-- The window of a full list is that of the later one. -/
theorem lateWindow_of_full {early late : List α} {n : Nat}
    (full : n ≤ early.length) : lateWindow n early late = late.rtake n := by
  rw [lateWindow, length_rtake, Nat.min_eq_left full]
  apply List.take_of_length_le
  rw [length_rtake]
  exact Nat.min_le_left n late.length

/-- The window of a list that loses nothing is that of the earlier one. -/
theorem lateWindow_of_fits {early late : List α} {n : Nat}
    (grown : early <+: late) (fits : late.length ≤ n) :
    lateWindow n early late = early.rtake n := by
  have earlyFits := Nat.le_trans grown.length_le fits
  rw [lateWindow, rtake_of_length_le fits, rtake_of_length_le earlyFits]
  exact (List.prefix_iff_eq_take.mp grown).symm

/-- Of a list of different elements that was neither empty nor full and then
lost some, the window was never the last elements. -/
theorem lateWindow_ne_rtake {early middle late : List α} {n : Nat}
    (grown : early <+: middle) (grows : middle <+: late)
    (different : late.Nodup) (nonempty : early ≠ [])
    (notFull : early.length < n) (loses : n < late.length) :
    lateWindow n early late ≠ middle.rtake n := by
  intro same
  have lengths := congrArg List.length same
  rw [length_lateWindow (grown.trans grows), length_rtake,
    Nat.min_eq_right (Nat.le_of_lt notFull)] at lengths
  have unchanged : early = middle :=
    grown.eq_of_length (by omega)
  subst unchanged
  rw [rtake_of_length_le (Nat.le_of_lt notFull)] at same
  -- the first element of the window is one that `late` has later
  have positive := List.length_pos_iff.mpr nonempty
  have first := congrArg (·[0]?) same
  have inLate : early[0]? = late[0]? := by
    rw [List.prefix_iff_eq_take.mp grows, List.getElem?_take_of_lt positive]
  rw [lateWindow, length_rtake, List.getElem?_take_of_lt (by omega),
    List.rtake, List.getElem?_drop, inLate, Nat.add_zero] at first
  have position := (List.getElem?_inj (by omega) different).mp first
  omega

end Ring
