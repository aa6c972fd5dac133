/-
Module: CycFlowPy.Proofs.ChannelHistory
Purpose: A viewer channel is a faithful bounded history: whatever the order of
  appends, resizes and resets, its ring refines the list of the most recent
  values.
Trusted boundary: none
Main exports: Channel.WellFormed, Channel.WellFormed.values_eq, Represents,
  Represents.step, channel_refines_history
-/
import CycFlowPy.Lib.Ring
import CycFlowPy.Model.Channel

namespace CycFlowPy.Viewer

open Runs

variable {α : Type}

/-! ### The ring's own invariant -/

/-- The bounds on the ring's counters; a part-filled ring is filled from
slot 0 on. -/
structure Channel.WellFormed (c : Channel α) : Prop where
  headInRing : c.head < c.buf.length
  storedFits : c.stored ≤ c.buf.length
  storedReceived : c.stored ≤ c.written
  partFilled : c.stored < c.buf.length → c.head = c.stored

/-- Both representations in one: the stored values are the last ones of the
ring read from `head` on. -/
theorem Channel.WellFormed.values_eq {c : Channel α}
    (wellFormed : c.WellFormed) :
    c.values = (c.buf.rotate c.head).rtake c.stored := by
  have headLe := Nat.le_of_lt wellFormed.headInRing
  rw [List.rotate_eq_drop_append_take headLe]
  unfold Channel.values
  split
  · rename_i partFilled
    rw [wellFormed.partFilled partFilled]
    have length : (c.buf.take c.stored).length = c.stored := by
      rw [List.length_take]
      omega
    rw [Ring.rtake_append_right _ (Nat.le_of_eq length.symm),
      Ring.rtake_of_length_le (Nat.le_of_eq length)]
  · symm
    apply Ring.rtake_of_length_le
    rw [List.length_append, List.length_drop, List.length_take]
    omega

theorem Channel.WellFormed.length_values {c : Channel α}
    (wellFormed : c.WellFormed) : c.values.length = c.stored := by
  rw [wellFormed.values_eq, Ring.length_rtake, List.length_rotate]
  exact Nat.min_eq_left wellFormed.storedFits

theorem lastElements_eq (buf : List α) (count : Nat) :
    lastElements buf count = buf.rtake count := rfl

theorem assignSlice_eq {buf data : List α} {lo hi : Nat}
    (length : lo + data.length = hi) (inside : hi ≤ buf.length) :
    assignSlice buf lo hi data = some (buf.take lo ++ data ++ buf.drop hi) :=
  if_pos ⟨length, inside⟩

/-! ### Representation -/

/-- The channel represents the history: same values in the same order, same
capacity, same count of received values. -/
structure Represents (c : Channel α) (h : History α) : Prop where
  wellFormed : c.WellFormed
  values : c.values = h.items
  capacity : c.buf.length = h.capacity
  written : c.written = h.written

theorem Represents.length_items {c : Channel α} {h : History α}
    (represents : Represents c h) : h.items.length = c.stored := by
  rw [← represents.values, represents.wellFormed.length_values]

/-- `view()` shows the history, numbered by the records received. -/
theorem Represents.view {c : Channel α} {h : History α}
    (represents : Represents c h) : c.view = h.view := by
  simp only [Channel.view, History.view, represents.values,
    represents.written, represents.length_items]

theorem represents_fresh (zero : α) {capacity : Nat} (positive : 1 ≤ capacity) :
    Represents (Channel.fresh zero capacity) { capacity := capacity } where
  wellFormed :=
    { headInRing := by
        simp only [Channel.fresh, List.length_replicate]
        exact positive
      storedFits := Nat.zero_le _
      storedReceived := Nat.le_refl _
      partFilled := fun _ => rfl }
  values := by simp [Channel.values, Channel.fresh]
  capacity := by simp [Channel.fresh]
  written := rfl

theorem Represents.reset {c : Channel α} {h : History α}
    (represents : Represents c h) :
    Represents c.reset { h with items := [], written := 0 } where
  wellFormed :=
    { headInRing := Nat.zero_lt_of_lt represents.wellFormed.headInRing
      storedFits := Nat.zero_le _
      storedReceived := Nat.le_refl _
      partFilled := fun _ => rfl }
  values := by
    have nonempty : 0 < c.buf.length :=
      Nat.zero_lt_of_lt represents.wellFormed.headInRing
    simp [Channel.values, Channel.reset, nonempty]
  capacity := represents.capacity
  written := rfl

/-! ### Resizing -/

/-- The buffer of a resized channel: the values that are kept, then the zeros
of the new buffer. -/
def resizedBuf (zero : α) (size : Nat) (existing : List α) : List α :=
  existing.rtake (min existing.length size) ++
    List.replicate (size - min existing.length size) zero

theorem resize_eq {zero : α} {size : Nat} {c : Channel α}
    (different : size ≠ c.buf.length) :
    c.resize zero size = some
      { c with
        buf := resizedBuf zero size c.values
        stored := min c.values.length size
        head := if 0 < size then min c.values.length size % size else 0 } := by
  have length : (c.values.rtake (min c.values.length size)).length =
      min c.values.length size := by
    rw [Ring.length_rtake]
    omega
  unfold Channel.resize
  rw [if_neg different]
  by_cases nonempty : 0 < min c.values.length size
  · have assigned : assignSlice (List.replicate size zero) 0
        (min c.values.length size)
        (lastElements c.values (min c.values.length size)) =
        some (resizedBuf zero size c.values) := by
      rw [lastElements_eq, assignSlice_eq (by omega)
        (by rw [List.length_replicate]; omega)]
      simp [resizedBuf, List.drop_replicate]
    simp [nonempty, assigned]
  · have nothing : min c.values.length size = 0 :=
      Nat.eq_zero_of_not_pos nonempty
    simp [nothing, resizedBuf]

theorem length_resizedBuf (zero : α) (size : Nat) (existing : List α) :
    (resizedBuf zero size existing).length = size := by
  unfold resizedBuf
  rw [List.length_append, Ring.length_rtake, List.length_replicate]
  omega

theorem Represents.resize {zero : α} {c : Channel α} {h : History α}
    (represents : Represents c h) {size : Nat} (positive : 1 ≤ size) :
    ∃ d, c.resize zero size = some d ∧
      Represents d
        { h with items := h.items.rtake size, capacity := size } := by
  have wellFormed := represents.wellFormed
  by_cases different : size = c.buf.length
  · refine ⟨c, if_pos different, wellFormed, ?_, different.symm,
      represents.written⟩
    have fits : h.items.length ≤ size := by
      rw [represents.length_items, different]
      exact wellFormed.storedFits
    rw [represents.values, Ring.rtake_of_length_le fits]
  · refine ⟨_, resize_eq different, ?_⟩
    have stored := wellFormed.length_values
    have received := wellFormed.storedReceived
    have length := length_resizedBuf zero size c.values
    have resized : Channel.WellFormed
        { c with
          buf := resizedBuf zero size c.values
          stored := min c.values.length size
          head :=
            if 0 < size then min c.values.length size % size else 0 } := by
      refine ⟨?_, ?_, ?_, ?_⟩
      · simp only [length, if_pos (Nat.lt_of_lt_of_le Nat.one_pos positive)]
        exact Nat.mod_lt _ positive
      · simp only [length]
        exact Nat.min_le_right _ _
      · simp only
        omega
      · intro partFilled
        simp only [length] at partFilled
        simp only [if_pos (Nat.lt_of_lt_of_le Nat.one_pos positive)]
        exact Nat.mod_eq_of_lt partFilled
    refine ⟨resized, ?_, length, represents.written⟩
    -- the kept values are the last ones of the new ring in either case
    have kept : (c.values.rtake (min c.values.length size)).length =
        min c.values.length size := by
      rw [Ring.length_rtake]
      omega
    have window : c.values.rtake (min c.values.length size) =
        c.values.rtake size := by
      by_cases short : c.values.length ≤ size
      · rw [Nat.min_eq_left short, Ring.rtake_of_length_le (Nat.le_refl _),
          Ring.rtake_of_length_le short]
      · rw [Nat.min_eq_right (Nat.le_of_not_le short)]
    rw [resized.values_eq, ← represents.values, ← window]
    simp only [if_pos (Nat.lt_of_lt_of_le Nat.one_pos positive)]
    rcases Nat.lt_or_ge (min c.values.length size) size with part | full
    · -- part-filled: the zeros stand before the kept values
      rw [Nat.mod_eq_of_lt part, resizedBuf]
      conv_lhs =>
        arg 1
        arg 2
        rw [← kept]
      rw [List.rotate_append_length_eq,
        Ring.rtake_append_right _ (Nat.le_of_eq kept.symm),
        Ring.rtake_of_length_le (Nat.le_of_eq kept)]
    · -- full: there are no zeros left
      have all : min c.values.length size = size :=
        Nat.le_antisymm (Nat.min_le_right _ _) full
      rw [all, Nat.mod_self, List.rotate_zero, resizedBuf, all, Nat.sub_self]
      rw [all] at kept
      simp only [List.replicate_zero, List.append_nil]
      exact Ring.rtake_of_length_le (Nat.le_of_eq kept)

/-! ### Appending -/

/-- The two assignments of a block shorter than the ring write it with
wrap-around. -/
theorem append_short_eq {c : Channel α} {data : List α}
    (inRing : c.head < c.buf.length) (nonempty : data.length ≠ 0)
    (short : data.length < c.buf.length) :
    c.append data = some
      { c with
        buf := Ring.overwrite c.buf c.head data
        head := (c.head + data.length) % c.buf.length
        stored := min (c.stored + data.length) c.buf.length
        written := c.written + data.length } := by
  unfold Channel.append
  simp only [if_neg nonempty, if_neg (Nat.not_le_of_lt short)]
  by_cases inside : c.head + data.length ≤ c.buf.length
  · rw [if_pos inside, assignSlice_eq rfl inside, Ring.overwrite,
      if_pos inside]
    rfl
  · rw [if_neg inside]
    have first : c.head + (data.take (c.buf.length - c.head)).length =
        c.buf.length := by
      rw [List.length_take]
      omega
    rw [assignSlice_eq first (Nat.le_refl _), Option.bind_eq_bind,
      Option.bind_some, List.drop_length, List.append_nil]
    have second : 0 + (data.drop (c.buf.length - c.head)).length =
        data.length - (c.buf.length - c.head) := by
      rw [List.length_drop, Nat.zero_add]
    have room : data.length - (c.buf.length - c.head) ≤
        (c.buf.take c.head ++
          data.take (c.buf.length - c.head)).length := by
      rw [List.length_append, List.length_take, List.length_take]
      omega
    rw [assignSlice_eq second room, Ring.overwrite, if_neg inside]
    rfl

theorem append_long_eq {c : Channel α} {data : List α}
    (nonempty : data.length ≠ 0) (long : c.buf.length ≤ data.length) :
    c.append data = some
      { c with
        buf := data.rtake c.buf.length
        head := 0
        stored := c.buf.length
        written := c.written + data.length } := by
  have length : 0 + (lastElements data c.buf.length).length =
      c.buf.length := by
    rw [lastElements_eq, Ring.length_rtake]
    omega
  unfold Channel.append
  simp only [if_neg nonempty, if_pos long]
  rw [assignSlice_eq length (Nat.le_refl _)]
  simp [lastElements_eq]

theorem Represents.append_short {c : Channel α} {h : History α}
    (represents : Represents c h) {data : List α}
    (short : data.length < c.buf.length) :
    Represents
      { c with
        buf := Ring.overwrite c.buf c.head data
        head := (c.head + data.length) % c.buf.length
        stored := min (c.stored + data.length) c.buf.length
        written := c.written + data.length }
      { h with
        items := (h.items ++ data).rtake h.capacity
        written := h.written + data.length } := by
  have wellFormed := represents.wellFormed
  have headInRing := wellFormed.headInRing
  have storedFits := wellFormed.storedFits
  have storedReceived := wellFormed.storedReceived
  have length := Ring.length_overwrite headInRing short
  have grown : Channel.WellFormed
      { c with
        buf := Ring.overwrite c.buf c.head data
        head := (c.head + data.length) % c.buf.length
        stored := min (c.stored + data.length) c.buf.length
        written := c.written + data.length } := by
    refine ⟨?_, ?_, ?_, ?_⟩
    · simp only [length]
      exact Nat.mod_lt _ (Nat.zero_lt_of_lt headInRing)
    · simp only [length]
      exact Nat.min_le_right _ _
    · simp only
      omega
    · intro partFilled
      simp only [length] at partFilled ⊢
      have headStored := wellFormed.partFilled (by omega)
      rw [headStored, Nat.mod_eq_of_lt (by omega)]
      omega
  refine ⟨grown, ?_, length.trans represents.capacity, ?_⟩
  · rw [grown.values_eq, ← represents.values, wellFormed.values_eq,
      ← represents.capacity]
    simp only
    rw [Ring.rotate_overwrite headInRing short]
    have ring := List.length_rotate c.buf c.head
    have received : c.stored ≤ (c.buf.rotate c.head).length := by
      omega
    have fits : data.length ≤ (c.buf.rotate c.head).length := by
      omega
    have window := Ring.window_append received fits
    rwa [ring] at window
  · simp only [represents.written]

theorem Represents.append_long {c : Channel α} {h : History α}
    (represents : Represents c h) {data : List α}
    (long : c.buf.length ≤ data.length) :
    Represents
      { c with
        buf := data.rtake c.buf.length
        head := 0
        stored := c.buf.length
        written := c.written + data.length }
      { h with
        items := (h.items ++ data).rtake h.capacity
        written := h.written + data.length } := by
  have headInRing := represents.wellFormed.headInRing
  have length : (data.rtake c.buf.length).length = c.buf.length := by
    rw [Ring.length_rtake]
    omega
  refine ⟨⟨?_, ?_, ?_, ?_⟩, ?_, ?_, ?_⟩
  · simp only [length]
    exact Nat.zero_lt_of_lt headInRing
  · simp only [length]
    exact Nat.le_refl _
  · simp only
    omega
  · intro partFilled
    simp only [length] at partFilled
    omega
  · rw [← represents.capacity, Ring.rtake_append_right _ long]
    simp [Channel.values, length]
  · exact length.trans represents.capacity
  · simp only [represents.written]

theorem Represents.append {c : Channel α} {h : History α}
    (represents : Represents c h) (data : List α) :
    ∃ d, c.append data = some d ∧
      Represents d
        { h with
          items := (h.items ++ data).rtake h.capacity
          written := h.written + data.length } := by
  by_cases nonempty : data.length = 0
  · refine ⟨c, if_pos nonempty, represents.wellFormed, ?_,
      represents.capacity, ?_⟩
    · have fits : h.items.length ≤ h.capacity := by
        rw [represents.length_items, ← represents.capacity]
        exact represents.wellFormed.storedFits
      rw [List.eq_nil_of_length_eq_zero nonempty, List.append_nil,
        Ring.rtake_of_length_le fits]
      exact represents.values
    · simp only [nonempty, Nat.add_zero]
      exact represents.written
  · rcases Nat.lt_or_ge data.length c.buf.length with short | long
    · exact ⟨_, append_short_eq represents.wellFormed.headInRing nonempty
        short, represents.append_short short⟩
    · exact ⟨_, append_long_eq nonempty long, represents.append_long long⟩

/-! ### Whole runs -/

/-- Every valid operation of a channel succeeds and is the same operation on
the history it represents. -/
theorem Represents.step (zero : α) {c : Channel α} {h : History α}
    (represents : Represents c h) {op : ChannelOp α} (valid : op.Valid) :
    ∃ d, c.step zero op = some d ∧ Represents d (h.step op) := by
  cases op with
  | append data => exact represents.append data
  | resize size => exact represents.resize valid
  | reset => exact ⟨_, rfl, represents.reset⟩

theorem Represents.run (zero : α) {c : Channel α} {h : History α}
    (represents : Represents c h) {ops : List (ChannelOp α)}
    (valid : ∀ op ∈ ops, op.Valid) :
    ∃ d, Run (Channel.step zero) c ops d ∧
      Represents d (ops.foldl History.step h) := by
  induction ops generalizing c h with
  | nil => exact ⟨c, Run.nil_iff.mpr rfl, represents⟩
  | cons op rest inductionHypothesis =>
      rcases represents.step zero (valid op (List.mem_cons_self))
        with ⟨middle, next, stepped⟩
      rcases inductionHypothesis stepped
          (fun other member => valid other (List.mem_cons_of_mem op member))
        with ⟨d, tail, final⟩
      exact ⟨d, Run.cons_iff.mpr ⟨middle, next, tail⟩, final⟩

/-- A channel of any initial capacity refines the bounded history: every
sequence of appends, resizes and resets runs through, and afterwards `view()`
shows the history and the counters are within their bounds. -/
theorem channel_refines_history (zero : α) {capacity : Nat}
    (positive : 1 ≤ capacity) {ops : List (ChannelOp α)}
    (valid : ∀ op ∈ ops, op.Valid) :
    ∃ c, Run (Channel.step zero) (Channel.fresh zero capacity) ops c ∧
      c.view =
        (ops.foldl History.step { capacity := capacity }).view ∧
      c.buf.length =
        (ops.foldl History.step { capacity := capacity }).capacity ∧
      c.written =
        (ops.foldl History.step { capacity := capacity }).written ∧
      c.stored ≤ c.buf.length ∧ c.head < c.buf.length ∧
      c.stored ≤ c.written := by
  rcases (represents_fresh zero positive).run zero valid with
    ⟨c, run, represents⟩
  exact ⟨c, run, represents.view, represents.capacity, represents.written,
    represents.wellFormed.storedFits, represents.wellFormed.headInRing,
    represents.wellFormed.storedReceived⟩

/-- A long block into an empty ring of three, a block that wraps around, a
shrinking resize of the full ring and another block. -/
theorem channel_refines_history_shrunk :
    ∃ c, Run (Channel.step 0) (Channel.fresh 0 3)
        [.append [1, 2, 3, 4], .append [5], .resize 2, .append [6]] c ∧
      c.view = ([4, 5], [5, 6]) := by
  have valid : ∀ op ∈ ([.append [1, 2, 3, 4], .append [5], .resize 2,
      .append [6]] : List (ChannelOp Nat)), op.Valid := by
    simp [ChannelOp.Valid]
  rcases channel_refines_history 0 (show 1 ≤ 3 by decide) valid with
    ⟨c, run, view, _⟩
  exact ⟨c, run, view.trans (by decide)⟩

end CycFlowPy.Viewer
