/-
Module: CycFlowPy.Proofs.StreamCopy
Purpose: For which consumers of `stream()` the views of `copy=False` show what
  the arrays of `copy=True` hold.
Trusted boundary: none
Main exports: RecRule.LaidOut.element_slice, RecRule.read_eq_none,
  arrayReads, viewReads, Epochs, viewReads_eq, Epochs.current,
  prompt_of_viewReads, views_agree_iff
-/
import CycFlowPy.Model.StreamCopy
import CycFlowPy.Proofs.RecordPaths

namespace CycFlowPy.Numpy

open Slices

variable {types : CycTypes} {rule : RecRule}

/-! ### One element -/

/-- Where the element stands in the memory of the batch, whatever the memory
holds. -/
theorem RecRule.LaidOut.element_slice (laidOut : rule.LaidOut types)
    (positive : ∀ attr ∈ rule.attributes, 1 ≤ attr.count)
    {batch : RecordBatch} {row element : Nat} {name : String}
    (has : rule.HasElement batch row name element) :
    ∃ start width, 0 < width ∧
      start + width ≤ batch.count * rule.recSize ∧
      ∀ data, (rule.view data batch.count).read row name element =
        some (slice data start width) := by
  rcases has with ⟨inRows, attr, member, mappable, rfl, inside⟩
  have mapped : attr ∈ rule.mapped :=
    RecRule.mem_mapped.mpr ⟨member, mappable⟩
  have within := laidOut.element_inside member inside
  have rows : row * rule.recSize + rule.recSize ≤
      batch.count * rule.recSize := row_fits inRows
  refine ⟨row * rule.recSize + attr.elementOffset types element,
    types.getTypeSize attr.type, ?_, ?_, ?_⟩
  · rw [← itemSize_formatOf mappable]
    exact NumpyFormat.itemSize_pos _
  · omega
  · intro data
    exact laidOut.view_read positive mapped inside data inRows

/-- An element that is not there is not read, whatever the memory holds. -/
theorem RecRule.read_eq_none
    (positive : ∀ attr ∈ rule.attributes, 1 ≤ attr.count)
    {batch : RecordBatch} {row element : Nat} {name : String}
    (hasNot : ¬ rule.HasElement batch row name element) (data : List UInt8) :
    (rule.view data batch.count).read row name element = none := by
  unfold StructuredArray.read StructuredArray.record
  by_cases inRows : row < (rule.view data batch.count).count
  · rw [if_pos inRows]
    simp only [Option.bind_eq_bind, Option.bind_some, Dtype.read]
    cases found : (rule.view data batch.count).dtype.field? name with
    | none => rfl
    | some field =>
        have inFields := List.mem_of_find?_eq_some found
        have named := List.find?_some found
        rw [decide_eq_true_eq] at named
        rcases List.mem_map.mp inFields with ⟨attr, mapped, rfl⟩
        rcases RecRule.mem_mapped.mp mapped with ⟨member, mappable⟩
        have outside : ¬ element < attr.field.count := by
          rw [PAttr.field_count (positive attr member)]
          intro inside
          exact hasNot ⟨inRows, attr, member, mappable, named, inside⟩
        simp only [Option.bind_some, if_neg outside]
  · rw [if_neg inRows]
    rfl

/-! ### The reads of the two modes -/

/-- The batch as an array. -/
def RecRule.array (rule : RecRule) (batch : RecordBatch) : StructuredArray :=
  rule.view batch.data batch.count

/-- The reads with `copy=True`, for batches of the rule. -/
def arrayReads (rule : RecRule) :
    List RecordBatch → List ConsumerStep → List (Option (List UInt8))
  | _, [] => []
  | batches, .next none :: steps => arrayReads rule batches steps
  | batches, .next (some batch) :: steps =>
      arrayReads rule (batches ++ [batch]) steps
  | batches, .read yielded row name element :: steps =>
      readOf (batches[yielded]?.map rule.array) row name element ::
        arrayReads rule batches steps

/-- The reads with `copy=False`, for batches of the rule. -/
def viewReads (rule : RecRule) (later : Nat → Nat → List UInt8) :
    Nat → List YieldedView → List ConsumerStep →
      List (Option (List UInt8))
  | _, _, [] => []
  | calls, views, .next none :: steps =>
      viewReads rule later (calls + 1) views steps
  | calls, views, .next (some batch) :: steps =>
      viewReads rule later (calls + 1)
        (views ++ [{ array := rule.array batch, call := calls + 1 }]) steps
  | calls, views, .read yielded row name element :: steps =>
      readOf (views[yielded]?.map (·.now later calls)) row name element ::
        viewReads rule later calls views steps

theorem FromReader.tail {step : ConsumerStep} {steps : List ConsumerStep}
    (fromReader : FromReader rule (step :: steps)) : FromReader rule steps :=
  fun batch member => fromReader batch (List.mem_cons_of_mem step member)

theorem copiedReads_eq (laidOut : rule.LaidOut types)
    (positive : ∀ attr ∈ rule.attributes, 1 ≤ attr.count)
    (memory : Nat → Nat → UInt8) {steps : List ConsumerStep}
    (fromReader : FromReader rule steps) (batches : List RecordBatch) :
    copiedReads types memory (batches.map rule.array) steps =
      .ok (arrayReads rule batches steps) := by
  induction steps generalizing batches with
  | nil => rfl
  | cons step steps inductionHypothesis =>
      have rest := inductionHypothesis fromReader.tail
      cases step with
      | next batch =>
          cases batch with
          | none => exact rest batches
          | some batch =>
              rcases fromReader batch List.mem_cons_self with
                ⟨ofRule, recordSize, length⟩
              simp only [copiedReads, readerNextBatchCopy_eq laidOut positive _
                ofRule recordSize length]
              have later := rest (batches ++ [batch])
              rw [List.map_append] at later
              exact later
      | read yielded row name element =>
          simp only [copiedReads, rest batches, List.getElem?_map]
          rfl

theorem viewedReads_eq (laidOut : rule.LaidOut types)
    (positive : ∀ attr ∈ rule.attributes, 1 ≤ attr.count)
    (later : Nat → Nat → List UInt8) {steps : List ConsumerStep}
    (fromReader : FromReader rule steps) (calls : Nat)
    (views : List YieldedView) :
    viewedReads types later calls views steps =
      .ok (viewReads rule later calls views steps) := by
  induction steps generalizing calls views with
  | nil => rfl
  | cons step steps inductionHypothesis =>
      have rest := inductionHypothesis fromReader.tail
      cases step with
      | next batch =>
          cases batch with
          | none => exact rest (calls + 1) views
          | some batch =>
              rcases fromReader batch List.mem_cons_self with ⟨ofRule, _, _⟩
              simp only [viewedReads, readerNextBatchView, ofRule,
                viewStructured_eq laidOut positive]
              exact rest (calls + 1) _
      | read yielded row name element =>
          simp only [viewedReads, rest calls views]
          rfl

/-! ### Which views are current -/

/-- The views are those of the batches, and the only one that no call of
`next_batch` came after is the last one, if the last call returned it. -/
structure Epochs (rule : RecRule) (calls : Nat) (live : Bool)
    (batches : List RecordBatch) (views : List YieldedView) : Prop where
  arrays : views.map (·.array) = batches.map rule.array
  past : ∀ view ∈ views, view.call ≤ calls
  latest : ∀ i view, views[i]? = some view →
    (view.call = calls ↔ live = true ∧ i + 1 = batches.length)

theorem Epochs.nothing {calls : Nat} {live : Bool} {batches : List RecordBatch}
    {views : List YieldedView} (epochs : Epochs rule calls live batches views) :
    Epochs rule (calls + 1) false batches views := by
  refine ⟨epochs.arrays, ?_, ?_⟩
  · intro view member
    exact Nat.le_succ_of_le (epochs.past view member)
  · intro i view found
    have before := epochs.past view (List.mem_of_getElem? found)
    constructor
    · intro now
      omega
    · rintro ⟨live, _⟩
      cases live

theorem Epochs.yield {calls : Nat} {live : Bool} {batches : List RecordBatch}
    {views : List YieldedView} (epochs : Epochs rule calls live batches views)
    (batch : RecordBatch) :
    Epochs rule (calls + 1) true (batches ++ [batch])
      (views ++ [{ array := rule.array batch, call := calls + 1 }]) := by
  have lengths : views.length = batches.length := by
    have same := congrArg List.length epochs.arrays
    rwa [List.length_map, List.length_map] at same
  refine ⟨?_, ?_, ?_⟩
  · simp [epochs.arrays]
  · intro view member
    rcases List.mem_append.mp member with old | new
    · exact Nat.le_succ_of_le (epochs.past view old)
    · rw [List.mem_singleton] at new
      exact new ▸ Nat.le_refl (calls + 1)
  · intro i view found
    rw [List.length_append, List.length_singleton]
    rcases Nat.lt_or_ge i views.length with old | new
    · rw [List.getElem?_append_left old] at found
      have before := epochs.past view (List.mem_of_getElem? found)
      constructor
      · intro now
        omega
      · rintro ⟨_, last⟩
        omega
    · rw [List.getElem?_append_right new] at found
      have last : i - views.length = 0 := by
        by_contra beyond
        rw [List.getElem?_eq_none (by simp; omega)] at found
        cases found
      rw [last] at found
      cases found
      simp
      omega

/-- What a view reads: its batch while it is current, and what is in the memory
by then otherwise. -/
theorem Epochs.now {calls : Nat} {live : Bool} {batches : List RecordBatch}
    {views : List YieldedView} (epochs : Epochs rule calls live batches views)
    (later : Nat → Nat → List UInt8) {i : Nat} {view : YieldedView}
    (found : views[i]? = some view) :
    ∃ batch, batches[i]? = some batch ∧
      view.now later calls = rule.view
        (if live = true ∧ i + 1 = batches.length then batch.data
          else later view.call calls) batch.count := by
  have arrays := congrArg (·[i]?) epochs.arrays
  simp only [List.getElem?_map, found, Option.map_some] at arrays
  rcases Option.map_eq_some_iff.mp arrays.symm with ⟨batch, same, array⟩
  refine ⟨batch, same, ?_⟩
  unfold YieldedView.now
  rw [← array]
  by_cases current : view.call = calls
  · rw [if_pos current, if_pos ((epochs.latest i view found).mp current)]
    rfl
  · rw [if_neg current,
      if_neg (mt (epochs.latest i view found).mpr current)]
    rfl

theorem Epochs.missing {calls : Nat} {live : Bool} {batches : List RecordBatch}
    {views : List YieldedView} (epochs : Epochs rule calls live batches views)
    {i : Nat} (absent : views[i]? = none) : batches[i]? = none := by
  have arrays := congrArg (·[i]?) epochs.arrays
  simp only [List.getElem?_map, absent, Option.map_none] at arrays
  exact Option.map_eq_none_iff.mp arrays.symm

/-! ### Prompt consumers -/

/-- The views of a prompt consumer show its batches, whatever the memory holds
later. -/
theorem viewReads_eq (positive : ∀ attr ∈ rule.attributes, 1 ≤ attr.count)
    (later : Nat → Nat → List UInt8) {calls : Nat} {live : Bool}
    {batches : List RecordBatch} {views : List YieldedView}
    (epochs : Epochs rule calls live batches views)
    {steps : List ConsumerStep} (prompt : Prompt rule batches live steps) :
    viewReads rule later calls views steps = arrayReads rule batches steps := by
  induction steps generalizing calls live batches views with
  | nil => rfl
  | cons step steps inductionHypothesis =>
      cases step with
      | next batch =>
          cases batch with
          | none => exact inductionHypothesis epochs.nothing prompt
          | some batch => exact inductionHypothesis (epochs.yield batch) prompt
      | read yielded row name element =>
          rcases prompt with ⟨here, prompt⟩
          have rest := inductionHypothesis epochs prompt
          simp only [viewReads, arrayReads, rest]
          cases found : views[yielded]? with
          | none => rw [epochs.missing found]; rfl
          | some view =>
              rcases epochs.now later found with ⟨batch, same, now⟩
              rw [same, Option.map_some, Option.map_some, now]
              have reads : (rule.view
                  (if live = true ∧ yielded + 1 = batches.length then batch.data
                    else later view.call calls) batch.count).read row name
                      element =
                    (rule.array batch).read row name element := by
                by_cases has : rule.HasElement batch row name element
                · rw [if_pos (here batch same has)]
                  rfl
                · rw [rule.read_eq_none positive has]
                  exact (rule.read_eq_none positive has batch.data).symm
              exact congrArg
                (· :: arrayReads rule batches steps) reads

/-- Memory that is overwritten with one byte. -/
def overwritten (size : Nat) (byte : UInt8) : Nat → Nat → List UInt8 :=
  fun _ _ => List.replicate size byte

theorem slice_replicate {size start width : Nat} (byte : UInt8)
    (fits : start + width ≤ size) :
    slice (List.replicate size byte) start width =
      List.replicate width byte := by
  unfold slice
  rw [List.drop_replicate, List.take_replicate]
  congr 1
  omega

/-- A view that reads its batch over whatever byte the memory holds later is
current: else it tells zeros from ones. -/
theorem Epochs.current (laidOut : rule.LaidOut types)
    (positive : ∀ attr ∈ rule.attributes, 1 ≤ attr.count)
    {size : Nat} {calls : Nat} {live : Bool}
    {batches : List RecordBatch} {views : List YieldedView}
    (epochs : Epochs rule calls live batches views)
    {i row element : Nat} {name : String} {batch : RecordBatch}
    (found : batches[i]? = some batch)
    (has : rule.HasElement batch row name element)
    (bounded : batch.count * rule.recSize ≤ size)
    (same : ∀ byte,
      readOf (views[i]?.map (·.now (overwritten size byte) calls)) row name
          element =
        readOf (batches[i]?.map rule.array) row name element) :
    live = true ∧ i + 1 = batches.length := by
  by_contra stale
  cases present : views[i]? with
  | none =>
      rw [epochs.missing present] at found
      cases found
  | some view =>
      rcases laidOut.element_slice positive has with
        ⟨start, width, nonempty, inside, reads⟩
      have shows (byte : UInt8) :
          List.replicate width byte = slice batch.data start width := by
        rcases epochs.now (overwritten size byte) present with
          ⟨other, here, now⟩
        rw [found] at here
        cases here
        have shown := same byte
        rw [present, found, Option.map_some, Option.map_some, now,
          if_neg stale] at shown
        have read : some (slice (List.replicate size byte) start width) =
            some (slice batch.data start width) := by
          rw [← reads, ← reads]
          exact shown
        rw [← slice_replicate byte (Nat.le_trans inside bounded)]
        exact Option.some.inj read
      have differ := congrArg List.head? ((shows 0).trans (shows 1).symm)
      rw [List.head?_replicate, List.head?_replicate,
        if_neg (Nat.ne_of_gt nonempty),
        if_neg (Nat.ne_of_gt nonempty)] at differ
      exact absurd (Option.some.inj differ) (by decide)

/-- A consumer whose views read the batches over whatever byte the memory holds
later is prompt. -/
theorem prompt_of_viewReads (laidOut : rule.LaidOut types)
    (positive : ∀ attr ∈ rule.attributes, 1 ≤ attr.count)
    {size : Nat} {calls : Nat} {live : Bool}
    {batches : List RecordBatch} {views : List YieldedView}
    (epochs : Epochs rule calls live batches views)
    {steps : List ConsumerStep}
    (small : ∀ batch ∈ batches, batch.count * rule.recSize ≤ size)
    (smallNext : ∀ batch, .next (some batch) ∈ steps →
      batch.count * rule.recSize ≤ size)
    (same : ∀ byte, viewReads rule (overwritten size byte) calls views steps =
      arrayReads rule batches steps) : Prompt rule batches live steps := by
  induction steps generalizing calls live batches views with
  | nil => trivial
  | cons step steps inductionHypothesis =>
      have smallRest : ∀ batch, .next (some batch) ∈ steps →
          batch.count * rule.recSize ≤ size :=
        fun batch member => smallNext batch (List.mem_cons_of_mem step member)
      cases step with
      | next batch =>
          cases batch with
          | none =>
              exact inductionHypothesis epochs.nothing small smallRest same
          | some batch =>
              refine inductionHypothesis (epochs.yield batch) ?_ smallRest same
              intro other member
              rcases List.mem_append.mp member with old | new
              · exact small other old
              · rw [List.mem_singleton] at new
                exact new ▸ smallNext batch List.mem_cons_self
      | read yielded row name element =>
          have heads (byte : UInt8) := (List.cons.inj (same byte)).1
          have tails (byte : UInt8) := (List.cons.inj (same byte)).2
          refine ⟨?_, inductionHypothesis epochs small smallRest tails⟩
          intro batch found has
          exact epochs.current laidOut positive found has
            (small batch (List.mem_of_getElem? found)) heads

theorem exists_size (rule : RecRule) (steps : List ConsumerStep) :
    ∃ size, ∀ batch, .next (some batch) ∈ steps →
      batch.count * rule.recSize ≤ size := by
  induction steps with
  | nil => exact ⟨0, fun batch member => by cases member⟩
  | cons step steps inductionHypothesis =>
      rcases inductionHypothesis with ⟨size, small⟩
      cases step with
      | read yielded row name element =>
          refine ⟨size, ?_⟩
          intro batch member
          rcases List.mem_cons.mp member with first | rest
          · cases first
          · exact small batch rest
      | next batch =>
          refine ⟨size + (batch.elim 0 (·.count)) * rule.recSize, ?_⟩
          intro other member
          rcases List.mem_cons.mp member with first | rest
          · cases first
            exact Nat.le_add_left _ _
          · exact Nat.le_add_right_of_le (small other rest)

/-- `copy=False` agrees with `copy=True` for exactly the consumers that read a
batch only until the generator calls `next_batch` again. -/
theorem views_agree_iff (types : CycTypes) {rule : RecRule}
    (laidOut : rule.LaidOut types)
    (positive : ∀ attr ∈ rule.attributes, 1 ≤ attr.count)
    (memory : Nat → Nat → UInt8) {steps : List ConsumerStep}
    (fromReader : FromReader rule steps) :
    (∀ later, viewedReads types later 0 [] steps =
      copiedReads types memory [] steps) ↔ Prompt rule [] false steps := by
  have start : Epochs rule 0 false [] [] :=
    ⟨rfl, List.forall_mem_nil _, fun i view found => by simp at found⟩
  have copied : copiedReads types memory [] steps =
      .ok (arrayReads rule [] steps) :=
    copiedReads_eq laidOut positive memory fromReader []
  rw [copied]
  constructor
  · intro agree
    rcases exists_size rule steps with ⟨size, small⟩
    apply prompt_of_viewReads laidOut positive start (List.forall_mem_nil _)
      small
    intro byte
    have same := agree (overwritten size byte)
    rw [viewedReads_eq laidOut positive _ fromReader] at same
    exact Except.ok.inj same
  · intro prompt later
    rw [viewedReads_eq laidOut positive _ fromReader,
      viewReads_eq positive later start prompt]

/-- A batch of one record of one byte. -/
def byteBatch (byte : UInt8) : RecordBatch where
  rule := byteRule
  data := [byte]
  count := 1
  recordSize := 1

/-- The record of the batch yielded first is read at once, and after the next
batch. -/
def keptBatch : List ConsumerStep :=
  [.next (some (byteBatch 7)), .read 0 0 "B" 0, .next none,
    .next (some (byteBatch 9)), .read 0 0 "B" 0]

theorem views_agree_iff_keptBatch :
    (∀ later, viewedReads types64 later 0 [] (keptBatch.take 4) =
      copiedReads types64 (fun _ _ => 0) [] (keptBatch.take 4)) ∧
    ¬ ∀ later, viewedReads types64 later 0 [] keptBatch =
      copiedReads types64 (fun _ _ => 0) [] keptBatch := by
  have fromReader : FromReader byteRule keptBatch := by
    intro batch member
    simp only [keptBatch, List.mem_cons, List.not_mem_nil, or_false,
      reduceCtorEq, ConsumerStep.next.injEq, Option.some.injEq,
      false_or] at member
    rcases member with rfl | rfl <;> exact ⟨rfl, rfl, rfl⟩
  have taken : FromReader byteRule (keptBatch.take 4) :=
    fun batch member => fromReader batch (List.mem_of_mem_take member)
  constructor
  · apply (views_agree_iff types64 byteRule_laidOut (by decide) _
      taken).mpr
    exact ⟨fun _ _ _ => ⟨rfl, rfl⟩, trivial⟩
  · intro agree
    rcases (views_agree_iff types64 byteRule_laidOut (by decide) _
      fromReader).mp agree with ⟨_, kept, _⟩
    have has : byteRule.HasElement (byteBatch 7) 0 "B" 0 :=
      ⟨by decide, _, List.mem_cons_self, rfl, rfl, by decide⟩
    exact absurd (kept (byteBatch 7) rfl has).2 (by decide)

end CycFlowPy.Numpy
