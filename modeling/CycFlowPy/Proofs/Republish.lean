/-
Module: CycFlowPy.Proofs.Republish
Purpose: Publishing the snapshot of a buffer into another buffer of the same
  rule copies every element of every record.
Trusted boundary: none
Main exports: read_congr, view_sized, read_eq_of_byName,
  republished_snapshot
-/
import CycFlowPy.Proofs.PublishByName
import CycFlowPy.Proofs.RecordPaths

namespace CycFlowPy.Numpy

open Slices

variable {types : CycTypes}

/-! ### Records and elements -/

theorem StructuredArray.record_eq (array : StructuredArray) (row : Nat) :
    array.record row = array.records[row]? := by
  unfold StructuredArray.record StructuredArray.records
  by_cases inside : row < array.count
  · simp [inside]
  · simp [inside]

/-- Records whose fields have the same bytes read the same. -/
theorem read_congr {dtype : Dtype} {record other : List UInt8}
    (same : ∀ field ∈ dtype.fields,
      slice record field.offset field.size =
        slice other field.offset field.size)
    (name : String) (element : Nat) :
    dtype.read record name element = dtype.read other name element := by
  unfold Dtype.read
  cases found : dtype.field? name with
  | none => rfl
  | some field =>
      simp only [Option.bind_eq_bind, Option.bind_some]
      by_cases inside : element < field.count
      · have within : element * field.format.itemSize +
            field.format.itemSize ≤ field.size := by
          rw [DtypeField.size, Nat.mul_comm field.format.itemSize]
          exact row_fits inside
        have equal := same field (List.mem_of_find?_eq_some found)
        rw [if_pos inside, if_pos inside, ← slice_slice within,
          ← slice_slice within, equal]
      · rw [if_neg inside, if_neg inside]

/-! ### The copy -/

section Copy

variable {rule : RecRule}

/-- The array over the memory of `count` records has room for every field. -/
theorem view_sized (built : dtypeFromRule types rule = .ok rule.dtype)
    {data : List UInt8} {count : Nat}
    (length : data.length = count * rule.recSize) :
    ∀ record ∈ (rule.view data count).records,
      ∀ field ∈ (rule.view data count).dtype.fields,
        field.offset + field.size ≤ record.length := by
  intro record member field ofRule
  rcases List.mem_map.mp member with ⟨row, inside, rfl⟩
  have fits : row * rule.recSize + rule.recSize ≤ data.length := by
    rw [length]
    exact row_fits (List.mem_range.mp inside)
  rw [show (slice (rule.view data count).data
      (row * (rule.view data count).stride)
      (rule.view data count).dtype.itemSize).length = rule.recSize from
    length_slice fits]
  exact (dtypeFromRule_eq_ok_iff.mp built).2.2 field ofRule

/-- A record filled by name from the row of an older record reads like it. -/
theorem read_eq_of_byName {array : StructuredArray}
    (dtype : array.dtype = rule.dtype)
    (distinct : (rule.dtype.fields.map (·.name)).Nodup)
    {old record : List UInt8}
    (byName : ByName rule (rule.dtype.fields.map DtypeField.column)
      (array.dtype.fields.map fun field =>
        slice old field.offset field.size) record)
    (name : String) (element : Nat) :
    rule.dtype.read record name element =
      rule.dtype.read old name element := by
  apply read_congr
  intro field member
  rcases List.getElem?_of_mem member with ⟨i, fieldAt⟩
  have columnAt : (rule.dtype.fields.map DtypeField.column)[i]? =
      some field.column := by
    rw [List.getElem?_map, fieldAt]
    rfl
  have valueAt : (array.dtype.fields.map fun field =>
      slice old field.offset field.size)[i]? =
        some (slice old field.offset field.size) := by
    rw [dtype, List.getElem?_map, fieldAt]
    rfl
  have columnNames : ((rule.dtype.fields.map DtypeField.column).map
      (·.name)).Nodup := by
    rw [List.map_map]
    exact distinct
  have value := byName field member
  rw [show field.name = field.column.name from rfl,
    valueOf_eq columnNames columnAt valueAt] at value
  exact (Option.some.inj value).symm

/-- With columns for all fields no batch raises, so a call that is given valid
batches commits every row. -/
theorem committed_eq_total {numpy : NumpyCast} {input : ColumnArray}
    {writer : Nat → Option (WriterBatch rule)} {total : Nat}
    {result : PublishResult}
    (built : dtypeFromRule types rule = .ok rule.dtype)
    (columns : input.columns.length = rule.dtype.fields.length)
    (prefixes : PublishesPrefix types (assignSlice numpy input) writer total
      result)
    (valid : ∀ call, writer call ≠ none) : result.committed = total := by
  have ending := prefixes.ending
  cases outcome : result.outcome with
  | ok returned =>
      rw [outcome] at ending
      rcases ending.2 with all | invalid
      · exact all
      · exact absurd invalid (valid _)
  | error error =>
      rw [outcome] at ending
      rcases ending.2 with ⟨batch, _, notViewed | ⟨view, viewed, refused⟩⟩
      · unfold WriteBatch.asNumpy viewStructured at notViewed
        rw [batch.ofRule, built] at notViewed
        cases notViewed
      · obtain rfl := (WriterBatch.asNumpy_ok viewed).2
        have fields : input.columns.length =
            (rule.view batch.data batch.capacity).dtype.fields.length :=
          columns
        rw [assignSlice, if_pos fields] at refused
        cases refused

/-- The record of the rule's size that reads like row `k` of the array. -/
def CopiesRow (rule : RecRule) (array : StructuredArray) (k : Nat)
    (record : List UInt8) : Prop :=
  record.length = rule.recSize ∧
    ∃ old, array.records[k]? = some old ∧ ∀ name element,
      rule.dtype.read record name element = rule.dtype.read old name element

/-- What is committed for the rows of an array of the rule are copies. -/
theorem committed_copies {numpy : NumpyCast}
    (built : dtypeFromRule types rule = .ok rule.dtype)
    (disjoint : rule.dtype.fields.Pairwise DtypeField.Disjoint)
    {array : StructuredArray} (dtype : array.dtype = rule.dtype)
    (sized : ∀ record ∈ array.records, ∀ field ∈ array.dtype.fields,
      field.offset + field.size ≤ record.length)
    {writer : Nat → Option (WriterBatch rule)} {result : PublishResult}
    (prefixes : PublishesPrefix types
      (assignSlice numpy (ColumnArray.ofArray array sized)) writer array.count
      result) :
    result.records.length = result.committed ∧
      ∀ (k : Nat) record, result.records[k]? = some record →
        CopiesRow rule array k record := by
  rcases dtypeFromRule_eq_ok_iff.mp built with ⟨_, distinct, inside⟩
  have count : (ColumnArray.ofArray array sized).rows.length =
      array.count := by
    simp [ColumnArray.ofArray]
  have columns : (ColumnArray.ofArray array sized).columns =
      rule.dtype.fields.map DtypeField.column := by
    simp only [ColumnArray.ofArray, dtype]
  apply prefixes.records_forall
  intro batch view pos n filled viewed room left filling
  rcases assignSlice_records viewed room (count ▸ left) filling with
    ⟨viewCount, contents⟩
  refine ⟨viewCount, ?_⟩
  intro i inSlice record recordAt
  rcases contents i inSlice record recordAt with
    ⟨row, blank, rowAt, length, rfl⟩
  have insideBlank : ∀ field ∈ rule.dtype.fields,
      field.offset + field.size ≤ blank.length := by
    rw [length]
    exact inside
  constructor
  · rw [storeFields_length insideBlank, length]
  · have typed := (ColumnArray.ofArray array sized).typed row
      (List.mem_of_getElem? rowAt)
    rw [columns] at typed ⊢
    have byName : ByName rule (rule.dtype.fields.map DtypeField.column) row
        (storeFields numpy rule.dtype.fields
          (rule.dtype.fields.map DtypeField.column) row blank) :=
      byName_storeFields distinct insideBlank disjoint typed
    simp only [ColumnArray.ofArray, List.getElem?_map] at rowAt
    rcases Option.map_eq_some_iff.mp rowAt with ⟨old, oldAt, rfl⟩
    exact ⟨old, oldAt, read_eq_of_byName dtype distinct byName⟩

/-- A buffer that retains these records. -/
structure BufferReads.Retains (buffer : BufferReads) (rule : RecRule)
    (rows : List (List UInt8)) : Prop where
  ofRule : buffer.getRule = rule
  size : buffer.size = rows.length
  contents : buffer.readRelative 0 buffer.size = rows.flatten

theorem BufferReads.Retains.snapshot_eq {buffer : BufferReads}
    {rows : List (List UInt8)} (retains : buffer.Retains rule rows)
    (laidOut : rule.LaidOut types)
    (positive : ∀ attr ∈ rule.attributes, 1 ≤ attr.count)
    (sized : ∀ row ∈ rows, row.length = rule.recSize)
    (memory : Nat → UInt8) :
    buffer.snapshot types memory = .ok (rule.view rows.flatten rows.length) ∧
      (rule.view rows.flatten rows.length).records = rows := by
  have length : (buffer.readRelative 0 buffer.size).length =
      buffer.size * rule.recSize := by
    rw [retains.contents, retains.size, List.length_flatten,
      List.map_congr_left sized, List.map_const', List.sum_replicate_nat]
  constructor
  · rw [BufferReads.snapshot_eq laidOut positive memory retains.ofRule length,
      retains.contents, retains.size]
  · exact records_flatten sized

/-- For a laid-out rule with every count at least 1: publishing the snapshot of
a buffer through a writer of the same rule and taking a snapshot of the buffer
it fills gives back every element of the records that were committed, and of
all records when every batch is valid. -/
theorem republished_snapshot {rows : List (List UInt8)} {source : BufferReads}
    (laidOut : rule.LaidOut types)
    (positive : ∀ attr ∈ rule.attributes, 1 ≤ attr.count)
    (sizedRows : ∀ row ∈ rows, row.length = rule.recSize)
    (retains : source.Retains rule rows) (memory : Nat → UInt8)
    (numpy : NumpyCast) (writer : Nat → Option (WriterBatch rule)) :
    ∃ (array : StructuredArray) (sized : ∀ record ∈ array.records,
        ∀ field ∈ array.dtype.fields,
          field.offset + field.size ≤ record.length) (result : PublishResult),
      source.snapshot types memory = .ok array ∧
      array.records = rows ∧
      publishDataframe types
        (assignSlice numpy (ColumnArray.ofArray array sized)) writer
        array.count = some result ∧
      ((∀ call, writer call ≠ none) → result.records.length = rows.length) ∧
      ∀ target : BufferReads, target.Retains rule result.records →
        ∃ copy, target.snapshot types memory = .ok copy ∧
          copy.records = result.records ∧
          ∀ row < copy.count, ∀ name element,
            copy.read row name element = array.read row name element := by
  have built := dtypeFromRule_eq laidOut positive
  have mapped : ∀ attr ∈ rule.mapped, 1 ≤ attr.count := by
    intro attr member
    exact positive attr (RecRule.mem_mapped.mp member).1
  have disjoint := laidOut.fields_disjoint mapped
  rcases retains.snapshot_eq laidOut positive sizedRows memory with
    ⟨snapshot, contents⟩
  have length : rows.flatten.length = rows.length * rule.recSize := by
    rw [List.length_flatten, List.map_congr_left sizedRows, List.map_const',
      List.sum_replicate_nat]
  have sized := view_sized built length
  rcases publishDataframe_prefix types
    (assignSlice numpy (ColumnArray.ofArray _ sized)) writer rows.length with
    ⟨result, published, prefixes⟩
  rcases committed_copies built disjoint rfl sized prefixes with
    ⟨committed, copies⟩
  refine ⟨_, sized, result, snapshot, contents, published, ?_, ?_⟩
  · intro valid
    rw [committed]
    apply committed_eq_total built _ prefixes valid
    simp [ColumnArray.ofArray, RecRule.view]
  · intro target retained
    have sizedCopies : ∀ row ∈ result.records, row.length = rule.recSize := by
      intro row member
      rcases List.getElem?_of_mem member with ⟨k, rowAt⟩
      exact (copies k row rowAt).1
    rcases retained.snapshot_eq laidOut positive sizedCopies memory with
      ⟨copied, copyRecords⟩
    refine ⟨_, copied, copyRecords, ?_⟩
    intro row inside name element
    have recordAt : result.records[row]? = some result.records[row] :=
      List.getElem?_eq_getElem inside
    rcases copies row _ recordAt with ⟨_, old, oldAt, reads⟩
    rw [StructuredArray.read, StructuredArray.read,
      StructuredArray.record_eq, StructuredArray.record_eq, copyRecords,
      recordAt, oldAt]
    exact reads name element

end Copy

/-- A buffer with one record of the rule, Y = 1.0 and X = 5. -/
def alignedBuffer : BufferReads where
  getRule := alignedRule
  size := 1
  readRelative _ _ :=
    List.replicate 8 0 ++ doubleOne ++ [5, 0, 0, 0, 0, 0, 0, 0]
  nextBatches := []

theorem republished_snapshot_alignedBuffer :
    ∃ (array : StructuredArray) (sized : ∀ record ∈ array.records,
        ∀ field ∈ array.dtype.fields,
          field.offset + field.size ≤ record.length) (result : PublishResult),
      alignedBuffer.snapshot types64 (fun _ => 0) = .ok array ∧
        publishDataframe types64
          (assignSlice castZeroOne (ColumnArray.ofArray array sized))
          (fun _ => some (oneRecord alignedRule)) array.count = some result ∧
        result.records.length = 1 := by
  have laidOut : alignedRule.LaidOut types64 :=
    ⟨by decide, 0, rfl, rfl, rfl, show 17 ≤ 24 by decide⟩
  have retains : alignedBuffer.Retains alignedRule
      [List.replicate 8 0 ++ doubleOne ++ [5, 0, 0, 0, 0, 0, 0, 0]] :=
    ⟨rfl, rfl, by decide⟩
  rcases republished_snapshot laidOut (by decide) (by decide) retains
    (fun _ => 0) castZeroOne (fun _ => some (oneRecord alignedRule)) with
    ⟨array, sized, result, snapshot, _, published, whole, _⟩
  exact ⟨array, sized, result, snapshot, published, whole (by simp)⟩

end CycFlowPy.Numpy
