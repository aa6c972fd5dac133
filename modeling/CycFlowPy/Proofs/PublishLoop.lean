/-
Module: CycFlowPy.Proofs.PublishLoop
Purpose: What the slice assignment of `publish_dataframe` stores in a batch, and
  what one iteration and the whole of its loop commit.
Trusted boundary: none
Main exports: storeFields_read, storeRows_read, WriterBatch.asNumpy_ok,
  assignSlice_records, PublishesPrefix, publishFrom_succ, publishFrom_prefix,
  publishDataframe_prefix, publish_commits_prefix
-/
import CycFlowPy.Model.Publish
import CycFlowPy.Proofs.RecordLayout

namespace CycFlowPy.Numpy

open Slices

variable {types : CycTypes} {numpy : NumpyCast}

/-! ### One record -/

theorem NumpyCast.cast_fits (numpy : NumpyCast) (column : Column)
    {field : DtypeField} (value : List UInt8) {record : List UInt8}
    (fits : field.offset + field.size ≤ record.length) :
    field.offset + (numpy.cast column field value).length ≤ record.length := by
  rwa [numpy.width]

/-- Storing into one field leaves room for the others. -/
theorem stored_inside {column : Column} {field : DtypeField}
    {fields : List DtypeField} {value record : List UInt8}
    (inside : ∀ other ∈ field :: fields,
      other.offset + other.size ≤ record.length) :
    (patch record field.offset (numpy.cast column field value)).length =
        record.length ∧
      ∀ other ∈ fields, other.offset + other.size ≤
        (patch record field.offset
          (numpy.cast column field value)).length := by
  have length := length_patch
    (numpy.cast_fits column value (inside field List.mem_cons_self))
  refine ⟨length, ?_⟩
  intro other member
  rw [length]
  exact inside other (List.mem_cons_of_mem field member)

theorem storeFields_length {fields : List DtypeField} {columns : List Column}
    {row : Row} {record : List UInt8}
    (inside : ∀ field ∈ fields, field.offset + field.size ≤ record.length) :
    (storeFields numpy fields columns row record).length = record.length := by
  fun_induction storeFields with
  | case1 field fields column columns value row record inductionHypothesis =>
      rcases stored_inside inside with ⟨length, insideRest⟩
      rw [inductionHypothesis insideRest, length]
  | case2 => rfl

/-- What no field covers stays. -/
theorem storeFields_frame {fields : List DtypeField} {columns : List Column}
    {row : Row} {record : List UInt8} {first count : Nat}
    (inside : ∀ field ∈ fields, field.offset + field.size ≤ record.length)
    (apart : ∀ field ∈ fields, first + count ≤ field.offset ∨
      field.offset + field.size ≤ first) :
    slice (storeFields numpy fields columns row record) first count =
      slice record first count := by
  fun_induction storeFields with
  | case1 field fields column columns value row record inductionHypothesis =>
      rcases stored_inside inside with ⟨_, insideRest⟩
      rw [inductionHypothesis insideRest fun other member =>
        apart other (List.mem_cons_of_mem field member)]
      apply slice_patch_of_disjoint
      · exact numpy.cast_fits column value (inside field List.mem_cons_self)
      · rw [numpy.width]
        exact apart field List.mem_cons_self
  | case2 => rfl

/-- The i-th field receives the cast of the i-th value. -/
theorem storeFields_read {fields : List DtypeField} {columns : List Column}
    {row : Row} {record : List UInt8}
    (inside : ∀ field ∈ fields, field.offset + field.size ≤ record.length)
    (disjoint : fields.Pairwise DtypeField.Disjoint) {i : Nat}
    {field : DtypeField} {column : Column} {value : List UInt8}
    (fieldAt : fields[i]? = some field)
    (columnAt : columns[i]? = some column) (valueAt : row[i]? = some value) :
    slice (storeFields numpy fields columns row record) field.offset
      field.size = numpy.cast column field value := by
  fun_induction storeFields generalizing i with
  | case1 first fields firstColumn columns firstValue row record
      inductionHypothesis =>
      rcases stored_inside inside with ⟨_, insideRest⟩
      rcases List.pairwise_cons.mp disjoint with ⟨apart, rest⟩
      cases i with
      | zero =>
          obtain rfl : first = field := by simpa using fieldAt
          obtain rfl : firstColumn = column := by simpa using columnAt
          obtain rfl : firstValue = value := by simpa using valueAt
          rw [storeFields_frame insideRest]
          · have stored := slice_patch_self (numpy.cast_fits
              firstColumn firstValue (inside first List.mem_cons_self))
            rwa [numpy.width] at stored
          · intro other member
            exact apart other member
      | succ i =>
          exact inductionHypothesis insideRest rest
            (by simpa using fieldAt) (by simpa using columnAt)
            (by simpa using valueAt)
  | case2 fields columns row record stops =>
      cases fields with
      | nil => cases fieldAt
      | cons first fields =>
          cases columns with
          | nil => cases columnAt
          | cons firstColumn columns =>
              cases row with
              | nil => cases valueAt
              | cons firstValue row =>
                  exact absurd rfl (stops _ _ _ _ _ _ rfl rfl)

/-! ### One slice assignment -/

theorem first_fits {width : Nat} {data : List UInt8} {first : Nat} {row : Row}
    {rows : List Row}
    (room : (first + (row :: rows).length) * width ≤ data.length) :
    first * width + width ≤ data.length ∧
      (first + 1 + rows.length) * width ≤ data.length := by
  rw [List.length_cons, Nat.add_comm _ 1, ← Nat.add_assoc] at room
  exact ⟨Nat.le_trans (row_fits (by omega)) room, room⟩

section Rows

variable (numpy) {dtype : Dtype} (columns : List Column)
variable (inside : ∀ field ∈ dtype.fields,
  field.offset + field.size ≤ dtype.itemSize)
include inside

/-- Storing a record puts a record of the same length in its place. -/
theorem length_storedRecord {data : List UInt8} {first : Nat} (row : Row)
    (fits : first * dtype.itemSize + dtype.itemSize ≤ data.length) :
    (storeFields numpy dtype.fields columns row
      (slice data (first * dtype.itemSize) dtype.itemSize)).length =
        dtype.itemSize := by
  have length := length_slice fits
  rw [storeFields_length, length]
  rw [length]
  exact inside

theorem length_patchedRecord {data : List UInt8} {first : Nat} (row : Row)
    (fits : first * dtype.itemSize + dtype.itemSize ≤ data.length) :
    (patch data (first * dtype.itemSize)
      (storeFields numpy dtype.fields columns row
        (slice data (first * dtype.itemSize) dtype.itemSize))).length =
      data.length := by
  apply length_patch
  rwa [length_storedRecord numpy columns inside row fits]

/-- Storing a record leaves the other records as they are. -/
theorem slice_patchedRecord {data : List UInt8} {first other : Nat} (row : Row)
    (fits : first * dtype.itemSize + dtype.itemSize ≤ data.length)
    (different : other ≠ first) :
    slice (patch data (first * dtype.itemSize)
      (storeFields numpy dtype.fields columns row
        (slice data (first * dtype.itemSize) dtype.itemSize)))
      (other * dtype.itemSize) dtype.itemSize =
      slice data (other * dtype.itemSize) dtype.itemSize := by
  have stored := length_storedRecord numpy columns inside row fits
  have apart : other * dtype.itemSize + 0 + dtype.itemSize ≤
        first * dtype.itemSize + 0 ∨
      first * dtype.itemSize + 0 + dtype.itemSize ≤
        other * dtype.itemSize + 0 :=
    rows_disjoint different (by omega) (by omega)
  apply slice_patch_of_disjoint
  · rwa [stored]
  · rw [stored]
    exact apart

/-- The records before the slice stay. -/
theorem storeRows_before {rows : List Row} {first row : Nat}
    {data : List UInt8} (before : row < first)
    (room : (first + rows.length) * dtype.itemSize ≤ data.length) :
    slice (storeRows numpy dtype columns first rows data)
      (row * dtype.itemSize) dtype.itemSize =
        slice data (row * dtype.itemSize) dtype.itemSize := by
  induction rows generalizing first data with
  | nil => rfl
  | cons value rows inductionHypothesis =>
      rcases first_fits room with ⟨fits, roomAfter⟩
      rw [storeRows, inductionHypothesis (Nat.lt_succ_of_lt before)]
      · exact slice_patchedRecord numpy columns inside value fits
          (Nat.ne_of_lt before)
      · rwa [length_patchedRecord numpy columns inside value fits]

/-- The k-th record of the slice is stored from the k-th row. -/
theorem storeRows_read {rows : List Row} {first k : Nat} {data : List UInt8}
    {row : Row} (rowAt : rows[k]? = some row)
    (room : (first + rows.length) * dtype.itemSize ≤ data.length) :
    slice (storeRows numpy dtype columns first rows data)
      ((first + k) * dtype.itemSize) dtype.itemSize =
        storeFields numpy dtype.fields columns row
          (slice data ((first + k) * dtype.itemSize) dtype.itemSize) := by
  induction rows generalizing first k data with
  | nil => cases rowAt
  | cons value rows inductionHypothesis =>
      rcases first_fits room with ⟨fits, roomAfter⟩
      have length := length_patchedRecord numpy columns inside value fits
      rw [← length] at roomAfter
      rw [storeRows]
      cases k with
      | zero =>
          obtain rfl : value = row := by simpa using rowAt
          have stored := length_storedRecord numpy columns inside value fits
          have fitsStored : first * dtype.itemSize +
              (storeFields numpy dtype.fields columns value (slice data
                (first * dtype.itemSize) dtype.itemSize)).length ≤
                data.length := by
            rwa [stored]
          have read := slice_patch_self fitsStored
          rw [stored] at read
          simp only [Nat.add_zero]
          rw [storeRows_before numpy columns inside (Nat.lt_add_one first)
            roomAfter, read]
      | succ k =>
          have read := inductionHypothesis (k := k) (by simpa using rowAt)
            roomAfter
          rw [Nat.add_right_comm, Nat.add_assoc] at read
          rw [read, slice_patchedRecord numpy columns inside value fits
            (by omega)]

end Rows

theorem WriterBatch.asNumpy_ok {rule : RecRule} {batch : WriterBatch rule}
    {view : StructuredArray} (viewed : batch.asNumpy types = .ok view) :
    dtypeFromRule types rule = .ok rule.dtype ∧
      view = rule.view batch.data batch.capacity := by
  unfold WriteBatch.asNumpy viewStructured at viewed
  rw [batch.ofRule] at viewed
  cases built : dtypeFromRule types rule with
  | error error =>
      rw [built] at viewed
      cases viewed
  | ok dtype =>
      rw [built] at viewed
      obtain rfl := (dtypeFromRule_eq_ok_iff.mp built).1
      cases viewed
      exact ⟨rfl, rfl⟩

/-- A successful slice assignment stores row `pos + i` in record `i`. -/
theorem assignSlice_records {rule : RecRule} {input : ColumnArray}
    {batch : WriterBatch rule} {view filled : StructuredArray} {pos n : Nat}
    (viewed : batch.asNumpy types = .ok view) (room : n ≤ view.count)
    (left : pos + n ≤ input.rows.length)
    (filling : assignSlice numpy input view pos n = .ok filled) :
    filled.count = view.count ∧
      ∀ i < n, ∀ record, filled.records[i]? = some record →
        ∃ row blank : List _, input.rows[pos + i]? = some row ∧
          blank.length = rule.recSize ∧
          record =
            storeFields numpy rule.dtype.fields input.columns row blank := by
  rcases WriterBatch.asNumpy_ok viewed with ⟨built, rfl⟩
  rcases dtypeFromRule_eq_ok_iff.mp built with ⟨_, _, inside⟩
  unfold assignSlice at filling
  split at filling
  case isFalse => cases filling
  case isTrue =>
    cases filling
    refine ⟨rfl, ?_⟩
    intro i inSlice record recordAt
    have inView : i < batch.capacity := Nat.lt_of_lt_of_le inSlice room
    have inInput : pos + i < input.rows.length := by
      omega
    have rowAt : ((input.rows.drop pos).take n)[i]? =
        some input.rows[pos + i] := by
      rw [List.getElem?_take_of_lt inSlice, List.getElem?_drop]
      exact List.getElem?_eq_getElem inInput
    have sized : batch.data.length = batch.capacity * rule.recSize := by
      rw [batch.sized, batch.ofRule]
    have fits : (0 + ((input.rows.drop pos).take n).length) *
        rule.dtype.itemSize ≤ batch.data.length := by
      rw [sized, Nat.zero_add]
      apply Nat.mul_le_mul_right
      exact Nat.le_trans (List.length_take_le n _) room
    have stored := storeRows_read numpy input.columns inside rowAt fits
    rw [Nat.zero_add] at stored
    refine ⟨input.rows[pos + i],
      slice batch.data (i * rule.recSize) rule.recSize,
      List.getElem?_eq_getElem inInput, ?_, ?_⟩
    · apply length_slice
      rw [sized]
      exact row_fits inView
    · simp only [StructuredArray.records, RecRule.view, List.getElem?_map,
        List.getElem?_range inView, Option.map_some,
        Option.some.injEq] at recordAt
      rw [← recordAt]
      exact stored

/-! ### The loop -/

/-- The numbers of the rows of the input that a commit is filled from. -/
def Commit.rows (commit : Commit) : List Nat :=
  List.range' commit.first commit.count

theorem Commit.length_records (commit : Commit)
    (fits : commit.count ≤ commit.view.count) :
    commit.records.length = commit.count := by
  rw [Commit.records, List.length_take, StructuredArray.length_records]
  exact Nat.min_eq_left fits

/-- How many rows of the input have been committed. -/
def PublishResult.committed (result : PublishResult) : Nat :=
  (result.commits.map (·.count)).sum

section Loop

variable (types : CycTypes) {rule : RecRule}
variable (assign : StructuredArray → Nat → Nat → Except PyError StructuredArray)
variable (writer : Nat → Option (WriterBatch rule))

/-- The batch is valid, and the commit is a number of its first records after
an assignment that did not raise. -/
def Commit.Fills (response : Option (WriterBatch rule)) (commit : Commit) :
    Prop :=
  ∃ batch view, response = some batch ∧ batch.asNumpy types = .ok view ∧
    1 ≤ commit.count ∧ commit.count ≤ batch.capacity ∧
    assign view commit.first commit.count = .ok commit.view

/-- Filling the batch from row `pos` on raises: there is no view of it, or the
slice assignment raises. -/
def WriterBatch.Raises (batch : WriterBatch rule) (pos remaining : Nat)
    (error : PyError) : Prop :=
  batch.asNumpy types = .error error ∨
    ∃ view, batch.asNumpy types = .ok view ∧
      assign view pos (min view.count remaining) = .error error

/-- The commits are those of the first batches of the writer, and consist of
the first `pos` rows in order. -/
structure CommitsPrefix (commits : List Commit) (pos : Nat) : Prop where
  filled : ∀ (call : Nat) (commit : Commit),
    commits[call]? = some commit → commit.Fills types assign (writer call)
  rows : commits.flatMap Commit.rows = List.range pos
  progress : commits.length ≤ pos

/-- How the call ends once it has committed `pos` rows: it returns `pos` when
these are all rows or the next batch is not valid, or it raises what filling
the next batch raised. -/
def LoopEnds (total : Nat) (commits : List Commit) (pos : Nat) :
    Except PyError Nat → Prop
  | .ok returned =>
      returned = pos ∧ (pos = total ∨ writer commits.length = none)
  | .error error =>
      pos < total ∧ ∃ batch, writer commits.length = some batch ∧
        batch.Raises types assign pos (total - pos) error

/-- What a call for `total` rows has committed is a prefix of the rows. -/
structure PublishesPrefix (total : Nat) (result : PublishResult) : Prop
    extends
    CommitsPrefix types assign writer result.commits result.committed where
  within : result.committed ≤ total
  ending : LoopEnds types assign writer total result.commits result.committed
    result.outcome

variable {types assign writer}

/-- One iteration with rows left: it ends the loop with what was committed
before, or commits one batch more and goes on. -/
theorem publishFrom_succ {fuel call pos remaining : Nat}
    {commits : List Commit} (more : remaining ≠ 0) :
    (writer call = none ∧
      publishFrom types assign writer (fuel + 1) call pos remaining commits =
        some { commits := commits, outcome := .ok pos }) ∨
    (∃ batch error, writer call = some batch ∧
      batch.Raises types assign pos remaining error ∧
      publishFrom types assign writer (fuel + 1) call pos remaining commits =
        some { commits := commits, outcome := .error error }) ∨
    ∃ (batch : WriterBatch rule) (view filled : StructuredArray) (n : Nat),
      writer call = some batch ∧ batch.asNumpy types = .ok view ∧
      n = min view.count remaining ∧ assign view pos n = .ok filled ∧
      publishFrom types assign writer (fuel + 1) call pos remaining commits =
        publishFrom types assign writer fuel (call + 1) (pos + n)
          (remaining - n)
          (commits ++ [{ first := pos, count := n, view := filled }]) := by
  rw [publishFrom, if_neg more]
  cases writer call with
  | none => exact .inl ⟨rfl, rfl⟩
  | some batch =>
      right
      cases viewed : batch.asNumpy types with
      | error error =>
          left
          exact ⟨batch, error, rfl, .inl viewed, by simp only [viewed]⟩
      | ok view =>
          cases filling : assign view pos (min view.count remaining) with
          | error error =>
              left
              refine ⟨batch, error, rfl, .inr ⟨view, viewed, filling⟩, ?_⟩
              simp only [viewed, filling]
          | ok filled =>
              right
              refine ⟨batch, view, filled, _, rfl, viewed, rfl, filling, ?_⟩
              simp only [viewed, filling]

theorem rows_length {commits : List Commit} {pos : Nat}
    (rows : commits.flatMap Commit.rows = List.range pos) :
    (commits.map (·.count)).sum = pos := by
  have lengths := congrArg List.length rows
  rw [List.length_flatMap, List.length_range] at lengths
  simpa [Commit.rows] using lengths

/-- A batch filled from the next row on makes the prefix longer. -/
theorem CommitsPrefix.snoc {commits : List Commit} {pos : Nat}
    (prefixes : CommitsPrefix types assign writer commits pos)
    (commit : Commit) (next : commit.first = pos)
    (fills : commit.Fills types assign (writer commits.length)) :
    CommitsPrefix types assign writer (commits ++ [commit])
      (pos + commit.count) where
  filled := by
    apply Slices.getElem?_append_forall prefixes.filled
    intro call last lastAt
    obtain ⟨rfl, rfl⟩ : call = 0 ∧ commit = last := by
      cases call with
      | zero => exact ⟨rfl, by simpa using lastAt⟩
      | succ call => simp at lastAt
    exact fills
  rows := by
    rw [List.flatMap_append, List.flatMap_singleton, prefixes.rows,
      Commit.rows, next, List.range_eq_range', List.range_eq_range',
      ← List.range'_append_1, Nat.zero_add]
  progress := by
    rw [List.length_append, List.length_singleton]
    rcases fills with ⟨_, _, _, _, some, _⟩
    exact Nat.add_le_add prefixes.progress some

/-- The loop ends here, with the commits made so far. -/
theorem CommitsPrefix.ended {commits : List Commit} {pos total : Nat}
    (prefixes : CommitsPrefix types assign writer commits pos)
    (within : pos ≤ total) {outcome : Except PyError Nat}
    (ending : LoopEnds types assign writer total commits pos outcome) :
    PublishesPrefix types assign writer total
      { commits := commits, outcome := outcome } := by
  obtain rfl := rows_length prefixes.rows
  exact { prefixes with within := within, ending := ending }

/-- The loop returns when its fuel exceeds the remaining rows, and what it
commits makes the prefix committed before longer. -/
theorem publishFrom_prefix {fuel pos remaining total : Nat}
    {commits : List Commit} (enough : remaining < fuel)
    (rest : pos + remaining = total)
    (prefixes : CommitsPrefix types assign writer commits pos) :
    ∃ result,
      publishFrom types assign writer fuel commits.length pos remaining
        commits = some result ∧
      PublishesPrefix types assign writer total result := by
  have within : pos ≤ total := Nat.le_of_add_right_le (Nat.le_of_eq rest)
  induction fuel generalizing pos remaining commits with
  | zero => exact absurd enough (Nat.not_lt_zero _)
  | succ fuel inductionHypothesis =>
      by_cases finished : remaining = 0
      · refine ⟨{ commits := commits, outcome := .ok pos }, ?_, ?_⟩
        · rw [publishFrom, if_pos finished]
        · exact prefixes.ended within ⟨rfl, .inl (by omega)⟩
      rcases publishFrom_succ finished with ⟨invalid, ended⟩ |
        ⟨batch, error, valid, raises, ended⟩ |
        ⟨batch, view, filled, n, valid, viewed, batchCount, filling, goesOn⟩
      · exact ⟨_, ended, prefixes.ended within ⟨rfl, .inr invalid⟩⟩
      · have left : remaining = total - pos := by
          omega
        rw [left] at raises
        exact ⟨_, ended,
          prefixes.ended within ⟨by omega, batch, valid, raises⟩⟩
      · have count : view.count = batch.capacity := by
          rw [(WriterBatch.asNumpy_ok viewed).2]
          rfl
        have inBatch : n ≤ batch.capacity := by
          rw [batchCount, count]
          exact Nat.min_le_left _ _
        have inRest : n ≤ remaining := batchCount ▸ Nat.min_le_right _ _
        have some : 1 ≤ n := by
          rw [batchCount, count]
          exact Nat.le_min.mpr ⟨batch.positive, Nat.pos_of_ne_zero finished⟩
        have longer := prefixes.snoc
          { first := pos, count := n, view := filled } rfl
          ⟨batch, view, valid, viewed, some, inBatch, filling⟩
        have fewer : remaining - n < fuel := by
          omega
        have restAfter : pos + n + (remaining - n) = total := by
          omega
        have result := inductionHypothesis fewer restAfter longer
          (Nat.le_of_add_right_le (Nat.le_of_eq restAfter))
        rw [List.length_append, List.length_singleton] at result
        rwa [goesOn]

variable (types assign writer)

/-- The call returns, and commits a prefix of the rows. -/
theorem publishDataframe_prefix (total : Nat) :
    ∃ result, publishDataframe types assign writer total = some result ∧
      PublishesPrefix types assign writer total result := by
  have start : CommitsPrefix types assign writer [] 0 := {
    filled := by
      intro call commit commitAt
      cases commitAt
    rows := rfl
    progress := Nat.le_refl 0 }
  unfold publishDataframe
  by_cases empty : total = 0
  · rw [if_pos empty]
    refine ⟨_, rfl, start.ended (Nat.zero_le total) ⟨rfl, .inl ?_⟩⟩
    exact empty.symm
  · rw [if_neg empty]
    exact publishFrom_prefix (Nat.lt_succ_self total) (Nat.zero_add total)
      start

variable {types assign writer}

/-- What every successful slice assignment puts into record `i` for row
`pos + i` is what the call commits as record `pos + i`. -/
theorem PublishesPrefix.records_forall {P : Nat → List UInt8 → Prop}
    {total : Nat} {result : PublishResult}
    (prefixes : PublishesPrefix types assign writer total result)
    (assigned : ∀ (batch : WriterBatch rule) view pos n filled,
      batch.asNumpy types = .ok view → n ≤ view.count → pos + n ≤ total →
      assign view pos n = .ok filled →
        filled.count = view.count ∧
          ∀ i < n, ∀ record, filled.records[i]? = some record →
            P (pos + i) record) :
    result.records.length = result.committed ∧
      ∀ (k : Nat) record, result.records[k]? = some record → P k record := by
  have all : List.Forall₂ P (List.range result.committed) result.records := by
    rw [← prefixes.rows]
    apply forall₂_flatMap
    intro commit member
    rcases List.getElem?_of_mem member with ⟨call, commitAt⟩
    rcases prefixes.filled call commit commitAt with
      ⟨batch, view, _, viewed, some, inBatch, filling⟩
    have inView : commit.count ≤ view.count := by
      rw [(WriterBatch.asNumpy_ok viewed).2]
      exact inBatch
    have inInput : commit.first + commit.count ≤ total := by
      have last : commit.first + (commit.count - 1) ∈
          List.range result.committed := by
        rw [← prefixes.rows]
        refine List.mem_flatMap.mpr ⟨commit, member, ?_⟩
        exact List.mem_range'_1.mpr ⟨by omega, by omega⟩
      have inPrefix := List.mem_range.mp last
      have within := prefixes.within
      omega
    rcases assigned batch view _ _ _ viewed inView inInput filling with
      ⟨filledCount, holds⟩
    have published : commit.records.length = commit.count :=
      commit.length_records (filledCount ▸ inView)
    apply List.forall₂_of_length_eq_of_get
    · rw [published, Commit.rows, List.length_range']
    · intro i inRows inRecords
      have inCommit : i < commit.count := published ▸ inRecords
      simp only [Commit.rows, List.get_eq_getElem, List.getElem_range',
        Nat.one_mul]
      apply holds i inCommit
      rw [← List.getElem?_take_of_lt inCommit]
      exact List.getElem?_eq_getElem inRecords
  refine ⟨by rw [← all.length_eq, List.length_range], ?_⟩
  intro k record recordAt
  rcases List.getElem?_eq_some_iff.mp recordAt with ⟨inRecords, rfl⟩
  have pair := all.get (by rw [all.length_eq]; exact inRecords) inRecords
  simpa using pair

end Loop

/-- `publish_dataframe` commits a prefix of the rows, whatever the assignment
does; with numpy's assignment record `k` of what it has published is stored
from row `k`. -/
theorem publish_commits_prefix (types : CycTypes) (rule : RecRule)
    (writer : Nat → Option (WriterBatch rule)) :
    (∀ assign total, ∃ result,
      publishDataframe types assign writer total = some result ∧
        PublishesPrefix types assign writer total result) ∧
      ∀ (numpy : NumpyCast) (input : ColumnArray), ∃ result,
        publishDataframe types (assignSlice numpy input) writer
            input.rows.length = some result ∧
          PublishesPrefix types (assignSlice numpy input) writer
            input.rows.length result ∧
          result.records.length = result.committed ∧
          ∀ (k : Nat) (record : List UInt8),
            result.records[k]? = some record →
              ∃ row blank : List _, input.rows[k]? = some row ∧
                blank.length = rule.recSize ∧
                record = storeFields numpy rule.dtype.fields input.columns row
                  blank := by
  constructor
  · intro assign total
    exact publishDataframe_prefix types assign writer total
  · intro numpy input
    rcases publishDataframe_prefix types (assignSlice numpy input) writer
      input.rows.length with ⟨result, returned, prefixes⟩
    refine ⟨result, returned, prefixes, prefixes.records_forall ?_⟩
    intro batch view pos n filled viewed room left filling
    exact assignSlice_records viewed room left filling

end CycFlowPy.Numpy
