/-
Module: CycFlowPy.Proofs.PublishByName
Purpose: `publish_dataframe` fills fields by name exactly when the columns
  stand in the order of the rule's fields and no two fields overlap.
Trusted boundary: none
Main exports: PublishesByName, publishesByName_of_ordered,
  PublishesByName.disjoint, PublishesByName.ordered, publish_by_name_iff
-/
import CycFlowPy.Proofs.PublishLoop

namespace CycFlowPy.Numpy

open Slices

variable {types : CycTypes} {numpy : NumpyCast}

/-! ### By name -/

theorem valueOf_eq {columns : List Column} {row : Row} {i : Nat}
    {column : Column} {value : List UInt8}
    (distinct : (columns.map (·.name)).Nodup)
    (columnAt : columns[i]? = some column) (valueAt : row[i]? = some value) :
    valueOf columns row column.name = some value := by
  induction columns generalizing row i with
  | nil => cases columnAt
  | cons first columns inductionHypothesis =>
      rw [List.map_cons, List.nodup_cons] at distinct
      rcases distinct with ⟨firstNew, distinct⟩
      cases row with
      | nil => cases valueAt
      | cons firstValue row =>
          cases i with
          | zero =>
              obtain rfl : first = column := by simpa using columnAt
              obtain rfl : firstValue = value := by simpa using valueAt
              simp [valueOf]
          | succ i =>
              have columnAfter : columns[i]? = some column := by
                simpa using columnAt
              have valueAfter : row[i]? = some value := by
                simpa using valueAt
              have other : first.name ≠ column.name := by
                intro same
                apply firstNew
                rw [same]
                exact List.mem_map_of_mem (List.mem_of_getElem? columnAfter)
              have found := inductionHypothesis distinct columnAfter valueAfter
              simpa [valueOf, other] using found

/-- Every field of the record has the value of the column of its name. -/
def ByName (rule : RecRule) (columns : List Column) (row : Row)
    (record : List UInt8) : Prop :=
  ∀ field ∈ rule.dtype.fields, valueOf columns row field.name =
    some (slice record field.offset field.size)

/-- For every input with these columns and all responses of the writer the
call ends, and each record it has committed is filled by name from its row. -/
def PublishesByName (types : CycTypes) (numpy : NumpyCast) (rule : RecRule)
    (columns : List Column) : Prop :=
  ∀ input : ColumnArray, input.columns = columns →
    ∀ writer : Nat → Option (WriterBatch rule),
      ∃ result, publishDataframe types (assignSlice numpy input) writer
          input.rows.length = some result ∧
        ∀ (k : Nat) record, result.records[k]? = some record →
          ∃ row : Row, input.rows[k]? = some row ∧
            ByName rule columns row record

/-- Columns in the order of the fields: what is stored is by name. -/
theorem byName_storeFields {rule : RecRule} {row : Row} {record : List UInt8}
    (distinct : (rule.dtype.fields.map (·.name)).Nodup)
    (inside : ∀ field ∈ rule.dtype.fields,
      field.offset + field.size ≤ record.length)
    (disjoint : rule.dtype.fields.Pairwise DtypeField.Disjoint)
    (typed : List.Forall₂
      (fun column value => value.length = Column.size column)
      (rule.dtype.fields.map DtypeField.column) row) :
    ByName rule (rule.dtype.fields.map DtypeField.column) row
      (storeFields numpy rule.dtype.fields
        (rule.dtype.fields.map DtypeField.column) row record) := by
  intro field member
  rcases List.getElem?_of_mem member with ⟨i, fieldAt⟩
  have columnAt : (rule.dtype.fields.map DtypeField.column)[i]? =
      some field.column := by
    rw [List.getElem?_map, fieldAt]
    rfl
  have lengths := typed.length_eq
  have inRow : i < row.length := by
    rw [← lengths]
    exact (List.getElem?_eq_some_iff.mp columnAt).1
  have valueAt : row[i]? = some row[i] := List.getElem?_eq_getElem inRow
  have width : (row[i]).length = field.size := by
    have pair := typed.get (by rwa [lengths]) inRow
    have same := (List.getElem?_eq_some_iff.mp columnAt).2
    simp only [List.get_eq_getElem, same] at pair
    exact pair
  have columnDistinct : ((rule.dtype.fields.map DtypeField.column).map
      (·.name)).Nodup := by
    rw [List.map_map]
    exact distinct
  rw [storeFields_read inside disjoint fieldAt columnAt valueAt,
    numpy.same field.column field row[i] rfl rfl width]
  exact valueOf_eq columnDistinct columnAt valueAt

/-- It is enough that every successful slice assignment fills by name. -/
theorem publishesByName_of_assigned {rule : RecRule} {columns : List Column}
    (assigned : ∀ input : ColumnArray, input.columns = columns →
      ∀ (batch : WriterBatch rule) view pos n filled,
        batch.asNumpy types = .ok view → n ≤ view.count →
        pos + n ≤ input.rows.length →
        assignSlice numpy input view pos n = .ok filled →
          filled.count = view.count ∧
            ∀ i < n, ∀ record, filled.records[i]? = some record →
              ∃ row : Row, input.rows[pos + i]? = some row ∧
                ByName rule columns row record) :
    PublishesByName types numpy rule columns := by
  intro input ofColumns writer
  rcases publishDataframe_prefix types (assignSlice numpy input) writer
    input.rows.length with ⟨result, returned, prefixes⟩
  refine ⟨result, returned, ?_⟩
  exact (prefixes.records_forall (assigned input ofColumns)).2

theorem publishesByName_of_ordered {rule : RecRule}
    (disjoint : rule.dtype.fields.Pairwise DtypeField.Disjoint) :
    PublishesByName types numpy rule
      (rule.dtype.fields.map DtypeField.column) := by
  apply publishesByName_of_assigned
  intro input columns batch view pos n filled viewed room left filling
  rcases assignSlice_records viewed room left filling with ⟨count, contents⟩
  refine ⟨count, ?_⟩
  intro i inSlice record recordAt
  rcases contents i inSlice record recordAt with
    ⟨row, blank, rowAt, length, rfl⟩
  have built := (WriterBatch.asNumpy_ok viewed).1
  rcases dtypeFromRule_eq_ok_iff.mp built with ⟨_, distinct, inside⟩
  have typed := input.typed row (List.mem_of_getElem? rowAt)
  rw [columns] at typed ⊢
  refine ⟨row, rowAt, byName_storeFields distinct ?_ disjoint typed⟩
  rw [length]
  exact inside

/-- Without a dtype for the rule nothing is committed. -/
theorem publishesByName_of_not_built {rule : RecRule} {columns : List Column}
    (refused : dtypeFromRule types rule ≠ .ok rule.dtype) :
    PublishesByName types numpy rule columns := by
  apply publishesByName_of_assigned
  intro input _ batch view pos n filled viewed
  exact absurd (WriterBatch.asNumpy_ok viewed).1 refused

/-! ### Why the order matters -/

/-- The row whose value in a column repeats the byte of the column's name. -/
def fillRow (columns : List Column) (fill : String → UInt8) : Row :=
  columns.map fun column => List.replicate column.size (fill column.name)

/-- The input with this one row. -/
def fillInput (columns : List Column) (fill : String → UInt8) :
    ColumnArray where
  columns := columns
  rows := [fillRow columns fill]
  typed := by
    intro row member
    obtain rfl := List.mem_singleton.mp member
    simp [fillRow, List.forall₂_map_right_iff, List.forall₂_same]

theorem valueOf_fillRow {columns : List Column} (fill : String → UInt8)
    (distinct : (columns.map (·.name)).Nodup) {column : Column}
    (member : column ∈ columns) :
    valueOf columns (fillRow columns fill) column.name =
      some (List.replicate column.size (fill column.name)) := by
  rcases List.getElem?_of_mem member with ⟨i, columnAt⟩
  apply valueOf_eq distinct columnAt
  rw [fillRow, List.getElem?_map, columnAt]
  rfl

/-- A batch with room for one record. -/
def oneRecord (rule : RecRule) : WriterBatch rule where
  rule := rule
  capacity := 1
  data := List.replicate (1 * rule.recSize) 0
  sized := List.length_replicate
  ofRule := rfl
  positive := Nat.le_refl 1

/-- A call with one row and a writer with room for it commits one record. -/
theorem publish_oneRecord (numpy : NumpyCast) {rule : RecRule}
    (built : dtypeFromRule types rule = .ok rule.dtype)
    {columns : List Column}
    (lengths : columns.length = rule.dtype.fields.length)
    (fill : String → UInt8) :
    ∃ result blank,
      publishDataframe types (assignSlice numpy (fillInput columns fill))
        (fun _ => some (oneRecord rule)) 1 = some result ∧
      blank.length = rule.recSize ∧
      result.records[0]? = some (storeFields numpy rule.dtype.fields columns
        (fillRow columns fill) blank) := by
  have viewed : (oneRecord rule).asNumpy types =
      .ok (rule.view (oneRecord rule).data 1) := by
    unfold WriteBatch.asNumpy viewStructured
    rw [show (oneRecord rule).rule = rule from rfl, built]
    rfl
  obtain ⟨filled, filling⟩ : ∃ filled, assignSlice numpy
      (fillInput columns fill) (rule.view (oneRecord rule).data 1) 0 1 =
        .ok filled :=
    ⟨_, if_pos lengths⟩
  rcases assignSlice_records viewed (Nat.le_refl 1) (Nat.le_refl 1) filling
    with ⟨count, contents⟩
  have one : filled.records.length = 1 := by
    rw [StructuredArray.length_records]
    exact count
  have recordAt : filled.records[0]? = some filled.records[0] :=
    List.getElem?_eq_getElem (one ▸ Nat.zero_lt_one)
  rcases contents 0 Nat.zero_lt_one _ recordAt with
    ⟨row, blank, rowAt, length, recordIs⟩
  obtain rfl : fillRow columns fill = row := Option.some.inj rowAt
  refine ⟨{ commits := [{ first := 0, count := 1, view := filled }]
            outcome := .ok 1 }, blank, ?_, length, ?_⟩
  · unfold publishDataframe
    rw [if_neg Nat.one_ne_zero, publishFrom, if_neg Nat.one_ne_zero]
    simp only [viewed]
    rw [show min (rule.view (oneRecord rule).data 1).count 1 = 1 from rfl,
      filling]
    rfl
  · simp only [PublishResult.records, Commit.records, List.flatMap_singleton]
    rw [List.getElem?_take_of_lt Nat.zero_lt_one, recordAt, recordIs]
    rfl

/-- What filling by name demands of the one record. -/
theorem PublishesByName.filled {rule : RecRule} {columns : List Column}
    (byName : PublishesByName types numpy rule columns)
    (built : dtypeFromRule types rule = .ok rule.dtype)
    (matching : columns.Perm (rule.dtype.fields.map DtypeField.column))
    (fill : String → UInt8) :
    ∃ blank : List UInt8, blank.length = rule.recSize ∧
      ∀ field ∈ rule.dtype.fields,
        slice (storeFields numpy rule.dtype.fields columns
          (fillRow columns fill) blank) field.offset field.size =
            List.replicate field.size (fill field.name) := by
  have distinct : (columns.map (·.name)).Nodup := by
    rw [(matching.map _).nodup_iff, List.map_map]
    exact (dtypeFromRule_eq_ok_iff.mp built).2.1
  have lengths : columns.length = rule.dtype.fields.length := by
    rw [matching.length_eq, List.length_map]
  rcases publish_oneRecord numpy built lengths fill with
    ⟨result, blank, published, length, recordAt⟩
  rcases byName (fillInput columns fill) rfl (fun _ => some (oneRecord rule))
    with ⟨same, publishedSame, records⟩
  obtain rfl : result = same :=
    Option.some.inj (published.symm.trans publishedSame)
  rcases records 0 _ recordAt with ⟨row, rowAt, rowByName⟩
  obtain rfl : fillRow columns fill = row := Option.some.inj rowAt
  refine ⟨blank, length, ?_⟩
  intro field member
  have column : field.column ∈ columns :=
    matching.mem_iff.mpr (List.mem_map_of_mem member)
  have value := rowByName field member
  rw [show field.name = field.column.name from rfl,
    valueOf_fillRow fill distinct column] at value
  exact (Option.some.inj value).symm

/-- Two fields that share a byte cannot both have their own values. -/
theorem PublishesByName.disjoint {rule : RecRule} {columns : List Column}
    (byName : PublishesByName types numpy rule columns)
    (built : dtypeFromRule types rule = .ok rule.dtype)
    (matching : columns.Perm (rule.dtype.fields.map DtypeField.column)) :
    rule.dtype.fields.Pairwise DtypeField.Disjoint := by
  have distinct := (dtypeFromRule_eq_ok_iff.mp built).2.1
  apply distinct.of_map.pairwise_of_forall_ne
  intro field member other otherMember different
  by_contra overlap
  have otherName : other.name ≠ field.name := by
    intro same
    exact different
      (List.inj_on_of_nodup_map distinct member otherMember same.symm)
  have size := RecRule.field_size_pos member
  have otherSize := RecRule.field_size_pos otherMember
  rcases byName.filled built matching
      (fun name => if name = field.name then 0 else 1) with
    ⟨blank, _, filled⟩
  have zeros := filled field member
  have ones := filled other otherMember
  rw [if_pos rfl] at zeros
  rw [if_neg otherName] at ones
  -- the first byte that both fields have
  let shared := max field.offset other.offset
  have inField : shared - field.offset < field.size := by
    unfold DtypeField.Disjoint at overlap
    omega
  have inOther : shared - other.offset < other.size := by
    unfold DtypeField.Disjoint at overlap
    omega
  have zero := congrArg (·[shared - field.offset]?) zeros
  have one := congrArg (·[shared - other.offset]?) ones
  simp only [getElem?_slice, if_pos inField, List.getElem?_replicate_of_lt
    inField, Nat.add_sub_of_le (Nat.le_max_left _ _), shared] at zero
  simp only [getElem?_slice, if_pos inOther, List.getElem?_replicate_of_lt
    inOther, Nat.add_sub_of_le (Nat.le_max_right _ _), shared] at one
  rw [zero] at one
  cases one

/-- A column that stands in the place of a field of another name gives its
value to that field. -/
theorem PublishesByName.ordered {rule : RecRule} {columns : List Column}
    (byName : PublishesByName types numpy rule columns)
    (built : dtypeFromRule types rule = .ok rule.dtype)
    (matching : columns.Perm (rule.dtype.fields.map DtypeField.column)) :
    columns = rule.dtype.fields.map DtypeField.column := by
  have disjoint := byName.disjoint built matching
  rcases dtypeFromRule_eq_ok_iff.mp built with ⟨_, distinct, inside⟩
  apply List.ext_getElem matching.length_eq
  intro i inColumns inFields
  by_contra misplaced
  rw [List.length_map] at inFields
  let field := rule.dtype.fields[i]
  let column := columns[i]
  have fieldAt : rule.dtype.fields[i]? = some field :=
    List.getElem?_eq_getElem inFields
  have columnAt : columns[i]? = some column :=
    List.getElem?_eq_getElem inColumns
  have fieldMember := List.mem_of_getElem? fieldAt
  have otherName : column.name ≠ field.name := by
    intro same
    rcases List.mem_map.mp
      (matching.mem_iff.mp (List.mem_of_getElem? columnAt)) with
      ⟨source, sourceMember, sourceIs⟩
    have sameName : source.name = field.name := by
      rw [← same, ← sourceIs]
      rfl
    have sameField : source = field :=
      List.inj_on_of_nodup_map distinct sourceMember fieldMember sameName
    apply misplaced
    rw [List.getElem_map]
    exact sourceIs.symm.trans (congrArg _ sameField)
  -- whatever the cast makes of zeros, the column of the field's name differs
  obtain ⟨fill, differs⟩ : ∃ fill : UInt8,
      numpy.cast column field (List.replicate column.size 0) ≠
        List.replicate field.size fill := by
    by_cases zero : numpy.cast column field (List.replicate column.size 0) =
        List.replicate field.size 0
    · refine ⟨1, ?_⟩
      rw [zero]
      intro same
      have bytes := List.replicate_inj.mp same
      have size := RecRule.field_size_pos fieldMember
      rcases bytes.2 with none | equal
      · omega
      · cases equal
    · exact ⟨0, zero⟩
  rcases byName.filled built matching
      (fun name => if name = field.name then fill else 0) with
    ⟨blank, length, filled⟩
  have value := filled field fieldMember
  have valueAt : (fillRow columns
      (fun name => if name = field.name then fill else 0))[i]? =
        some (List.replicate column.size 0) := by
    rw [fillRow, List.getElem?_map, columnAt]
    simp [otherName]
  rw [← length] at inside
  rw [storeFields_read inside disjoint fieldAt columnAt valueAt,
    if_pos rfl] at value
  exact differs value

/-- For a rule and columns that match its fields in names and types,
`publish_dataframe` fills the fields by name whatever the rows and the batches
are, if and only if the columns stand in the order of the fields and no two
fields overlap, or there is no dtype for the rule. -/
theorem publish_by_name_iff (types : CycTypes) (numpy : NumpyCast)
    {rule : RecRule} {columns : List Column}
    (matching : columns.Perm (rule.dtype.fields.map DtypeField.column)) :
    PublishesByName types numpy rule columns ↔
      ∀ dtype, dtypeFromRule types rule = .ok dtype →
        columns = dtype.fields.map DtypeField.column ∧
          dtype.fields.Pairwise DtypeField.Disjoint := by
  constructor
  · intro byName dtype built
    obtain rfl := (dtypeFromRule_eq_ok_iff.mp built).1
    exact ⟨byName.ordered built matching, byName.disjoint built matching⟩
  · intro sound
    by_cases built : dtypeFromRule types rule = .ok rule.dtype
    · rw [(sound _ built).1]
      exact publishesByName_of_ordered (sound _ built).2
    · exact publishesByName_of_not_built built

/-- The rule that `make_rule([("X", Int8), ("Y", Double)], align=True)` lays
out: behind the time stamp the wider attribute comes first. -/
def alignedRule : RecRule where
  attributes :=
    [{ name := "TimeStamp", type := .dtDouble, count := 1, offset := 0 },
      { name := "Y", type := .dtDouble, count := 1, offset := 8 },
      { name := "X", type := .dtInt8, count := 1, offset := 16 }]
  recSize := 24

def columnTimeStamp : Column :=
  { name := "TimeStamp", format := .f8, subarray := none }

def columnX : Column := { name := "X", format := .i1, subarray := none }

def columnY : Column := { name := "Y", format := .f8, subarray := none }

/-- The bytes of the double 1.0. -/
def doubleOne : List UInt8 := [0, 0, 0, 0, 0, 0, 0xF0, 0x3F]

/-- numpy's casts between types of the integers 0 and the doubles 1.0, to
fields of the other type: 0 becomes 0.0 and 1.0 becomes 1. -/
def castZeroOne : NumpyCast where
  cast column field value :=
    if column.format = field.format ∧ column.subarray = field.subarray ∧
        value.length = field.size then value
    else if value = doubleOne ∧ field.size = 1 then [1]
    else List.replicate field.size 0
  width := by
    intro column field value
    split
    case isTrue same => exact same.2.2
    case isFalse =>
      split
      case isTrue byte => exact byte.2.symm
      case isFalse => exact List.length_replicate
  same := by
    intro column field value format subarray length
    exact if_pos ⟨format, subarray, length⟩

theorem publish_by_name_iff_aligned :
    PublishesByName types64 castZeroOne alignedRule
      [columnTimeStamp, columnY, columnX] := by
  have laidOut : alignedRule.LaidOut types64 :=
    ⟨by decide, 0, rfl, rfl, rfl, show 17 ≤ 24 by decide⟩
  have positive : ∀ attr ∈ alignedRule.mapped, 1 ≤ attr.count := by
    decide
  have matching : [columnTimeStamp, columnY, columnX].Perm
      (alignedRule.dtype.fields.map DtypeField.column) :=
    .refl _
  apply (publish_by_name_iff types64 castZeroOne matching).mpr
  intro dtype built
  obtain rfl := (dtypeFromRule_eq_ok_iff.mp built).1
  exact ⟨rfl, laidOut.fields_disjoint positive⟩

/-- One row with time stamp 0.0, X = 0 and Y = 1.0, in the order in which the
attributes were given to `make_rule`. -/
def declaredOrder : ColumnArray where
  columns := [columnTimeStamp, columnX, columnY]
  rows := [[List.replicate 8 0, [0], doubleOne]]
  typed := by
    intro row member
    obtain rfl := List.mem_singleton.mp member
    exact .cons rfl (.cons rfl (.cons rfl .nil))

/-- It is committed as Y = 0.0 and X = 1. -/
theorem publish_swaps_columns :
    (publishDataframe types64 (assignSlice castZeroOne declaredOrder)
        (fun _ => some (oneRecord alignedRule)) 1).map
          PublishResult.records =
      some [List.replicate 16 0 ++ [1, 0, 0, 0, 0, 0, 0, 0]] ∧
    ¬ PublishesByName types64 castZeroOne alignedRule
      declaredOrder.columns := by
  constructor
  · decide
  · intro byName
    have built : dtypeFromRule types64 alignedRule =
        .ok alignedRule.dtype := by
      decide
    have matching : declaredOrder.columns.Perm
        (alignedRule.dtype.fields.map DtypeField.column) := by
      decide
    exact absurd (byName.ordered built matching) (by decide)

end CycFlowPy.Numpy
