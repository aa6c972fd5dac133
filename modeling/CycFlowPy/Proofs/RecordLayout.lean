/-
Module: CycFlowPy.Proofs.RecordLayout
Purpose: The dtype of a laid-out rule has one field for every mappable
  attribute, over exactly the attribute's bytes, and elements of different
  attributes, rows or positions never overlap.
Trusted boundary: none
Main exports: formatOf, PAttr.field, RecRule.dtype, dtypeFromRule_eq,
  DtypeField.Disjoint, fields_disjoint, PAttr.Covers, cells_disjoint, view_read
-/
import CycFlowPy.Model.NumpyBridge
import Mathlib.Data.List.Nodup

namespace CycFlowPy.Numpy

open Slices

variable {types : CycTypes}

/-! ### Consecutive attributes -/

theorem Consecutive.start_le {attrs : List PAttr} {start finish : Nat}
    (consecutive : Consecutive types start attrs finish) : start ≤ finish := by
  induction attrs generalizing start with
  | nil => exact consecutive
  | cons attr attrs inductionHypothesis =>
      exact Nat.le_trans (Nat.le_add_right _ _)
        (inductionHypothesis consecutive.2)

theorem Consecutive.bounds {attrs : List PAttr} {start finish : Nat}
    (consecutive : Consecutive types start attrs finish) {attr : PAttr}
    (member : attr ∈ attrs) :
    start ≤ attr.offset ∧ attr.offset + attr.getSize types ≤ finish := by
  induction attrs generalizing start with
  | nil => cases member
  | cons first attrs inductionHypothesis =>
      rcases consecutive with ⟨offset, rest⟩
      rcases List.mem_cons.mp member with rfl | later
      · rw [offset]
        exact ⟨Nat.le_refl _, rest.start_le⟩
      · rcases inductionHypothesis rest later with ⟨after, inside⟩
        exact ⟨Nat.le_trans (Nat.le_add_right _ _) after, inside⟩

/-- Attributes of different names do not share a byte. -/
theorem Consecutive.disjoint {attrs : List PAttr} {start finish : Nat}
    (consecutive : Consecutive types start attrs finish)
    {attr other : PAttr} (member : attr ∈ attrs) (otherMember : other ∈ attrs)
    (different : attr ≠ other) :
    attr.offset + attr.getSize types ≤ other.offset ∨
      other.offset + other.getSize types ≤ attr.offset := by
  induction attrs generalizing start with
  | nil => cases member
  | cons first attrs inductionHypothesis =>
      rcases consecutive with ⟨offset, rest⟩
      rcases List.mem_cons.mp member with rfl | later
      · rcases List.mem_cons.mp otherMember with rfl | otherLater
        · exact absurd rfl different
        · left
          rw [offset]
          exact (rest.bounds otherLater).1
      · rcases List.mem_cons.mp otherMember with rfl | otherLater
        · right
          rw [offset]
          exact (rest.bounds later).1
        · exact inductionHypothesis rest later otherLater

/-- The byte at `offset` of a record is one of the attribute's. -/
def PAttr.Covers (types : CycTypes) (attr : PAttr) (offset : Nat) : Prop :=
  attr.offset ≤ offset ∧ offset < attr.offset + attr.getSize types

theorem RecRule.LaidOut.eq_of_covers {rule : RecRule}
    (laidOut : rule.LaidOut types) {attr other : PAttr}
    (member : attr ∈ rule.attributes) (otherMember : other ∈ rule.attributes)
    {offset : Nat} (covers : attr.Covers types offset)
    (otherCovers : other.Covers types offset) : attr = other := by
  rcases laidOut.consecutive with ⟨start, consecutive⟩
  by_contra different
  rcases consecutive.disjoint member otherMember different with before | after
  · exact absurd (Nat.lt_of_lt_of_le covers.2 before)
      (Nat.not_lt.mpr otherCovers.1)
  · exact absurd (Nat.lt_of_lt_of_le otherCovers.2 after)
      (Nat.not_lt.mpr covers.1)

theorem RecRule.LaidOut.eq_of_name {rule : RecRule}
    (laidOut : rule.LaidOut types) {attr other : PAttr}
    (member : attr ∈ rule.attributes) (otherMember : other ∈ rule.attributes)
    (same : attr.name = other.name) : attr = other :=
  List.inj_on_of_nodup_map laidOut.distinct member otherMember same

/-! ### The dtype of a rule -/

/-- The format of a mappable type; `numpyFormatFor` refuses the others. -/
def formatOf (t : DataType) : NumpyFormat :=
  match numpyFormatFor (fun _ => "") t with
  | .ok format => format
  | .error _ => .bytes1

theorem numpyFormatFor_mappable {t : DataType}
    (mappable : isDtypeMappable t = true)
    (dataTypeToString : DataType → String) :
    numpyFormatFor dataTypeToString t = .ok (formatOf t) := by
  cases t with
  | dtUndefine | dtVoid | dtPtr => cases mappable
  | dtBool | dtChar | dtInt8 | dtUInt8 | dtInt16 | dtUInt16 | dtInt32
  | dtUInt32 | dtInt64 | dtUInt64 | dtFloat | dtDouble => rfl

/-- The strings of two formats differ, so a format stands for its string. -/
theorem NumpyFormat.code_injective : Function.Injective NumpyFormat.code := by
  intro format other same
  cases format <;> cases other <;> first | rfl | exact absurd same (by decide)

theorem itemSize_formatOf {t : DataType} (mappable : isDtypeMappable t = true)
    (types : CycTypes) :
    (formatOf t).itemSize = types.getTypeSize t :=
  (types.sizeOfFormat t (formatOf t)
    (numpyFormatFor_mappable mappable types.dataTypeToString)).symm

/-- Type tables with pointers of eight bytes. -/
def types64 : CycTypes where
  getTypeSize
    | .dtPtr => 8
    | .dtUndefine | .dtVoid => 0
    | t => (formatOf t).itemSize
  dataTypeToString
    | .dtPtr => "Ptr"
    | .dtVoid => "Void"
    | _ => "Undefine"
  sizeOfFormat := by
    intro t format found
    cases t with
    | dtUndefine | dtVoid | dtPtr => cases found
    | dtBool | dtChar | dtInt8 | dtUInt8 | dtInt16 | dtUInt16 | dtInt32
    | dtUInt32 | dtInt64 | dtUInt64 | dtFloat | dtDouble =>
        cases found
        rfl

/-- Records of one byte. -/
def byteRule : RecRule where
  attributes := [{ name := "B", type := .dtUInt8, count := 1, offset := 0 }]
  recSize := 1

theorem byteRule_laidOut : byteRule.LaidOut types64 :=
  ⟨by decide, 0, rfl, show 1 ≤ 1 by decide⟩

def PAttr.field (attr : PAttr) : DtypeField :=
  attr.toField (formatOf attr.type)

@[simp] theorem PAttr.field_name (attr : PAttr) :
    attr.field.name = attr.name := rfl

@[simp] theorem PAttr.field_offset (attr : PAttr) :
    attr.field.offset = attr.offset := rfl

theorem PAttr.field_itemSize {attr : PAttr}
    (mappable : isDtypeMappable attr.type = true) (types : CycTypes) :
    attr.field.format.itemSize = types.getTypeSize attr.type :=
  itemSize_formatOf mappable types

theorem PAttr.field_count {attr : PAttr} (positive : 1 ≤ attr.count) :
    attr.field.count = attr.count := by
  unfold DtypeField.count PAttr.field PAttr.toField
  by_cases many : 1 < attr.count
  · simp only [many, if_true, Option.getD_some]
  · simp only [many, if_false, Option.getD_none]
    omega

theorem PAttr.field_size {attr : PAttr}
    (mappable : isDtypeMappable attr.type = true) (positive : 1 ≤ attr.count)
    (types : CycTypes) : attr.field.size = attr.getSize types := by
  rw [DtypeField.size, PAttr.getSize, field_itemSize mappable types,
    field_count positive]

/-- The attributes that become fields. -/
def RecRule.mapped (rule : RecRule) : List PAttr :=
  rule.attributes.filter fun attr => isDtypeMappable attr.type

theorem RecRule.mem_mapped {rule : RecRule} {attr : PAttr} :
    attr ∈ rule.mapped ↔
      attr ∈ rule.attributes ∧ isDtypeMappable attr.type = true :=
  List.mem_filter

/-- One field for every mappable attribute, in the order of the attributes,
and the record size of the rule. -/
def RecRule.dtype (rule : RecRule) : Dtype where
  fields := rule.mapped.map PAttr.field
  itemSize := rule.recSize

theorem dtypeFields_eq (types : CycTypes) (attrs : List PAttr) :
    dtypeFields types attrs =
      .ok ((attrs.filter fun attr => isDtypeMappable attr.type).map
        PAttr.field) := by
  induction attrs with
  | nil => rfl
  | cons attr attrs inductionHypothesis =>
      cases mappable : isDtypeMappable attr.type with
      | false => simpa [dtypeFields, mappable] using inductionHypothesis
      | true =>
          have found := numpyFormatFor_mappable mappable types.dataTypeToString
          simp only [dtypeFields, mappable, found, inductionHypothesis,
            List.filter_cons, if_true]
          rfl

/-- `dtype_from_rule` succeeds when the names of the fields differ and no field
reaches past the record, and raises numpy's `ValueError` otherwise. -/
theorem dtypeFromRule_eq_ok_iff {rule : RecRule} {dtype : Dtype} :
    dtypeFromRule types rule = .ok dtype ↔
      rule.dtype = dtype ∧ (rule.dtype.fields.map (·.name)).Nodup ∧
        ∀ field ∈ rule.dtype.fields,
          field.offset + field.size ≤ rule.recSize := by
  have checked : dtypeFromRule types rule =
      npDtype rule.dtype.fields rule.recSize := by
    unfold dtypeFromRule
    rw [dtypeFields_eq]
    rfl
  rw [checked, npDtype]
  constructor
  · intro accepted
    split at accepted
    case isTrue sound =>
      exact ⟨Except.ok.inj accepted, sound⟩
    case isFalse => cases accepted
  · rintro ⟨rfl, sound⟩
    exact if_pos sound

theorem RecRule.LaidOut.fields_distinct {rule : RecRule}
    (laidOut : rule.LaidOut types) :
    (rule.dtype.fields.map (·.name)).Nodup := by
  simp only [RecRule.dtype, List.map_map]
  exact laidOut.distinct.sublist (List.filter_sublist.map _)

/-- `dtype_from_rule` succeeds on a laid-out rule without empty mappable
attributes. -/
theorem RecRule.LaidOut.dtypeFromRule_eq {rule : RecRule}
    (laidOut : rule.LaidOut types)
    (positive : ∀ attr ∈ rule.mapped, 1 ≤ attr.count) :
    dtypeFromRule types rule = .ok rule.dtype := by
  rw [dtypeFromRule_eq_ok_iff]
  refine ⟨rfl, laidOut.fields_distinct, ?_⟩
  intro field member
  rcases List.mem_map.mp member with ⟨attr, mapped, rfl⟩
  rcases RecRule.mem_mapped.mp mapped with ⟨inRule, mappable⟩
  rcases laidOut.consecutive with ⟨start, consecutive⟩
  rw [PAttr.field_size mappable (positive attr mapped) types]
  exact (consecutive.bounds inRule).2

theorem dtypeFromRule_eq {rule : RecRule} (laidOut : rule.LaidOut types)
    (positive : ∀ attr ∈ rule.attributes, 1 ≤ attr.count) :
    dtypeFromRule types rule = .ok rule.dtype :=
  laidOut.dtypeFromRule_eq fun attr mapped =>
    positive attr (RecRule.mem_mapped.mp mapped).1

/-- The two fields share no byte. -/
def DtypeField.Disjoint (field other : DtypeField) : Prop :=
  field.offset + field.size ≤ other.offset ∨
    other.offset + other.size ≤ field.offset

/-- The fields of a laid-out rule without empty mappable attributes never
overlap. -/
theorem RecRule.LaidOut.fields_disjoint {rule : RecRule}
    (laidOut : rule.LaidOut types)
    (positive : ∀ attr ∈ rule.mapped, 1 ≤ attr.count) :
    rule.dtype.fields.Pairwise DtypeField.Disjoint := by
  apply laidOut.fields_distinct.of_map.pairwise_of_forall_ne
  intro field member other otherMember different
  rcases List.mem_map.mp member with ⟨attr, mapped, rfl⟩
  rcases List.mem_map.mp otherMember with ⟨otherAttr, otherMapped, rfl⟩
  rcases RecRule.mem_mapped.mp mapped with ⟨inRule, mappable⟩
  rcases RecRule.mem_mapped.mp otherMapped with ⟨otherInRule, otherMappable⟩
  unfold DtypeField.Disjoint
  rw [PAttr.field_size mappable (positive attr mapped) types,
    PAttr.field_size otherMappable (positive otherAttr otherMapped) types]
  rcases laidOut.consecutive with ⟨start, consecutive⟩
  apply consecutive.disjoint inRule otherInRule
  rintro rfl
  exact different rfl

theorem NumpyFormat.itemSize_pos (format : NumpyFormat) :
    0 < format.itemSize := by
  cases format <;> decide

/-- Even the field of an empty attribute has an element. -/
theorem PAttr.field_count_pos (attr : PAttr) : 0 < attr.field.count := by
  unfold DtypeField.count PAttr.field PAttr.toField
  by_cases many : 1 < attr.count
  · simp only [many, if_true, Option.getD_some]
    exact Nat.zero_lt_of_lt many
  · simp [many]

theorem PAttr.field_size_pos (attr : PAttr) : 0 < attr.field.size :=
  Nat.mul_pos (NumpyFormat.itemSize_pos _) attr.field_count_pos

theorem RecRule.field_size_pos {rule : RecRule} {field : DtypeField}
    (member : field ∈ rule.dtype.fields) : 0 < field.size := by
  rcases List.mem_map.mp member with ⟨attr, _, rfl⟩
  exact attr.field_size_pos

/-- Looking up the name of a mappable attribute finds its field. -/
theorem RecRule.field?_eq {rule : RecRule}
    (distinct : (rule.dtype.fields.map (·.name)).Nodup) {attr : PAttr}
    (mapped : attr ∈ rule.mapped) :
    rule.dtype.field? attr.name = some attr.field := by
  have inFields : attr.field ∈ rule.dtype.fields := List.mem_map_of_mem mapped
  cases found : rule.dtype.field? attr.name with
  | none =>
      have absent := List.find?_eq_none.mp found attr.field inFields
      simp at absent
  | some field =>
      have name := List.find?_some found
      rw [decide_eq_true_eq] at name
      rw [List.inj_on_of_nodup_map distinct
        (List.mem_of_find?_eq_some found) inFields name]

theorem RecRule.LaidOut.field?_eq {rule : RecRule}
    (laidOut : rule.LaidOut types) {attr : PAttr}
    (mapped : attr ∈ rule.mapped) :
    rule.dtype.field? attr.name = some attr.field :=
  RecRule.field?_eq laidOut.fields_distinct mapped

/-! ### The bytes of one element -/

/-- The first byte of an element within its record. -/
def PAttr.elementOffset (types : CycTypes) (attr : PAttr) (element : Nat) :
    Nat :=
  attr.offset + element * types.getTypeSize attr.type

theorem PAttr.element_inside {attr : PAttr} {element : Nat}
    (inside : element < attr.count) (types : CycTypes) :
    attr.elementOffset types element + types.getTypeSize attr.type ≤
      attr.offset + attr.getSize types := by
  have fits : element * types.getTypeSize attr.type +
      types.getTypeSize attr.type ≤
        attr.count * types.getTypeSize attr.type := row_fits inside
  rw [PAttr.elementOffset, PAttr.getSize, Nat.mul_comm, Nat.add_assoc,
    Nat.mul_comm _ attr.count, Nat.mul_comm _ element]
  exact Nat.add_le_add_left fits _

theorem RecRule.LaidOut.element_inside {rule : RecRule}
    (laidOut : rule.LaidOut types) {attr : PAttr}
    (member : attr ∈ rule.attributes) {element : Nat}
    (inside : element < attr.count) :
    attr.elementOffset types element + types.getTypeSize attr.type ≤
      rule.recSize := by
  rcases laidOut.consecutive with ⟨start, consecutive⟩
  exact Nat.le_trans (attr.element_inside inside types)
    (consecutive.bounds member).2

/-- Two elements overlap only when row, field and position are the same. -/
theorem RecRule.LaidOut.cells_disjoint {rule : RecRule}
    (laidOut : rule.LaidOut types) {attr attr' : PAttr}
    (member : attr ∈ rule.attributes) (member' : attr' ∈ rule.attributes)
    {row row' element element' : Nat} (inside : element < attr.count)
    (inside' : element' < attr'.count)
    (different : ¬ (row = row' ∧ attr.name = attr'.name ∧
      element = element')) :
    row * rule.recSize + attr.elementOffset types element +
        types.getTypeSize attr.type ≤
      row' * rule.recSize + attr'.elementOffset types element' ∨
    row' * rule.recSize + attr'.elementOffset types element' +
        types.getTypeSize attr'.type ≤
      row * rule.recSize + attr.elementOffset types element := by
  by_cases sameRow : row = row'
  · subst sameRow
    by_cases sameField : attr.name = attr'.name
    · obtain rfl := laidOut.eq_of_name member member' sameField
      have otherElement : element ≠ element' := by
        rintro rfl
        exact different ⟨rfl, rfl, rfl⟩
      have apart : element * types.getTypeSize attr.type + 0 +
            types.getTypeSize attr.type ≤
          element' * types.getTypeSize attr.type + 0 ∨
          element' * types.getTypeSize attr.type + 0 +
            types.getTypeSize attr.type ≤
          element * types.getTypeSize attr.type + 0 :=
        rows_disjoint otherElement (by omega) (by omega)
      rcases apart with before | after
      · left
        simp only [PAttr.elementOffset]
        omega
      · right
        simp only [PAttr.elementOffset]
        omega
    · have otherAttr : attr ≠ attr' := by
        rintro rfl
        exact sameField rfl
      have fits := attr.element_inside inside types
      have fits' := attr'.element_inside inside' types
      have starts : attr.offset ≤ attr.elementOffset types element :=
        Nat.le_add_right _ _
      have starts' : attr'.offset ≤ attr'.elementOffset types element' :=
        Nat.le_add_right _ _
      rcases laidOut.consecutive with ⟨start, consecutive⟩
      rcases consecutive.disjoint member member' otherAttr with before | after
      · left
        omega
      · right
        omega
  · exact rows_disjoint sameRow (laidOut.element_inside member inside)
      (laidOut.element_inside member' inside')

/-! ### Arrays over the records of a rule -/

@[simp] theorem StructuredArray.length_records (array : StructuredArray) :
    array.records.length = array.count := by
  rw [StructuredArray.records, List.length_map, List.length_range]

/-- The array over the memory of `count` records of the rule. -/
def RecRule.view (rule : RecRule) (data : List UInt8) (count : Nat) :
    StructuredArray where
  dtype := rule.dtype
  count := count
  stride := rule.recSize
  data := data

theorem viewStructured_eq {rule : RecRule} (laidOut : rule.LaidOut types)
    (positive : ∀ attr ∈ rule.attributes, 1 ≤ attr.count)
    (data : List UInt8) (count : Nat) :
    viewStructured types rule data count = .ok (rule.view data count) := by
  unfold viewStructured
  rw [dtypeFromRule_eq laidOut positive]
  rfl

@[simp] theorem RecRule.view_records (rule : RecRule) (data : List UInt8)
    (count : Nat) :
    (rule.view data count).records = records data rule.recSize count := rfl

theorem RecRule.LaidOut.read_eq {rule : RecRule}
    (laidOut : rule.LaidOut types)
    (positive : ∀ attr ∈ rule.attributes, 1 ≤ attr.count) {attr : PAttr}
    (mapped : attr ∈ rule.mapped) {element : Nat}
    (inside : element < attr.count) (record : List UInt8) :
    rule.dtype.read record attr.name element =
      some (slice record (attr.elementOffset types element)
        (types.getTypeSize attr.type)) := by
  rcases RecRule.mem_mapped.mp mapped with ⟨member, mappable⟩
  have count := PAttr.field_count (positive attr member)
  have itemSize := PAttr.field_itemSize mappable types
  unfold Dtype.read
  rw [laidOut.field?_eq mapped]
  simp only [Option.bind_eq_bind, Option.bind_some, count, if_pos inside,
    itemSize, PAttr.field_offset]
  rfl

/-- An element of row `row` is a slice of the memory. -/
theorem RecRule.LaidOut.view_read {rule : RecRule}
    (laidOut : rule.LaidOut types)
    (positive : ∀ attr ∈ rule.attributes, 1 ≤ attr.count) {attr : PAttr}
    (mapped : attr ∈ rule.mapped) {element : Nat}
    (inside : element < attr.count) (data : List UInt8) {row count : Nat}
    (inRows : row < count) :
    (rule.view data count).read row attr.name element =
      some (slice data
        (row * rule.recSize + attr.elementOffset types element)
        (types.getTypeSize attr.type)) := by
  have within := laidOut.element_inside
    (RecRule.mem_mapped.mp mapped).1 inside
  calc
    (rule.view data count).read row attr.name element =
        rule.dtype.read (slice data (row * rule.recSize) rule.recSize)
          attr.name element := by
      simp [StructuredArray.read, StructuredArray.record, RecRule.view,
        inRows, RecRule.dtype]
    _ = some (slice (slice data (row * rule.recSize) rule.recSize)
          (attr.elementOffset types element)
          (types.getTypeSize attr.type)) :=
      laidOut.read_eq positive mapped inside _
    _ = _ := by
      rw [slice_slice within]

end CycFlowPy.Numpy
