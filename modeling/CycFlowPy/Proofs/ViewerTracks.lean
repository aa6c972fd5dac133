/-
Module: CycFlowPy.Proofs.ViewerTracks
Purpose: The viewer's tracks decompose a record: the specs name every element,
  word and named bit once, and each spec extracts its part from every batch
  whose dtype was built from the rule.
Trusted boundary: none
Main exports: BitAttr.specs, buildChannelSpecs_eq, Extracts, attr_extracts,
  tracks_decompose_record
-/
import CycFlowPy.Model.ViewerTracks
import CycFlowPy.Proofs.RecordLayout

namespace CycFlowPy.Viewer

open Numpy Slices

variable {types : CycTypes} {getName : Nat → Option String}

/-! ### The viewer's tables and the dtype's -/

theorem mem_numericTypes_iff {t : DataType} :
    t ∈ numericTypes ↔ isInteger t = true ∨ isFloating t = true := by
  cases t <;> decide

theorem mem_integerTypes_iff {t : DataType} :
    t ∈ integerTypes ↔ isInteger t = true := by
  cases t <;> decide

/-- Both components give a numeric type the same format. -/
theorem dtypeMap_eq {t : DataType} (numeric : t ∈ numericTypes) :
    dtypeMap t = some (formatOf t) := by
  revert numeric
  cases t <;> decide

theorem mappable_of_numeric {t : DataType} (numeric : t ∈ numericTypes) :
    isDtypeMappable t = true := by
  revert numeric
  cases t <;> decide

/-- The formats of integer types are those that can be shifted. -/
theorem signed_of_integer {t : DataType} (integer : t ∈ integerTypes) :
    ∃ signed, signed? (formatOf t) = some signed := by
  revert integer
  cases t <;> decide

/-! ### The specs of a rule -/

/-- The specs that one attribute adds. -/
def BitAttr.specs (getName : Nat → Option String) (attr : BitAttr) :
    List ChannelSpec :=
  if attr.type ∈ numericTypes then
    if 1 < attr.count then elementSpecs attr (formatOf attr.type)
    else if attr.hasBitFields ∧ attr.type ∈ integerTypes then
      wordSpec attr (formatOf attr.type) ::
        bitSpecs getName attr 0 attr.bitIds
    else [wordSpec attr (formatOf attr.type)]
  else []

theorem specsFrom_eq (attrs : List BitAttr) (specs : List ChannelSpec) :
    specsFrom getName attrs specs =
      some (specs ++ attrs.flatMap (BitAttr.specs getName)) := by
  induction attrs generalizing specs with
  | nil => simp [specsFrom]
  | cons attr attrs inductionHypothesis =>
      rw [List.flatMap_cons, ← List.append_assoc]
      unfold specsFrom BitAttr.specs
      by_cases numeric : attr.type ∈ numericTypes
      · simp only [numeric, not_true, if_false, if_true, dtypeMap_eq numeric,
          Option.bind_eq_bind, Option.bind_some]
        split
        · exact inductionHypothesis _
        · split
          · exact inductionHypothesis _
          · exact inductionHypothesis _
      · simp only [numeric, not_false_eq_true, if_true, if_false,
          List.append_nil]
        exact inductionHypothesis specs

theorem buildChannelSpecs_eq (rule : BitRule) :
    buildChannelSpecs getName rule =
      some (rule.attributes.flatMap (BitAttr.specs getName)) :=
  specsFrom_eq rule.attributes []

/-! ### Which parts they name -/

/-- The name and the part that a spec names. -/
def ChannelSpec.track (spec : ChannelSpec) : String × TrackPart :=
  (spec.fieldName, spec.part)

theorem elementSpecs_tracks (attr : BitAttr) (dtype : NumpyFormat) :
    (elementSpecs attr dtype).map ChannelSpec.track =
      (List.range attr.count).map fun i => (attr.name, .element i) := by
  unfold elementSpecs
  rw [List.map_map]
  rfl

/-- The bits that have a name, counted from position `pos` on. -/
theorem bitSpecs_tracks (attr : BitAttr) (pos : Nat) (bids : List Nat) :
    (bitSpecs getName attr pos bids).map ChannelSpec.track =
      ((List.range bids.length).filter fun i => bids[i]? ≠ some 0).map
        fun i => (attr.name, .bit (pos + i)) := by
  induction bids generalizing pos with
  | nil => rfl
  | cons bid bids inductionHypothesis =>
      have later : (((List.range bids.length).map Nat.succ).filter
          fun i => (bid :: bids)[i]? ≠ some 0).map
            (fun i => (attr.name, TrackPart.bit (pos + i))) =
          (bitSpecs getName attr (pos + 1) bids).map ChannelSpec.track := by
        rw [inductionHypothesis, List.filter_map, List.map_map]
        apply List.map_congr_left
        intro i _
        simp [Nat.add_assoc, Nat.add_comm 1 i]
      rw [List.length_cons, List.range_succ_eq_map, bitSpecs]
      by_cases unnamed : bid = 0
      · rw [if_pos unnamed, List.filter_cons_of_neg (by simp [unnamed]), later]
      · rw [if_neg unnamed, List.filter_cons_of_pos (by simp [unnamed]),
          List.map_cons, List.map_cons, later]
        rfl

/-- One spec for each part, in order. -/
theorem BitAttr.specs_tracks (attr : BitAttr) :
    (attr.specs getName).map ChannelSpec.track = attr.tracks := by
  unfold BitAttr.specs BitAttr.tracks BitAttr.parts
  simp only [mem_numericTypes_iff, mem_integerTypes_iff]
  split
  · split
    · rw [elementSpecs_tracks, List.map_map]
      rfl
    · split
      case isTrue bitFields =>
        rw [if_pos ⟨bitFields.2, bitFields.1⟩, List.map_cons, List.map_cons,
          bitSpecs_tracks, List.map_map]
        simp only [Nat.zero_add]
        rfl
      case isFalse noBitFields =>
        rw [if_neg fun both => noBitFields ⟨both.2, both.1⟩]
        rfl
  · rfl

theorem rule_specs_tracks (rule : BitRule) :
    (rule.attributes.flatMap (BitAttr.specs getName)).map ChannelSpec.track =
      rule.attributes.flatMap BitAttr.tracks := by
  rw [List.map_flatMap]
  simp only [BitAttr.specs_tracks]

/-! ### Taking a part from a batch -/

/-- The scalar of one record that a column or a row of a table holds. -/
def elementBytes (field : DtypeField) (element : Nat) (record : List UInt8) :
    List UInt8 :=
  slice record (field.offset + element * field.format.itemSize)
    field.format.itemSize

/-- What numpy reads from a row is a slice of its record. -/
theorem read_of_record {batch : StructuredArray} {name : String}
    {field : DtypeField} (found : batch.dtype.field? name = some field)
    {element : Nat} (inside : element < field.count) {row : Nat}
    {record : List UInt8} (recordAt : batch.records[row]? = some record) :
    batch.read row name element = some (elementBytes field element record) := by
  have inRows : row < batch.count := by
    have bound := (List.getElem?_eq_some_iff.mp recordAt).1
    rwa [StructuredArray.length_records] at bound
  simp only [StructuredArray.records, List.getElem?_map,
    List.getElem?_range inRows, Option.map_some,
    Option.some.injEq] at recordAt
  rw [StructuredArray.read, StructuredArray.record, if_pos inRows, recordAt,
    Option.bind_eq_bind, Option.bind_some, Dtype.read, found,
    Option.bind_eq_bind, Option.bind_some, if_pos inside]
  rfl

section Built

variable {batch : StructuredArray} {attr : BitAttr}

-- the batch has the attribute's field under its name
variable (found : batch.dtype.field? attr.name = some attr.toPAttr.field)
include found

theorem fieldArray_scalar (scalar : ¬ 1 < attr.count) :
    fieldArray batch attr.name =
      some (.column (formatOf attr.type)
        (batch.records.map (elementBytes attr.toPAttr.field 0))) := by
  have subarray : attr.toPAttr.field.subarray = none := if_neg scalar
  have first : elementBytes attr.toPAttr.field 0 = fun record =>
      slice record attr.toPAttr.field.offset
        attr.toPAttr.field.format.itemSize := by
    funext record
    rw [elementBytes, Nat.zero_mul, Nat.add_zero]
  rw [fieldArray, found, Option.bind_eq_bind, Option.bind_some, subarray,
    first]
  rfl

theorem fieldArray_subarray (many : 1 < attr.count) :
    fieldArray batch attr.name =
      some (.table (formatOf attr.type) attr.count
        (batch.records.map fun record => (List.range attr.count).map
          fun element => elementBytes attr.toPAttr.field element record)) := by
  have subarray : attr.toPAttr.field.subarray = some attr.count := if_pos many
  rw [fieldArray, found, Option.bind_eq_bind, Option.bind_some, subarray]
  rfl

/-- A spec of the whole scalar takes the scalars of all records. -/
theorem extract_whole (scalar : ¬ 1 < attr.count) {spec : ChannelSpec}
    (name : spec.fieldName = attr.name) (index : spec.index = none)
    (bitPos : spec.bitPos = none) :
    extract batch spec =
      some (.column (formatOf attr.type)
        (batch.records.map (elementBytes attr.toPAttr.field 0))) := by
  rw [extract, name, fieldArray_scalar found scalar, index, bitPos]
  rfl

/-- A spec of an element takes it from the rows of the subarray. -/
theorem extract_element (many : 1 < attr.count) {spec : ChannelSpec}
    {i : Nat} (inside : i < attr.count) (name : spec.fieldName = attr.name)
    (index : spec.index = some i) (bitPos : spec.bitPos = none) :
    extract batch spec =
      some (.column (formatOf attr.type)
        (batch.records.map (elementBytes attr.toPAttr.field i))) := by
  rw [extract, name, fieldArray_subarray found many, index, bitPos]
  simp only [Option.bind_eq_bind, Option.bind_some, NdArray.atIndex,
    if_pos inside, List.map_map]
  congr 2
  apply List.map_congr_left
  intro record _
  rw [Function.comp_apply, List.getD_eq_getElem?_getD, List.getElem?_map,
    List.getElem?_range inside]
  rfl

/-- A spec of a bit takes it from the scalars of all records. -/
theorem extract_bit (scalar : ¬ 1 < attr.count) {signed : Bool}
    (integer : signed? (formatOf attr.type) = some signed)
    {spec : ChannelSpec} {pos : Nat} (name : spec.fieldName = attr.name)
    (index : spec.index = none) (bitPos : spec.bitPos = some pos) :
    extract batch spec =
      some (.column .u1 (batch.records.map fun record =>
        shiftAndOne signed (8 * (formatOf attr.type).itemSize) pos
          (elementBytes attr.toPAttr.field 0 record))) := by
  rw [extract, name, fieldArray_scalar found scalar, index, bitPos]
  simp only [Option.bind_eq_bind, Option.bind_some, NdArray.bit, integer,
    List.map_map]
  rfl

end Built

/-! ### Bits -/

/-- Shifting a word and masking it leaves the bit at that position, also for
a negative word. -/
theorem shiftAndOne_eq (signed : Bool) {width pos : Nat}
    (inside : pos < width) (bytes : List UInt8) :
    shiftAndOne signed width pos bytes =
      [((littleEndian bytes).testBit pos).toUInt8] := by
  have bitOf (shifted : BitVec width) :
      UInt8.ofNat (shifted &&& BitVec.ofNat width 1).toNat =
        (shifted.getLsbD 0).toUInt8 := by
    rw [BitVec.toNat_and, BitVec.toNat_one (Nat.zero_lt_of_lt inside),
      Nat.and_one_is_mod, ← BitVec.testBit_toNat, Nat.testBit_zero]
    rcases Nat.mod_two_eq_zero_or_one shifted.toNat with even | odd
    · rw [even]
      rfl
    · rw [odd]
      rfl
  have wordBit : (BitVec.ofNat width (littleEndian bytes)).getLsbD pos =
      (littleEndian bytes).testBit pos := by
    rw [BitVec.getLsbD_ofNat, decide_eq_true inside, Bool.true_and]
  unfold shiftAndOne
  cases signed with
  | true =>
      have shifted : ((BitVec.ofNat width (littleEndian bytes)).sshiftRight
          pos).getLsbD 0 = (littleEndian bytes).testBit pos := by
        rw [BitVec.getLsbD_sshiftRight, Nat.add_zero, if_pos inside, wordBit,
          decide_eq_false (Nat.not_le_of_lt (Nat.zero_lt_of_lt inside)),
          Bool.not_false, Bool.true_and]
      simp only [if_true, bitOf, shifted]
  | false =>
      have shifted : (BitVec.ofNat width (littleEndian bytes) >>>
          pos).getLsbD 0 = (littleEndian bytes).testBit pos := by
        rw [BitVec.getLsbD_ushiftRight, Nat.add_zero, wordBit]
      simp only [Bool.false_eq_true, if_false, bitOf, shifted]

/-! ### Whole rules -/

/-- The spec is defined on the batch, yields one value of its own format for
every record, and shows its part of each. -/
def Extracts (batch : StructuredArray) (spec : ChannelSpec) : Prop :=
  ∃ values, extract batch spec = some (.column spec.dtype values) ∧
    values.length = batch.count ∧
    ∀ (row : Nat) (value : List UInt8), values[row]? = some value →
      spec.Shows batch row value

/-- A column taken record by record. -/
theorem extracts_of_map {batch : StructuredArray} {spec : ChannelSpec}
    {take : List UInt8 → List UInt8}
    (taken : extract batch spec =
      some (.column spec.dtype (batch.records.map take)))
    (shown : ∀ (row : Nat) (record : List UInt8),
      batch.records[row]? = some record → spec.Shows batch row (take record)) :
    Extracts batch spec := by
  refine ⟨_, taken, ?_, ?_⟩
  · rw [List.length_map, StructuredArray.length_records]
  · intro row value valueAt
    rw [List.getElem?_map] at valueAt
    rcases Option.map_eq_some_iff.mp valueAt with ⟨record, recordAt, rfl⟩
    exact shown row record recordAt

theorem mem_bitSpecs {attr : BitAttr} {pos : Nat} {bids : List Nat}
    {spec : ChannelSpec} (member : spec ∈ bitSpecs getName attr pos bids) :
    spec.fieldName = attr.name ∧ spec.dtype = .u1 ∧ spec.index = none ∧
      ∃ bitPos, spec.bitPos = some bitPos := by
  induction bids generalizing pos with
  | nil => cases member
  | cons bid bids inductionHypothesis =>
      rw [bitSpecs] at member
      split at member
      · exact inductionHypothesis member
      · rcases List.mem_cons.mp member with rfl | later
        · exact ⟨rfl, rfl, rfl, pos, rfl⟩
        · exact inductionHypothesis later

section Built

variable {batch : StructuredArray} {attr : BitAttr}
variable (found : batch.dtype.field? attr.name = some attr.toPAttr.field)
include found

theorem extracts_wordSpec (scalar : ¬ 1 < attr.count) :
    Extracts batch (wordSpec attr (formatOf attr.type)) := by
  apply extracts_of_map (extract_whole found scalar rfl rfl rfl)
  intro row record recordAt
  exact read_of_record found attr.toPAttr.field_count_pos recordAt

theorem extracts_elementSpecs (many : 1 < attr.count) {spec : ChannelSpec}
    (member : spec ∈ elementSpecs attr (formatOf attr.type)) :
    Extracts batch spec := by
  rcases List.mem_map.mp member with ⟨i, inRange, rfl⟩
  have inside := List.mem_range.mp inRange
  apply extracts_of_map (extract_element found many inside rfl rfl rfl)
  intro row record recordAt
  have inField : i < attr.toPAttr.field.count := by
    rwa [PAttr.field_count (Nat.le_of_lt many)]
  exact read_of_record found inField recordAt

theorem extracts_bitSpecs (scalar : ¬ 1 < attr.count)
    (integer : attr.type ∈ integerTypes) {spec : ChannelSpec}
    (member : spec ∈ bitSpecs getName attr 0 attr.bitIds) :
    Extracts batch spec := by
  rcases mem_bitSpecs member with ⟨name, dtype, index, pos, bitPos⟩
  rcases signed_of_integer integer with ⟨signed, words⟩
  have taken := extract_bit found scalar words name index bitPos
  rw [← dtype] at taken
  apply extracts_of_map taken
  intro row record recordAt
  have read := read_of_record found attr.toPAttr.field_count_pos recordAt
  rw [ChannelSpec.Shows, ChannelSpec.part, index, bitPos, name]
  refine ⟨_, _, found, read, ?_⟩
  intro inWord
  exact shiftAndOne_eq signed inWord _

/-- Every spec of an attribute extracts its part. -/
theorem attr_extracts {spec : ChannelSpec}
    (member : spec ∈ attr.specs getName) : Extracts batch spec := by
  unfold BitAttr.specs at member
  split at member
  case isFalse => cases member
  case isTrue =>
    split at member
    case isTrue many => exact extracts_elementSpecs found many member
    case isFalse scalar =>
      split at member
      case isTrue bitFields =>
        rcases List.mem_cons.mp member with rfl | bit
        · exact extracts_wordSpec found scalar
        · exact extracts_bitSpecs found scalar bitFields.2 bit
      case isFalse =>
        obtain rfl := List.mem_singleton.mp member
        exact extracts_wordSpec found scalar

end Built

/-- Only numeric attributes have specs. -/
theorem numeric_of_spec {attr : BitAttr} {spec : ChannelSpec}
    (member : spec ∈ attr.specs getName) : attr.type ∈ numericTypes := by
  unfold BitAttr.specs at member
  split at member
  case isTrue numeric => exact numeric
  case isFalse => cases member

/-- Every spec of a rule extracts its part from the batches of the rule. -/
theorem rule_extracts {rule : BitRule} {batch : StructuredArray}
    (built : dtypeFromRule types rule.layout = .ok batch.dtype)
    {spec : ChannelSpec}
    (member : spec ∈ rule.attributes.flatMap (BitAttr.specs getName)) :
    Extracts batch spec := by
  rcases List.mem_flatMap.mp member with ⟨attr, inRule, specOf⟩
  rcases dtypeFromRule_eq_ok_iff.mp built with ⟨dtype, distinct, _⟩
  have mapped : attr.toPAttr ∈ rule.layout.mapped :=
    RecRule.mem_mapped.mpr ⟨List.mem_map_of_mem inRule,
      mappable_of_numeric (numeric_of_spec specOf)⟩
  apply attr_extracts _ specOf
  rw [← dtype]
  exact RecRule.field?_eq distinct mapped

theorem NumpyStore.stored_same (numpy : NumpyStore) (dtype : NumpyFormat)
    (values : List (List UInt8)) :
    numpy.stored dtype (.column dtype values) = some values := by
  rw [NumpyStore.stored]
  congr 1
  calc
    values.map (numpy.cast dtype dtype) = values.map id :=
      List.map_congr_left fun value _ => numpy.same dtype value
    _ = values := List.map_id values

/-- The tracks of a rule are the parts of its attributes in order, and each of
them extracts its part of every record, unchanged by a buffer of its dtype. -/
theorem tracks_decompose_record (getName : Nat → Option String)
    {rule : BitRule} {batch : StructuredArray}
    (built : dtypeFromRule types rule.layout = .ok batch.dtype) :
    ∃ specs, buildChannelSpecs getName rule = some specs ∧
      specs.map ChannelSpec.track =
        rule.attributes.flatMap BitAttr.tracks ∧
      ∀ spec ∈ specs, ∃ values,
        extract batch spec = some (.column spec.dtype values) ∧
          values.length = batch.count ∧
          (∀ (row : Nat) (value : List UInt8), values[row]? = some value →
            spec.Shows batch row value) ∧
          ∀ numpy : NumpyStore,
            numpy.stored spec.dtype (.column spec.dtype values) =
              some values := by
  refine ⟨_, buildChannelSpecs_eq rule, rule_specs_tracks rule, ?_⟩
  intro spec member
  rcases rule_extracts built member with ⟨values, taken, length, shown⟩
  exact ⟨values, taken, length, shown, fun numpy =>
    numpy.stored_same spec.dtype values⟩

/-- A signed word with two named bits, and an array of floating numbers. -/
def flagsRule : BitRule where
  attributes := [
    { name := "Flags", type := .dtInt16, count := 1, offset := 0,
      hasBitFields := true, bitIds := [7, 0, 9] },
    { name := "Levels", type := .dtFloat, count := 2, offset := 2,
      hasBitFields := false, bitIds := [] }]
  recSize := 10

/-- One record, with the word -3. -/
def flagsBatch : StructuredArray :=
  flagsRule.layout.view [253, 255, 0, 0, 128, 63, 0, 0, 0, 64] 1

theorem tracks_decompose_record_flagsBatch :
    ∃ specs, buildChannelSpecs (fun _ => none) flagsRule = some specs ∧
      specs.map ChannelSpec.track =
        [("Flags", .whole), ("Flags", .bit 0), ("Flags", .bit 2),
          ("Levels", .element 0), ("Levels", .element 1)] ∧
      ∀ spec ∈ specs, ∃ values,
        extract flagsBatch spec = some (.column spec.dtype values) ∧
          values.length = 1 := by
  have built : dtypeFromRule types64 flagsRule.layout =
      .ok flagsBatch.dtype :=
    dtypeFromRule_eq_ok_iff.mpr ⟨rfl, by decide, by decide⟩
  rcases tracks_decompose_record (fun _ => none) built with
    ⟨specs, build, tracks, each⟩
  refine ⟨specs, build, tracks.trans (by decide), ?_⟩
  intro spec member
  rcases each spec member with ⟨values, taken, length, _⟩
  exact ⟨values, taken, length⟩

end CycFlowPy.Viewer
