/-
Module: CycFlowPy.Proofs.FieldBytes
Purpose: The fields of a dtype are exactly the bytes of their attributes, as
  long as no mappable attribute is empty.
Trusted boundary: none
Main exports: DtypeField.Covers, FieldsMatch, PAttr.matchedBy_iff,
  fields_match_iff
-/
import CycFlowPy.Proofs.RecordLayout

namespace CycFlowPy.Numpy

variable {types : CycTypes}

/-- The byte at `offset` of a record is one of the field's. -/
def DtypeField.Covers (field : DtypeField) (offset : Nat) : Prop :=
  field.offset ≤ offset ∧ offset < field.offset + field.size

/-- The field is named like the attribute and covers exactly its bytes. -/
def PAttr.MatchedBy (types : CycTypes) (attr : PAttr) (field : DtypeField) :
    Prop :=
  field.name = attr.name ∧
    ∀ offset, field.Covers offset ↔ attr.Covers types offset

/-- `dtype_from_rule` succeeds with one field for every mappable attribute, in
the order of the attributes and over exactly their bytes; no two fields
overlap, and none reaches past the item. -/
def FieldsMatch (types : CycTypes) (rule : RecRule) : Prop :=
  ∃ dtype, dtypeFromRule types rule = .ok dtype ∧
    List.Forall₂ (PAttr.MatchedBy types) rule.mapped dtype.fields ∧
    dtype.fields.Pairwise DtypeField.Disjoint ∧
    ∀ field ∈ dtype.fields, field.offset + field.size ≤ dtype.itemSize

/-- The field of a mappable attribute covers the attribute's bytes unless the
attribute has none: numpy gives it one element all the same. -/
theorem PAttr.matchedBy_iff {attr : PAttr}
    (mappable : isDtypeMappable attr.type = true) :
    attr.MatchedBy types attr.field ↔ 1 ≤ attr.count := by
  constructor
  · rintro ⟨_, same⟩
    by_contra empty
    have none : attr.getSize types = 0 := by
      rw [PAttr.getSize, Nat.eq_zero_of_not_pos empty, Nat.mul_zero]
    have covered : attr.Covers types attr.offset :=
      (same attr.offset).mp
        ⟨Nat.le_refl _, Nat.lt_add_of_pos_right attr.field_size_pos⟩
    rw [PAttr.Covers, none] at covered
    exact Nat.lt_irrefl _ covered.2
  · intro positive
    refine ⟨rfl, ?_⟩
    intro offset
    rw [DtypeField.Covers, PAttr.field_size mappable positive types]
    rfl

/-- Every numpy field of a laid-out rule covers exactly its attribute's bytes
if and only if no mappable attribute has the count 0. -/
theorem fields_match_iff {rule : RecRule} (laidOut : rule.LaidOut types) :
    FieldsMatch types rule ↔ ∀ attr ∈ rule.mapped, 1 ≤ attr.count := by
  constructor
  · rintro ⟨dtype, built, matched, _, _⟩ attr mapped
    obtain rfl := (dtypeFromRule_eq_ok_iff.mp built).1
    rw [RecRule.dtype, List.forall₂_map_right_iff,
      List.forall₂_same] at matched
    exact (PAttr.matchedBy_iff (RecRule.mem_mapped.mp mapped).2).mp
      (matched attr mapped)
  · intro positive
    have built := laidOut.dtypeFromRule_eq positive
    refine ⟨rule.dtype, built, ?_, laidOut.fields_disjoint positive,
      (dtypeFromRule_eq_ok_iff.mp built).2.2⟩
    rw [RecRule.dtype, List.forall₂_map_right_iff, List.forall₂_same]
    intro attr mapped
    exact (PAttr.matchedBy_iff (RecRule.mem_mapped.mp mapped).2).mpr
      (positive attr mapped)

/-- The rule that `make_rule([("A", Int8, 0), ("B", Int8)])` lays out. -/
def emptyArrayRule : RecRule where
  attributes :=
    [{ name := "TimeStamp", type := .dtDouble, count := 1, offset := 0 },
      { name := "A", type := .dtInt8, count := 0, offset := 8 },
      { name := "B", type := .dtInt8, count := 1, offset := 8 }]
  recSize := 9

theorem emptyArrayRule_laidOut : emptyArrayRule.LaidOut types64 :=
  ⟨by decide, 0, rfl, rfl, rfl, show 9 ≤ 9 by decide⟩

theorem fields_match_iff_emptyArrayRule :
    FieldsMatch types64 emptyArrayRule ↔
      ∀ attr ∈ emptyArrayRule.mapped, 1 ≤ attr.count :=
  fields_match_iff emptyArrayRule_laidOut

/-- Field `A` is the byte of field `B`. -/
theorem fields_do_not_match :
    ¬ ∀ rule : RecRule, rule.LaidOut types64 → FieldsMatch types64 rule := by
  intro matching
  rcases matching emptyArrayRule emptyArrayRule_laidOut with
    ⟨dtype, built, _, disjoint, _⟩
  obtain rfl := (dtypeFromRule_eq_ok_iff.mp built).1
  have apart : DtypeField.Disjoint
      { name := "A", format := .i1, subarray := none, offset := 8 }
      { name := "B", format := .i1, subarray := none, offset := 8 } := by
    rcases List.pairwise_cons.mp disjoint with ⟨_, rest⟩
    exact (List.pairwise_cons.mp rest).1 _ List.mem_cons_self
  rcases apart with before | after
  · exact absurd before (by decide)
  · exact absurd after (by decide)

end CycFlowPy.Numpy
