/-
Module: CycFlowPy.Proofs.NamedRule
Purpose: Which names an attribute may be given for numpy to accept the rule,
  and what the fields and `name in rule` make of them.
Trusted boundary: none
Main exports: decode_storedBytes_iff, namedFields_eq, contains_renamed,
  renamed_dtype_iff
-/
import CycFlowPy.Model.NamedRule
import CycFlowPy.Proofs.NameField
import CycFlowPy.Proofs.RecordLayout

namespace CycFlowPy.Names

open Utf8 Numpy

variable {types : CycTypes}

/-! ### One name -/

theorem cBytes_assign (array : CharArray 26) (n : String) :
    cBytes (array.assign n).bytes = storedBytes n := by
  have room : array.bytes.length = 25 + 1 := array.sized
  have noNul : 0 ∉ storedBytes n := by
    intro zero
    exact zero_notMem_encode (nul_notMem_shown n) (List.mem_of_mem_take zero)
  have bytes := strncpy_set (cStr n) room
  rw [cBytes_cStr] at bytes
  rw [show (array.assign n).bytes = _ from bytes]
  exact cBytes_append noNul

/-- An attribute that was given the name `n`. -/
def NamedAttr.rename (attr : NamedAttr) (n : String) : NamedAttr :=
  { attr with toPAttr := attr.toPAttr.setName n }

theorem getName_rename (attr : NamedAttr) (n : String) :
    (attr.rename n).getName = decode (storedBytes n) :=
  attr.name.text_assign n

/-- The name can be read back exactly when no character is cut. -/
theorem decode_storedBytes_iff (n : String) :
    (∃ text, decode (storedBytes n) = some text) ↔ CutsBetween 26 n := by
  rw [← blankAttr.name.survives_iff n]
  have read : (blankAttr.name.assign n).text = decode (storedBytes n) :=
    blankAttr.name.text_assign n
  rw [← read]
  constructor
  · rintro ⟨text, decoded⟩
    exact CharArray.survives_of_text decoded
  · rintro ⟨text, decoded, _⟩
    exact ⟨text, decoded⟩

/-! ### The fields of a rule -/

/-- The fields, or the first name that cannot be read. -/
theorem namedFields_eq (types : CycTypes) (attrs : List NamedAttr) :
    namedFields types attrs =
      match (attrs.filter fun attr => isDtypeMappable attr.type).mapM
        fun attr => attr.getName.map fun text => (attr.withText text).field with
      | some fields => .ok fields
      | none => .error .unicodeDecode := by
  induction attrs with
  | nil => rfl
  | cons attr attrs inductionHypothesis =>
      cases mappable : isDtypeMappable attr.type with
      | false => simpa [namedFields, mappable] using inductionHypothesis
      | true =>
          have format := numpyFormatFor_mappable mappable
            types.dataTypeToString
          simp only [namedFields, mappable, Bool.not_true, Bool.false_eq_true,
            if_false, format, NamedAttr.pyStr, List.filter_cons, if_true,
            List.mapM_cons, inductionHypothesis]
          cases attr.getName with
          | none => rfl
          | some text =>
              cases (attrs.filter fun attr => isDtypeMappable attr.type).mapM
                  (fun attr => attr.getName.map fun text =>
                    (attr.withText text).field) with
              | none => rfl
              | some fields => rfl

/-- One value for each element, or an element without one. -/
theorem mapM_cases {α β : Type} (f : α → Option β) (l : List α) :
    (∃ l', l.mapM f = some l' ∧ List.Forall₂ (fun x y => f x = some y) l l') ∨
      (l.mapM f = none ∧ ∃ x ∈ l, f x = none) := by
  induction l with
  | nil => exact .inl ⟨[], rfl, .nil⟩
  | cons x l inductionHypothesis =>
      rw [List.mapM_cons]
      cases value : f x with
      | none => exact .inr ⟨rfl, x, List.mem_cons_self, value⟩
      | some y =>
          rcases inductionHypothesis with
            ⟨l', all, each⟩ | ⟨stops, z, member, none⟩
          · rw [all]
            exact .inl ⟨y :: l', rfl, .cons value each⟩
          · rw [stops]
            exact .inr ⟨rfl, z, List.mem_cons_of_mem x member, none⟩

theorem map_eq_of_forall₂ {α β γ : Type} {R : α → β → Prop} {f : α → γ}
    {g : β → γ} (same : ∀ x y, R x y → g y = f x) {l : List α} {l' : List β}
    (related : List.Forall₂ R l l') : l'.map g = l.map f := by
  induction related with
  | nil => rfl
  | cons first _ inductionHypothesis =>
      rw [List.map_cons, List.map_cons, same _ _ first, inductionHypothesis]

/-- Where the field of the attribute ends in a record. -/
def NamedAttr.fieldEnd (attr : NamedAttr) : Nat :=
  attr.offset + (formatOf attr.type).itemSize *
    if 1 < attr.count then attr.count else 1

theorem field_end (attr : NamedAttr) (text : String) :
    (attr.withText text).field.offset + (attr.withText text).field.size =
      attr.fieldEnd := by
  unfold NamedAttr.fieldEnd DtypeField.size DtypeField.count PAttr.field
    PAttr.toField NamedAttr.withText
  by_cases many : 1 < attr.count
  · simp [many]
  · simp [many]

/-- The entries whose attributes become fields. -/
def mappedEntries (entries : List (NamedAttr × String)) :
    List (NamedAttr × String) :=
  entries.filter fun entry => isDtypeMappable entry.1.type

/-- The field of an attribute that was given a name, if it can be read. -/
def renamedField (entry : NamedAttr × String) : Option DtypeField :=
  (decode (storedBytes entry.2)).map fun text =>
    (entry.1.withText text).field

theorem namedFields_renamed (types : CycTypes)
    (entries : List (NamedAttr × String)) (recSize : Nat) :
    namedFields types (NamedRule.renamed entries recSize).attributes =
      match (mappedEntries entries).mapM renamedField with
      | some fields => .ok fields
      | none => .error .unicodeDecode := by
  have renamed : (NamedRule.renamed entries recSize).attributes =
      entries.map fun entry => entry.1.rename entry.2 := rfl
  have sameField : ((fun attr : NamedAttr => attr.getName.map fun text =>
        (attr.withText text).field) ∘ fun entry : NamedAttr × String =>
          entry.1.rename entry.2) = renamedField := by
    funext entry
    simp only [Function.comp_apply, getName_rename]
    rfl
  have sameMapped : ((fun attr : NamedAttr => isDtypeMappable attr.type) ∘
      fun entry : NamedAttr × String => entry.1.rename entry.2) =
        fun entry => isDtypeMappable entry.1.type := rfl
  rw [namedFields_eq, renamed, List.filter_map, List.mapM_map, sameMapped,
    sameField]
  rfl

/-- What the fields of a renamed rule have of their entries. -/
theorem fields_of_entries {entries : List (NamedAttr × String)}
    {fields : List DtypeField}
    (each : List.Forall₂ (fun entry field => renamedField entry = some field)
      entries fields) :
    fields.map (fun field => encode field.name.toList) =
        entries.map (fun entry => storedBytes entry.2) ∧
      fields.map (fun field => field.offset + field.size) =
        entries.map fun entry => entry.1.fieldEnd := by
  constructor
  · apply map_eq_of_forall₂ _ each
    intro entry field named
    rcases Option.map_eq_some_iff.mp named with ⟨text, decoded, rfl⟩
    exact decode_eq_some_iff.mp decoded
  · apply map_eq_of_forall₂ _ each
    intro entry field named
    rcases Option.map_eq_some_iff.mp named with ⟨text, _, rfl⟩
    exact field_end entry.1 text

/-- Each field is the one of its entry. -/
theorem map_renamedField {entries : List (NamedAttr × String)}
    {fields : List DtypeField}
    (each : List.Forall₂ (fun entry field => renamedField entry = some field)
      entries fields) : entries.map renamedField = fields.map some := by
  have mapped : List.Forall₂ (· = ·) (entries.map renamedField)
      (fields.map some) :=
    List.forall₂_map_left_iff.mpr (List.forall₂_map_right_iff.mpr each)
  rwa [List.forall₂_eq_eq_eq] at mapped

theorem renamedField_none_iff (entry : NamedAttr × String) :
    renamedField entry = none ↔ ¬ CutsBetween 26 entry.2 := by
  rw [← decode_storedBytes_iff, renamedField, Option.map_eq_none_iff]
  cases decode (storedBytes entry.2) with
  | none => simp
  | some text => simp

theorem encode_toList_injective :
    Function.Injective fun text : String => encode text.toList := by
  intro text other same
  exact String.toList_injective (encode_injective same)

/-- numpy takes the fields when their names and ends are as in the entries. -/
theorem npDtype_fields {entries : List (NamedAttr × String)}
    {fields : List DtypeField}
    (each : List.Forall₂ (fun entry field => renamedField entry = some field)
      entries fields) (recSize : Nat) :
    npDtype fields recSize =
      if (entries.map fun entry => storedBytes entry.2).Nodup ∧
          ∀ entry ∈ entries, entry.1.fieldEnd ≤ recSize then
        .ok { fields := fields, itemSize := recSize }
      else .error .valueError := by
  have ⟨names, ends⟩ := fields_of_entries each
  have distinct : (fields.map (·.name)).Nodup ↔
      (entries.map fun entry => storedBytes entry.2).Nodup := by
    rw [← names, ← List.nodup_map_iff encode_toList_injective, List.map_map]
    rfl
  have within : (∀ field ∈ fields, field.offset + field.size ≤ recSize) ↔
      ∀ entry ∈ entries, entry.1.fieldEnd ≤ recSize := by
    have same (bound : Nat → Prop) :
        (∀ finish ∈ fields.map fun field => field.offset + field.size,
          bound finish) ↔
        ∀ finish ∈ entries.map fun entry => entry.1.fieldEnd, bound finish := by
      rw [ends]
    simpa only [List.forall_mem_map] using same (· ≤ recSize)
  unfold npDtype
  simp only [distinct, within]

/-! ### `name in rule` -/

theorem contains_renamed {entries : List (NamedAttr × String)}
    {recSize : Nat} {n : String} :
    (NamedRule.renamed entries recSize).contains n = true ↔
      ∃ entry ∈ entries, encode n.toList = storedBytes entry.2 := by
  have stored (entry : NamedAttr × String) :
      cBytes (entry.1.toPAttr.setName entry.2).name.bytes =
        storedBytes entry.2 :=
    cBytes_assign entry.1.name entry.2
  simp [NamedRule.contains, NamedRule.renamed, stored]

/-! ### Which rules numpy accepts -/

/-- A rule whose attributes were given names.  `dtype_from_rule` raises a
`UnicodeDecodeError` exactly when the end of an array cuts through a character
of a mappable attribute's name.  It makes a dtype exactly when none is cut, the
names of the mappable attributes differ in what is left of them in their
arrays, and no field reaches past the record; then the names of the fields are
what is left, in order, and all of them are in the rule. -/
theorem renamed_dtype_iff (types : CycTypes)
    (entries : List (NamedAttr × String)) (recSize : Nat) :
    let rule := NamedRule.renamed entries recSize
    (rule.dtypeFromRule types = .error .unicodeDecode ↔
      ∃ entry ∈ mappedEntries entries, ¬ CutsBetween 26 entry.2) ∧
    ((∃ dtype, rule.dtypeFromRule types = .ok dtype) ↔
      (∀ entry ∈ mappedEntries entries, CutsBetween 26 entry.2) ∧
      ((mappedEntries entries).map fun entry => storedBytes entry.2).Nodup ∧
      ∀ entry ∈ mappedEntries entries, entry.1.fieldEnd ≤ recSize) ∧
    ∀ dtype, rule.dtypeFromRule types = .ok dtype →
      dtype.fields.map (fun field => encode field.name.toList) =
        (mappedEntries entries).map (fun entry => storedBytes entry.2) ∧
      ∀ field ∈ dtype.fields, rule.contains field.name = true := by
  intro rule
  have made : rule.dtypeFromRule types =
      (namedFields types rule.attributes).bind fun fields =>
        (npDtype fields recSize).mapError .bridge := rfl
  rw [made, namedFields_renamed]
  rcases mapM_cases renamedField (mappedEntries entries) with
    ⟨fields, all, each⟩ | ⟨stops, cutEntry, isMapped, unread⟩
  · have whole : ∀ entry ∈ mappedEntries entries, CutsBetween 26 entry.2 := by
      intro entry member
      by_contra cut
      have unread := (renamedField_none_iff entry).mpr cut
      have among := List.mem_map_of_mem (f := renamedField) member
      rw [map_renamedField each, unread] at among
      simp at among
    simp only [all, Except.bind, npDtype_fields each]
    split
    case isTrue accepted =>
      refine ⟨⟨?_, ?_⟩, ⟨?_, ?_⟩, ?_⟩
      · intro raised
        cases raised
      · rintro ⟨entry, member, cut⟩
        exact absurd (whole entry member) cut
      · intro _
        exact ⟨whole, accepted⟩
      · intro _
        exact ⟨_, rfl⟩
      · intro dtype made
        cases made
        refine ⟨(fields_of_entries each).1, ?_⟩
        intro field member
        have among := List.mem_map_of_mem (f := fun field : DtypeField =>
          encode field.name.toList) member
        rw [(fields_of_entries each).1] at among
        rcases List.mem_map.mp among with ⟨entry, isMapped, named⟩
        exact contains_renamed.mpr
          ⟨entry, (List.mem_filter.mp isMapped).1, named.symm⟩
    case isFalse refused =>
      refine ⟨⟨?_, ?_⟩, ⟨?_, ?_⟩, ?_⟩
      · intro raised
        cases raised
      · rintro ⟨entry, member, cut⟩
        exact absurd (whole entry member) cut
      · rintro ⟨dtype, made⟩
        cases made
      · rintro ⟨_, accepted⟩
        exact absurd accepted refused
      · intro dtype made
        cases made
  · have cut := (renamedField_none_iff cutEntry).mp unread
    simp only [stops, Except.bind]
    refine ⟨⟨?_, ?_⟩, ⟨?_, ?_⟩, ?_⟩
    · intro _
      exact ⟨cutEntry, isMapped, cut⟩
    · intro _
      trivial
    · rintro ⟨dtype, made⟩
      cases made
    · rintro ⟨whole, _⟩
      exact absurd (whole cutEntry isMapped) cut
    · intro dtype made
      cases made

end CycFlowPy.Names
