/-
Module: CycFlowPy.Proofs.RecordPaths
Purpose: What is assigned through the write view of a batch is what the three
  read paths return, and nothing else of the record memory changes.
Trusted boundary: none
Main exports: Assignment.Valid, lastAssigned, WriteBatch.assign_frame,
  WriteBatch.fill, Published.read_paths, record_paths_agree
-/
import CycFlowPy.Model.RecordPaths
import CycFlowPy.Proofs.RecordLayout

namespace CycFlowPy.Numpy

open Slices

variable {types : CycTypes}

/-! ### One assignment -/

/-- The assignment names a row, a field and an element that exist and a value
of the field's width. -/
def Assignment.Valid (types : CycTypes) (rule : RecRule) (capacity : Nat)
    (a : Assignment) : Prop :=
  a.row < capacity ∧ ∃ attr ∈ rule.mapped,
    attr.name = a.field ∧ a.element < attr.count ∧
      a.value.length = types.getTypeSize attr.type

/-- Where the value of an assignment to the attribute goes. -/
def Assignment.address (types : CycTypes) (rule : RecRule) (attr : PAttr)
    (a : Assignment) : Nat :=
  a.row * rule.recSize + attr.elementOffset types a.element

theorem Assignment.fits {rule : RecRule} (laidOut : rule.LaidOut types)
    {attr : PAttr} (mapped : attr ∈ rule.mapped) {capacity : Nat}
    {a : Assignment} (inRows : a.row < capacity)
    (inside : a.element < attr.count)
    (width : a.value.length = types.getTypeSize attr.type) :
    a.address types rule attr + a.value.length ≤ capacity * rule.recSize := by
  have rowFits : a.row * rule.recSize + rule.recSize ≤
      capacity * rule.recSize := row_fits inRows
  have elementFits := laidOut.element_inside
    (RecRule.mem_mapped.mp mapped).1 inside
  rw [Assignment.address, width]
  omega

/-- A valid assignment overwrites the bytes of its element. -/
theorem WriteBatch.assign_eq {batch : WriteBatch}
    (laidOut : batch.rule.LaidOut types)
    (positive : ∀ attr ∈ batch.rule.attributes, 1 ≤ attr.count)
    {attr : PAttr} (mapped : attr ∈ batch.rule.mapped) {a : Assignment}
    (name : attr.name = a.field) (inRows : a.row < batch.capacity)
    (inside : a.element < attr.count)
    (width : a.value.length = types.getTypeSize attr.type) :
    ∃ written, batch.assign types a = some written ∧
      written.rule = batch.rule ∧ written.capacity = batch.capacity ∧
      written.data =
        patch batch.data (a.address types batch.rule attr) a.value := by
  rcases RecRule.mem_mapped.mp mapped with ⟨member, mappable⟩
  have count := PAttr.field_count (positive attr member)
  have itemSize := PAttr.field_itemSize mappable types
  have fits := Assignment.fits laidOut mapped inRows inside width
  rw [← batch.sized] at fits
  have sized : (patch batch.data (a.address types batch.rule attr)
      a.value).length = batch.capacity * batch.rule.recSize := by
    rw [length_patch fits, batch.sized]
  have assigned : (batch.rule.view batch.data batch.capacity).assign a =
      some (batch.rule.view
        (patch batch.data (a.address types batch.rule attr) a.value)
        batch.capacity) := by
    have field : batch.rule.dtype.field? a.field = some attr.field := by
      rw [← name]
      exact laidOut.field?_eq mapped
    simp [StructuredArray.assign, RecRule.view, field, count, itemSize,
      inRows, inside, width, Assignment.address, PAttr.elementOffset,
      Nat.add_assoc]
  refine ⟨{ batch with
    data := patch batch.data (a.address types batch.rule attr) a.value
    sized := sized }, ?_, rfl, rfl, rfl⟩
  unfold WriteBatch.assign WriteBatch.asNumpy
  rw [viewStructured_eq laidOut positive]
  simp only [Except.toOption, Option.bind_eq_bind, Option.bind_some, assigned]
  exact dif_pos sized

/-- The byte at `offset` of record `row` belongs to another row than the
assignment's, to another attribute, or to no attribute. -/
def Untouched (types : CycTypes) (rule : RecRule) (a : Assignment)
    (row offset : Nat) : Prop :=
  row ≠ a.row ∨
    (∃ other ∈ rule.attributes,
      other.name ≠ a.field ∧ other.Covers types offset) ∨
    ∀ attr ∈ rule.attributes, ¬ attr.Covers types offset

theorem WriteBatch.assign_frame {batch written : WriteBatch}
    (laidOut : batch.rule.LaidOut types)
    (positive : ∀ attr ∈ batch.rule.attributes, 1 ≤ attr.count)
    {a : Assignment} (valid : a.Valid types batch.rule batch.capacity)
    (assigned : batch.assign types a = some written) {row offset : Nat}
    (inRecord : offset < batch.rule.recSize)
    (untouched : Untouched types batch.rule a row offset) :
    written.data[row * batch.rule.recSize + offset]? =
      batch.data[row * batch.rule.recSize + offset]? := by
  rcases valid with ⟨inRows, attr, mapped, name, inside, width⟩
  have member := (RecRule.mem_mapped.mp mapped).1
  rcases WriteBatch.assign_eq laidOut positive mapped name inRows inside
    width with ⟨other, same, _, _, data⟩
  rw [assigned] at same
  obtain rfl := Option.some.inj same
  have fits := Assignment.fits laidOut mapped inRows inside width
  rw [← batch.sized] at fits
  rw [data, getElem?_patch fits, if_neg]
  rintro ⟨after, before⟩
  rw [width] at before
  have elementFits := laidOut.element_inside member inside
  have sameRow : row = a.row := by
    by_contra otherRow
    have oneByte : offset + 1 ≤ batch.rule.recSize := inRecord
    have apart := rows_disjoint otherRow oneByte elementFits
    simp only [Assignment.address] at after before
    omega
  have covers : attr.Covers types offset := by
    have attributeFits := attr.element_inside inside types
    have starts : attr.offset ≤ attr.elementOffset types a.element :=
      Nat.le_add_right _ _
    simp only [Assignment.address, sameRow] at after before
    constructor
    · omega
    · omega
  rcases untouched with otherRow | ⟨other, otherMember, otherName, otherCovers⟩
    | none
  · exact otherRow sameRow
  · apply otherName
    rw [← laidOut.eq_of_covers member otherMember covers otherCovers, name]
  · exact none attr member covers

/-! ### A sequence of assignments -/

def Assignment.IsAt (row : Nat) (name : String) (element : Nat)
    (a : Assignment) : Prop :=
  row = a.row ∧ name = a.field ∧ element = a.element

instance (row : Nat) (name : String) (element : Nat) (a : Assignment) :
    Decidable (a.IsAt row name element) :=
  inferInstanceAs (Decidable (_ ∧ _))

/-- The value that was assigned last to an element, if any was. -/
def lastAssigned (assignments : List Assignment) (row : Nat) (name : String)
    (element : Nat) : Option (List UInt8) :=
  (assignments.reverse.find? fun a => a.IsAt row name element).map (·.value)

theorem lastAssigned_cons (a : Assignment) (rest : List Assignment)
    (row : Nat) (name : String) (element : Nat) :
    lastAssigned (a :: rest) row name element =
      (lastAssigned rest row name element).or
        (if a.IsAt row name element then some a.value else none) := by
  simp only [lastAssigned, List.reverse_cons, List.find?_append,
    Option.map_or]
  by_cases atElement : a.IsAt row name element
  · simp [atElement]
  · simp [atElement]

/-- The bytes of one element. -/
def elementBytes (types : CycTypes) (rule : RecRule) (data : List UInt8)
    (row : Nat) (attr : PAttr) (element : Nat) : List UInt8 :=
  slice data (row * rule.recSize + attr.elementOffset types element)
    (types.getTypeSize attr.type)

/-- An assignment changes the bytes of its element and of no other. -/
theorem WriteBatch.assign_element {batch : WriteBatch}
    (laidOut : batch.rule.LaidOut types)
    (positive : ∀ attr ∈ batch.rule.attributes, 1 ≤ attr.count)
    {a : Assignment} (valid : a.Valid types batch.rule batch.capacity) :
    ∃ written, batch.assign types a = some written ∧
      written.rule = batch.rule ∧ written.capacity = batch.capacity ∧
      ∀ row, ∀ attr ∈ batch.rule.mapped, ∀ element < attr.count,
        elementBytes types batch.rule written.data row attr element =
          if a.IsAt row attr.name element then a.value
          else elementBytes types batch.rule batch.data row attr element := by
  rcases valid with ⟨inRows, attr, mapped, name, inside, width⟩
  have member := (RecRule.mem_mapped.mp mapped).1
  rcases WriteBatch.assign_eq laidOut positive mapped name inRows inside
    width with ⟨written, assigned, rule, capacity, data⟩
  refine ⟨written, assigned, rule, capacity, ?_⟩
  intro row other otherMapped element otherInside
  have otherMember := (RecRule.mem_mapped.mp otherMapped).1
  have fits := Assignment.fits laidOut mapped inRows inside width
  rw [← batch.sized] at fits
  unfold elementBytes
  rw [data]
  by_cases atElement : a.IsAt row other.name element
  · rcases atElement with ⟨rfl, sameName, rfl⟩
    obtain rfl : attr = other :=
      laidOut.eq_of_name member otherMember (name.trans sameName.symm)
    rw [if_pos ⟨rfl, sameName, rfl⟩, ← width]
    exact slice_patch_self fits
  · rw [if_neg atElement]
    apply slice_patch_of_disjoint fits
    rw [width]
    apply laidOut.cells_disjoint otherMember member otherInside inside
    rintro ⟨sameRow, sameName, sameElement⟩
    exact atElement ⟨sameRow, sameName.trans name, sameElement⟩

/-- A sequence of valid assignments goes through, and leaves in every element
the value assigned last, or its bytes of before. -/
theorem WriteBatch.fill {batch : WriteBatch}
    (laidOut : batch.rule.LaidOut types)
    (positive : ∀ attr ∈ batch.rule.attributes, 1 ≤ attr.count)
    {assignments : List Assignment}
    (valid : ∀ a ∈ assignments, a.Valid types batch.rule batch.capacity) :
    ∃ written, assignments.foldlM (WriteBatch.assign types) batch =
        some written ∧
      written.rule = batch.rule ∧ written.capacity = batch.capacity ∧
      ∀ row, ∀ attr ∈ batch.rule.mapped, ∀ element < attr.count,
        elementBytes types batch.rule written.data row attr element =
          (lastAssigned assignments row attr.name element).getD
            (elementBytes types batch.rule batch.data row attr element) := by
  induction assignments generalizing batch with
  | nil =>
      refine ⟨batch, rfl, rfl, rfl, ?_⟩
      intro row attr mapped element inside
      rfl
  | cons a rest inductionHypothesis =>
      rcases WriteBatch.assign_element laidOut positive
        (valid a List.mem_cons_self) with
        ⟨middle, assigned, rule, capacity, changed⟩
      rw [← rule] at laidOut positive
      have restValid : ∀ other ∈ rest,
          other.Valid types middle.rule middle.capacity := by
        intro other member
        rw [rule, capacity]
        exact valid other (List.mem_cons_of_mem a member)
      rcases inductionHypothesis laidOut positive restValid with
        ⟨written, filled, ruleAfter, capacityAfter, contents⟩
      refine ⟨written, ?_, ruleAfter.trans rule,
        capacityAfter.trans capacity, ?_⟩
      · rw [List.foldlM_cons, assigned]
        exact filled
      · intro row attr mapped element inside
        rw [← rule] at mapped
        have after := contents row attr mapped element inside
        rw [rule] at after mapped
        rw [after, changed row attr mapped element inside, lastAssigned_cons]
        cases lastAssigned rest row attr.name element with
        | some value => rfl
        | none =>
            by_cases atElement : a.IsAt row attr.name element
            · simp [atElement]
            · simp [atElement]

/-! ### The read paths -/

theorem mapM_eq_ok {ε α β : Type} {f : α → Except ε β} {g : α → β}
    {l : List α} (each : ∀ x ∈ l, f x = .ok (g x)) :
    l.mapM f = .ok (l.map g) := by
  induction l with
  | nil => rfl
  | cons x rest inductionHypothesis =>
      rw [List.mapM_cons, each x List.mem_cons_self,
        inductionHypothesis fun y member =>
          each y (List.mem_cons_of_mem x member)]
      rfl

/-- `memcpy` over the whole of a new array of the rule's dtype makes it the
array over the copied bytes. -/
theorem memcpy_npEmpty {rule : RecRule} (memory : Nat → UInt8)
    {source : List UInt8} {count : Nat}
    (length : source.length = count * rule.recSize) :
    memcpy (npEmpty memory count rule.dtype) source
      (count * rule.recSize) = rule.view source count := by
  unfold memcpy npEmpty RecRule.view
  rw [← length, List.take_length]
  rw [patch_all]
  · rfl
  · rw [length, List.length_map, List.length_range]
    rfl

theorem readerNextBatchCopy_eq {rule : RecRule} (laidOut : rule.LaidOut types)
    (positive : ∀ attr ∈ rule.attributes, 1 ≤ attr.count)
    (memory : Nat → UInt8) {out : RecordBatch} (ofRule : out.rule = rule)
    (recordSize : out.recordSize = rule.recSize)
    (length : out.data.length = out.count * rule.recSize) :
    readerNextBatchCopy types memory out =
      .ok (rule.view out.data out.count) := by
  unfold readerNextBatchCopy
  rw [ofRule, dtypeFromRule_eq laidOut positive, recordSize]
  exact congrArg Except.ok (memcpy_npEmpty memory length)

theorem BufferReads.snapshot_eq {rule : RecRule}
    (laidOut : rule.LaidOut types)
    (positive : ∀ attr ∈ rule.attributes, 1 ≤ attr.count)
    (memory : Nat → UInt8) {buffer : BufferReads}
    (ofRule : buffer.getRule = rule)
    (length : (buffer.readRelative 0 buffer.size).length =
      buffer.size * rule.recSize) :
    buffer.snapshot types memory =
      .ok (rule.view (buffer.readRelative 0 buffer.size) buffer.size) := by
  unfold BufferReads.snapshot
  rw [ofRule, dtypeFromRule_eq laidOut positive]
  by_cases records : 0 < buffer.size
  · simp only [records, if_true]
    exact congrArg Except.ok (memcpy_npEmpty memory length)
  · have none : buffer.size = 0 := Nat.eq_zero_of_not_pos records
    have empty : buffer.readRelative 0 0 = [] := by
      rw [none, Nat.zero_mul] at length
      exact List.eq_nil_of_length_eq_zero length
    rw [none, empty]
    simp [npEmpty, RecRule.view, RecRule.dtype]

/-- Element `element` of field `name` of the record in row `row`. -/
def Dtype.readRow (dtype : Dtype) (rows : List (List UInt8)) (row : Nat)
    (name : String) (element : Nat) : Option (List UInt8) := do
  let record ← rows[row]?
  dtype.read record name element

theorem RecRule.LaidOut.readRow_eq {rule : RecRule}
    (laidOut : rule.LaidOut types)
    (positive : ∀ attr ∈ rule.attributes, 1 ≤ attr.count) {attr : PAttr}
    (mapped : attr ∈ rule.mapped) {element : Nat}
    (inside : element < attr.count) (data : List UInt8) {row count : Nat}
    (inRows : row < count) :
    rule.dtype.readRow (records data rule.recSize count) row attr.name
      element = some (elementBytes types rule data row attr element) := by
  have within := laidOut.element_inside
    (RecRule.mem_mapped.mp mapped).1 inside
  unfold Dtype.readRow
  rw [getElem?_records inRows]
  simp only [Option.bind_eq_bind, Option.bind_some]
  rw [laidOut.read_eq positive mapped inside, slice_slice within]
  rfl

/-- What reading the records back must return: for every element of a mapped
attribute in one of the first `m` rows the value assigned last, or what the
write view showed before the assignments. -/
def ReadsBack (rule : RecRule) (m : Nat) (initial : StructuredArray)
    (assignments : List Assignment) (rows : List (List UInt8)) : Prop :=
  rows.length = m ∧
    ∀ row < m, ∀ attr ∈ rule.mapped, ∀ element < attr.count,
      rule.dtype.readRow rows row attr.name element =
        (lastAssigned assignments row attr.name element).or
          (initial.read row attr.name element)

theorem readsBack_records {batch written : WriteBatch}
    (laidOut : batch.rule.LaidOut types)
    (positive : ∀ attr ∈ batch.rule.attributes, 1 ≤ attr.count)
    {assignments : List Assignment}
    (contents : ∀ row, ∀ attr ∈ batch.rule.mapped, ∀ element < attr.count,
      elementBytes types batch.rule written.data row attr element =
        (lastAssigned assignments row attr.name element).getD
          (elementBytes types batch.rule batch.data row attr element))
    {m : Nat} (room : m ≤ batch.capacity) :
    ReadsBack batch.rule m (batch.rule.view batch.data batch.capacity)
      assignments (records written.data batch.rule.recSize m) := by
  refine ⟨length_records _ _ _, ?_⟩
  intro row inRows attr mapped element inside
  rw [laidOut.readRow_eq positive mapped inside written.data inRows,
    laidOut.view_read positive mapped inside batch.data
      (Nat.lt_of_lt_of_le inRows room),
    contents row attr mapped element inside]
  cases lastAssigned assignments row attr.name element with
  | none => rfl
  | some value => rfl

/-- The three read paths return the committed records, the arrays of
`next_batch` and of `next_batch_copy` being equal. -/
theorem Published.read_paths {batch : WriteBatch} {m : Nat}
    {buffer : BufferReads} (published : Published batch m buffer)
    (laidOut : batch.rule.LaidOut types)
    (positive : ∀ attr ∈ batch.rule.attributes, 1 ≤ attr.count)
    (room : m ≤ batch.capacity) (memory : Nat → UInt8) :
    ∃ arrays snapshot,
      buffer.nextBatches.mapM (readerNextBatchView types) = .ok arrays ∧
      buffer.nextBatches.mapM (readerNextBatchCopy types memory) =
        .ok arrays ∧
      buffer.snapshot types memory = .ok snapshot ∧
      arrays.flatMap StructuredArray.records = snapshot.records ∧
      (∀ array ∈ snapshot :: arrays, array.dtype = batch.rule.dtype) ∧
      snapshot.records = records batch.data batch.rule.recSize m := by
  have committed : (batch.data.take (m * batch.rule.recSize)).length =
      m * batch.rule.recSize := by
    rw [List.length_take, batch.sized]
    exact Nat.min_eq_left (Nat.mul_le_mul_right _ room)
  have snapshotLength : (buffer.readRelative 0 buffer.size).length =
      buffer.size * batch.rule.recSize := by
    rw [published.size, published.retained, committed]
  have views : ∀ out ∈ buffer.nextBatches, readerNextBatchView types out =
      .ok (batch.rule.view out.data out.count) := by
    intro out member
    rw [readerNextBatchView, (published.batchRule out member).1]
    exact viewStructured_eq laidOut positive _ _
  have copies : ∀ out ∈ buffer.nextBatches,
      readerNextBatchCopy types memory out =
        .ok (batch.rule.view out.data out.count) := by
    intro out member
    rcases published.batchRule out member with ⟨rule, recordSize, length⟩
    exact readerNextBatchCopy_eq laidOut positive memory rule recordSize length
  have sized : ∀ out ∈ buffer.nextBatches,
      out.data.length = out.count * batch.rule.recSize := by
    intro out member
    exact (published.batchRule out member).2.2
  refine ⟨buffer.nextBatches.map fun out =>
      batch.rule.view out.data out.count,
    batch.rule.view (buffer.readRelative 0 buffer.size) buffer.size,
    mapM_eq_ok views, mapM_eq_ok copies,
    BufferReads.snapshot_eq laidOut positive memory published.rule
      snapshotLength, ?_, ?_, ?_⟩
  · rw [List.flatMap_map]
    simp only [RecRule.view_records]
    rw [flatMap_records sized, published.batchCounts, published.batchData,
      published.size, published.retained]
  · intro array member
    rcases List.mem_cons.mp member with rfl | later
    · rfl
    · rcases List.mem_map.mp later with ⟨out, _, rfl⟩
      rfl
  · rw [RecRule.view_records, published.size, published.retained,
      records_take]

/-- The write view and the three read paths agree on one layout.  Every
sequence of valid assignments through the write view goes through; whatever
number of records is then committed, the arrays of `next_batch` and of
`next_batch_copy` are equal, `snapshot` has the same records, and these hold
for every element the value assigned last or its bytes of before; and no
assignment changes a byte of another row, of another attribute or between the
attributes. -/
theorem record_paths_agree (types : CycTypes) {batch : WriteBatch}
    (laidOut : batch.rule.LaidOut types)
    (positive : ∀ attr ∈ batch.rule.attributes, 1 ≤ attr.count)
    {assignments : List Assignment}
    (valid : ∀ a ∈ assignments, a.Valid types batch.rule batch.capacity) :
    ∃ initial written, batch.asNumpy types = .ok initial ∧
      assignments.foldlM (WriteBatch.assign types) batch = some written ∧
      written.rule = batch.rule ∧ written.capacity = batch.capacity ∧
      (∀ m ≤ batch.capacity, ∀ buffer, Published written m buffer →
        ∀ memory, ∃ arrays snapshot,
          buffer.nextBatches.mapM (readerNextBatchView types) = .ok arrays ∧
          buffer.nextBatches.mapM (readerNextBatchCopy types memory) =
            .ok arrays ∧
          buffer.snapshot types memory = .ok snapshot ∧
          arrays.flatMap StructuredArray.records = snapshot.records ∧
          (∀ array ∈ snapshot :: arrays, array.dtype = batch.rule.dtype) ∧
          ReadsBack batch.rule m initial assignments snapshot.records) ∧
      ∀ before after : WriteBatch, ∀ a, before.rule = batch.rule →
        a.Valid types before.rule before.capacity →
        before.assign types a = some after →
        ∀ row, ∀ offset < before.rule.recSize,
          Untouched types before.rule a row offset →
          after.data[row * before.rule.recSize + offset]? =
            before.data[row * before.rule.recSize + offset]? := by
  rcases WriteBatch.fill laidOut positive valid with
    ⟨written, filled, rule, capacity, contents⟩
  refine ⟨batch.rule.view batch.data batch.capacity, written,
    viewStructured_eq laidOut positive _ _, filled, rule, capacity, ?_, ?_⟩
  · intro m room buffer published memory
    have readsBack := readsBack_records laidOut positive contents room
    rw [← rule] at laidOut positive
    rw [← capacity] at room
    rcases published.read_paths laidOut positive room memory with
      ⟨arrays, snapshot, views, copies, snapshots, same, dtypes, committed⟩
    rw [rule] at dtypes committed
    rw [← committed] at readsBack
    exact ⟨arrays, snapshot, views, copies, snapshots, same, dtypes,
      readsBack⟩
  · intro before after a sameRule valid assigned row offset inRecord untouched
    rw [← sameRule] at laidOut positive
    exact before.assign_frame laidOut positive valid assigned inRecord
      untouched

/-- A buffer that hands the first `m` records of the batch out at once. -/
def WriteBatch.publishAtOnce (batch : WriteBatch) (m : Nat) : BufferReads where
  getRule := batch.rule
  size := m
  readRelative first count :=
    slice batch.data (first * batch.rule.recSize)
      (count * batch.rule.recSize)
  nextBatches :=
    [{ rule := batch.rule
       data := batch.data.take (m * batch.rule.recSize)
       count := m
       recordSize := batch.rule.recSize }]

theorem published_publishAtOnce {batch : WriteBatch} {m : Nat}
    (room : m ≤ batch.capacity) :
    Published batch m (batch.publishAtOnce m) where
  rule := rfl
  size := rfl
  retained := by
    simp [WriteBatch.publishAtOnce, slice]
  batchRule := by
    intro out member
    obtain rfl := List.mem_singleton.mp member
    refine ⟨rfl, rfl, ?_⟩
    rw [List.length_take, batch.sized]
    exact Nat.min_eq_left (Nat.mul_le_mul_right _ room)
  batchCounts := by
    simp [WriteBatch.publishAtOnce]
  batchData := by
    simp [WriteBatch.publishAtOnce]

/-- Two records with an integer, a pointer and an array of two bytes, and two
bytes of padding. -/
def pointerBetween : WriteBatch where
  rule :=
    { attributes :=
        [{ name := "A", type := .dtInt32, count := 1, offset := 0 },
          { name := "P", type := .dtPtr, count := 1, offset := 4 },
          { name := "B", type := .dtUInt8, count := 2, offset := 12 }]
      recSize := 16 }
  capacity := 2
  data := List.replicate 32 0
  sized := by decide

/-- Element 1 of field `B` of record 1 is assigned twice. -/
def assignedTwice : List Assignment :=
  [{ row := 1, field := "B", element := 1, value := [7] },
    { row := 0, field := "A", element := 0, value := [1, 2, 3, 4] },
    { row := 1, field := "B", element := 1, value := [9] }]

theorem record_paths_agree_assignedTwice :
    ∃ written snapshot,
      assignedTwice.foldlM (WriteBatch.assign types64) pointerBetween =
        some written ∧
      (written.publishAtOnce 2).snapshot types64 (fun _ => 255) =
        .ok snapshot ∧
      pointerBetween.rule.dtype.readRow snapshot.records 1 "B" 1 =
        some [9] := by
  let attrA : PAttr :=
    { name := "A", type := .dtInt32, count := 1, offset := 0 }
  let attrB : PAttr :=
    { name := "B", type := .dtUInt8, count := 2, offset := 12 }
  have laidOut : pointerBetween.rule.LaidOut types64 :=
    ⟨by decide, 0, rfl, rfl, rfl, show 14 ≤ 16 by decide⟩
  have mappedA : attrA ∈ pointerBetween.rule.mapped := by decide
  have mappedB : attrB ∈ pointerBetween.rule.mapped := by decide
  have valid : ∀ a ∈ assignedTwice,
      a.Valid types64 pointerBetween.rule pointerBetween.capacity := by
    simp only [assignedTwice, List.mem_cons, List.not_mem_nil, or_false,
      forall_eq_or_imp, forall_eq]
    exact ⟨⟨by decide, attrB, mappedB, rfl, by decide, rfl⟩,
      ⟨by decide, attrA, mappedA, rfl, by decide, rfl⟩,
      ⟨by decide, attrB, mappedB, rfl, by decide, rfl⟩⟩
  rcases record_paths_agree types64 laidOut (by decide) valid with
    ⟨initial, written, _, filled, _, capacity, paths, _⟩
  have published := published_publishAtOnce (Nat.le_of_eq capacity.symm)
  rcases paths 2 (by decide) _ published (fun _ => 255) with
    ⟨_, snapshot, _, _, read, _, _, readsBack⟩
  refine ⟨written, snapshot, filled, read, ?_⟩
  rw [readsBack.2 1 (by decide) attrB mappedB 1 (by decide),
    show lastAssigned assignedTwice 1 attrB.name 1 = some [9] by decide]
  rfl

end CycFlowPy.Numpy
