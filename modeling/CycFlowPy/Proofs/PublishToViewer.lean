/-
Module: CycFlowPy.Proofs.PublishToViewer
Purpose: What a viewer shows of records published from a table are the rows of
  the table under their numbers, through the writer's batches, the dtypes and
  the rings of the channels.
Trusted boundary: none
Main exports: drain_delivered, WindowState.Watching,
  WindowState.Watching.step, WindowState.Watching.run, showsRow_of_byName,
  published_rows_shown
-/
import CycFlowPy.Model.PublishToViewer
import CycFlowPy.Proofs.PublishByName
import CycFlowPy.Proofs.RecordPaths
import CycFlowPy.Proofs.ViewerWindow

namespace CycFlowPy.Viewer

open Numpy Runs Slices

variable {types : CycTypes} {memory : Nat → UInt8} {numpy : NumpyStore}
variable {getName : Nat → Option String}

/-! ### Batches on their way -/

/-- What two groups of batches hold. -/
theorem Delivers.split {rule : RecRule} {handed : List (List UInt8)}
    {batches others : List RecordBatch}
    (delivers : Delivers rule handed (batches ++ others)) :
    ∃ first second, first ++ second = handed ∧
      Delivers rule first batches ∧ Delivers rule second others := by
  have contents := delivers.contents
  rw [List.flatMap_append] at contents
  refine ⟨_, _, contents, ⟨?_, rfl⟩, ⟨?_, rfl⟩⟩
  · intro batch member
    exact delivers.batchRule batch (List.mem_append_left others member)
  · intro batch member
    exact delivers.batchRule batch (List.mem_append_right batches member)

/-- The bytes of a received record. -/
def ReceivedRecord.bytes (record : ReceivedRecord) : Option (List UInt8) :=
  record.1.record record.2

/-- The records that a batch of the rule brings. -/
def broughtBy (rule : RecRule) (batch : RecordBatch) : List ReceivedRecord :=
  recordsOf (rule.view batch.data batch.count)

theorem broughtBy_bytes (rule : RecRule) (batch : RecordBatch) :
    (broughtBy rule batch).map ReceivedRecord.bytes =
      (records batch.data rule.recSize batch.count).map some := by
  rw [broughtBy, recordsOf, records, List.map_map, List.map_map]
  apply List.map_congr_left
  intro row inside
  exact if_pos (List.mem_range.mp inside)

theorem flatMap_broughtBy_bytes (rule : RecRule)
    (batches : List RecordBatch) :
    (batches.flatMap (broughtBy rule)).map ReceivedRecord.bytes =
      (batches.flatMap fun batch =>
        records batch.data rule.recSize batch.count).map some := by
  rw [List.map_flatMap, List.map_flatMap]
  simp only [broughtBy_bytes]

/-! ### The channels of a connected window -/

theorem mapM_keeping {α β : Type} {key : α → β} {f : α → Option α}
    {P : α → Prop} {l : List α}
    (each : ∀ x ∈ l, ∃ y, f x = some y ∧ key y = key x ∧ P y) :
    ∃ ys, l.mapM f = some ys ∧ ys.map key = l.map key ∧ ∀ y ∈ ys, P y := by
  induction l with
  | nil => exact ⟨[], rfl, rfl, by simp⟩
  | cons x l inductionHypothesis =>
      rcases each x List.mem_cons_self with ⟨y, first, sameKey, holds⟩
      rcases inductionHypothesis
          (fun z member => each z (List.mem_cons_of_mem x member)) with
        ⟨ys, rest, sameKeys, holdRest⟩
      refine ⟨y :: ys, ?_, ?_, List.forall_mem_cons.mpr ⟨holds, holdRest⟩⟩
      · rw [List.mapM_cons, first, rest]
        rfl
      · rw [List.map_cons, List.map_cons, sameKey, sameKeys]

/-- The channels belong to the tracks of the rule, and each shows the last
`shown` of the received records. -/
structure Showing (getName : Nat → Option String) (rule : BitRule)
    (channels : List Track) (size shown : Nat)
    (received : List ReceivedRecord) : Prop where
  specs : channels.map (·.spec) =
    rule.attributes.flatMap (BitAttr.specs getName)
  follows : ∀ track ∈ channels, ∃ head,
    track.Follows size head shown received

theorem Showing.ofRule {rule : BitRule} {channels : List Track}
    {size shown : Nat} {received : List ReceivedRecord}
    (showing : Showing getName rule channels size shown received) :
    OfRule getName rule channels := by
  intro track member
  rw [← showing.specs]
  exact List.mem_map_of_mem member

/-- Changing every track and keeping its spec. -/
theorem Showing.mapM {rule : BitRule} {channels : List Track}
    {size shown size' shown' : Nat} {received received' : List ReceivedRecord}
    {f : Track → Option Track}
    (showing : Showing getName rule channels size shown received)
    (each : ∀ track ∈ channels, ∃ after, f track = some after ∧
      after.spec = track.spec ∧
        ∃ head, after.Follows size' head shown' received') :
    ∃ after, channels.mapM f = some after ∧
      Showing getName rule after size' shown' received' := by
  rcases mapM_keeping each with ⟨after, changed, specs, follows⟩
  exact ⟨after, changed, specs.trans showing.specs, follows⟩

/-- A laid-out rule of which no attribute is empty. -/
structure Drawable (types : CycTypes) (rule : BitRule) : Prop where
  laidOut : rule.layout.LaidOut types
  positive : ∀ attr ∈ rule.layout.attributes, 1 ≤ attr.count

theorem Drawable.built {rule : BitRule} (drawable : Drawable types rule) :
    dtypeFromRule types rule.layout = .ok rule.layout.dtype :=
  dtypeFromRule_eq drawable.laidOut drawable.positive

/-- Draining valid batches of the rule reaches the end of the loop and shows
the records of all of them. -/
theorem drain_delivered (memory : Nat → UInt8) (numpy : NumpyStore)
    {rule : BitRule} (drawable : Drawable types rule)
    {batches : List RecordBatch} {channels : List Track} {size shown : Nat}
    {received : List ReceivedRecord}
    (showing : Showing getName rule channels size shown received)
    (fits : shown ≤ size)
    (batchRule : ∀ batch ∈ batches, batch.rule = rule.layout ∧
      batch.recordSize = rule.layout.recSize ∧
        batch.data.length = batch.count * rule.layout.recSize) :
    ∃ after, drain types memory numpy batches channels = some (after, true) ∧
      Showing getName rule after size
        (min size (shown + (batches.map (·.count)).sum))
        (received ++ batches.flatMap (broughtBy rule.layout)) := by
  induction batches generalizing channels shown received with
  | nil =>
      refine ⟨channels, rfl, ?_⟩
      simpa [Nat.min_eq_right fits] using showing
  | cons batch batches inductionHypothesis =>
      rcases batchRule batch List.mem_cons_self with
        ⟨ofRule, recordSize, length⟩
      have copied : readerNextBatchCopy types memory batch =
          .ok (rule.layout.view batch.data batch.count) :=
        readerNextBatchCopy_eq drawable.laidOut drawable.positive memory ofRule
          recordSize length
      have appended : ∀ track ∈ channels, ∃ after,
          Track.append numpy (rule.layout.view batch.data batch.count) track =
              some after ∧
            after.spec = track.spec ∧
            ∃ head, after.Follows size head (min size (shown + batch.count))
              (received ++ broughtBy rule.layout batch) := by
        intro track member
        rcases showing.follows track member with ⟨head, follows⟩
        have extracts : Extracts (rule.layout.view batch.data batch.count)
            track.spec :=
          rule_extracts drawable.built (showing.ofRule track member)
        rcases follows.append extracts with ⟨after, appends, spec, shows⟩
        exact ⟨after, appends, spec, _, shows⟩
      rcases showing.mapM appended with ⟨middle, all, showingMiddle⟩
      rcases inductionHypothesis showingMiddle (Nat.min_le_left _ _)
          (fun other member =>
            batchRule other (List.mem_cons_of_mem batch member)) with
        ⟨after, drains, showingAfter⟩
      refine ⟨after, ?_, ?_⟩
      · rw [drain, copied]
        simp only [all, Option.bind_eq_bind, Option.bind_some, drains]
      · have shown : min size (shown + ((batch :: batches).map
            (·.count)).sum) =
          min size (min size (shown + batch.count) +
            (batches.map (·.count)).sum) := by
          rw [List.map_cons, List.sum_cons]
          omega
        rw [shown, List.flatMap_cons, ← List.append_assoc]
        exact showingAfter

/-- Received records with the bytes of these, in arrays of the rule's dtype. -/
structure Carries (rule : BitRule) (received : List ReceivedRecord)
    (contents : List (List UInt8)) : Prop where
  bytes : received.map ReceivedRecord.bytes = contents.map some
  dtype : ∀ record ∈ received, record.1.dtype = rule.layout.dtype

theorem Carries.length_eq {rule : BitRule} {received : List ReceivedRecord}
    {contents : List (List UInt8)} (carries : Carries rule received contents) :
    received.length = contents.length := by
  simpa using congrArg List.length carries.bytes

theorem carries_nil (rule : BitRule) : Carries rule [] [] where
  bytes := rfl
  dtype := by simp

theorem Carries.append {rule : BitRule} {received : List ReceivedRecord}
    {contents : List (List UInt8)} (carries : Carries rule received contents)
    (batches : List RecordBatch) :
    Carries rule (received ++ batches.flatMap (broughtBy rule.layout))
      (contents ++ batches.flatMap fun batch =>
        records batch.data rule.layout.recSize batch.count) where
  bytes := by
    rw [List.map_append, List.map_append, carries.bytes,
      flatMap_broughtBy_bytes]
  dtype := by
    intro record member
    rcases List.mem_append.mp member with before | brought
    · exact carries.dtype record before
    · rcases List.mem_flatMap.mp brought with ⟨batch, _, inBatch⟩
      rcases List.mem_map.mp inBatch with ⟨row, _, rfl⟩
      rfl

/-- The window reads the rule's buffer, and each track shows the last records
of those handed out since the last clear. -/
structure WindowState.Watching (getName : Nat → Option String)
    (rule : BitRule) (s : WindowState) (watch : Watch)
    (handed : List (List UInt8)) : Prop where
  reader : s.reader = some rule
  size : s.historySize = watch.historySize
  positive : 1 ≤ watch.historySize
  counted : watch.cleared + watch.received = handed.length
  bound : watch.shown ≤ watch.received
  fits : watch.shown ≤ watch.historySize
  showing : ∃ received,
    Carries rule received (handed.drop watch.cleared) ∧
      Showing getName rule s.channels watch.historySize watch.shown received

theorem WindowState.Watching.length_received {rule : BitRule}
    {s : WindowState} {watch : Watch} {handed : List (List UInt8)}
    (watching : s.Watching getName rule watch handed)
    {received : List ReceivedRecord}
    (carries : Carries rule received (handed.drop watch.cleared)) :
    received.length = watch.received := by
  rw [carries.length_eq, List.length_drop, ← watching.counted]
  exact Nat.add_sub_cancel_left _ _

/-- Connecting to a buffer with at least one track starts with empty
channels. -/
theorem watching_connect (getName : Nat → Option String) {s : WindowState}
    {rule : BitRule} (positive : 1 ≤ s.historySize)
    (drawn : rule.attributes.flatMap BitAttr.tracks ≠ []) :
    ∃ t, s.connect getName (some rule) = some t ∧
      t.Watching getName rule { historySize := s.historySize } [] := by
  have specs : rule.attributes.flatMap (BitAttr.specs getName) ≠ [] := by
    intro none
    exact drawn ((specs_eq_nil_iff getName rule).mp none)
  rw [WindowState.connect, buildChannelSpecs_eq, Option.bind_eq_bind,
    Option.bind_some, if_neg (fun empty => specs (List.isEmpty_iff.mp empty))]
  have showing : Showing getName rule
      (s.buildPlots (rule.attributes.flatMap (BitAttr.specs getName)))
      s.historySize 0 [] := by
    constructor
    · rw [WindowState.buildPlots, List.map_map]
      exact List.map_id _
    · intro track member
      rcases List.mem_map.mp member with ⟨spec, _, rfl⟩
      exact ⟨0, follows_fresh spec positive⟩
  exact ⟨_, rfl, {
    reader := rfl
    size := rfl
    positive := positive
    counted := rfl
    bound := Nat.le_refl 0
    fits := Nat.zero_le _
    showing := ⟨[], carries_nil rule, showing⟩ }⟩

/-- The curves are drawn from the views they show. -/
def Drawn (channels : List Track) : Prop :=
  ∀ track ∈ channels, track.curve = track.channel.view

theorem drawn_setData (channels : List Track) :
    Drawn (channels.map Track.setData) := by
  intro track member
  rcases List.mem_map.mp member with ⟨before, _, rfl⟩
  rfl

theorem Showing.setData {rule : BitRule} {channels : List Track}
    {size shown : Nat} {received : List ReceivedRecord}
    (showing : Showing getName rule channels size shown received) :
    Showing getName rule (channels.map Track.setData) size shown
      received where
  specs := by
    rw [List.map_map]
    exact showing.specs
  follows := by
    intro track member
    rcases List.mem_map.mp member with ⟨before, inChannels, rfl⟩
    rcases showing.follows before inChannels with ⟨head, follows⟩
    exact ⟨head, follows.head, follows.history⟩

/-- A tick that drains the reader draws the curves unless paused. -/
theorem onTick_eq {s : WindowState} {rule : BitRule}
    {batches : List RecordBatch} {after : List Track}
    (reader : s.reader = some rule)
    (drains : drain types memory numpy batches s.channels =
      some (after, true)) :
    s.onTick types memory numpy batches =
      some { s with
        channels := if s.paused then after else after.map Track.setData } := by
  rcases s with ⟨channels, _, historySize, paused⟩
  subst reader
  simp only [WindowState.onTick, drains]
  cases paused with
  | true => rfl
  | false => rfl

theorem WindowState.Watching.onTick {s : WindowState} {rule : BitRule}
    {watch : Watch} {handed more : List (List UInt8)}
    {batches : List RecordBatch} (memory : Nat → UInt8) (numpy : NumpyStore)
    (drawable : Drawable types rule)
    (watching : s.Watching getName rule watch handed)
    (delivers : Delivers rule.layout more batches) :
    ∃ t, s.onTick types memory numpy batches = some t ∧
      t.Watching getName rule (watch.step (.tick batches)) (handed ++ more) ∧
      t.paused = s.paused ∧ (s.paused = false → Drawn t.channels) := by
  rcases watching.showing with ⟨received, carries, showing⟩
  rcases drain_delivered memory numpy drawable showing watching.fits
    delivers.batchRule with ⟨after, drains, showingAfter⟩
  have brought : (batches.map (·.count)).sum = more.length := by
    rw [← delivers.contents, List.length_flatMap]
    simp only [length_records]
  have carriesAfter := carries.append batches
  rw [delivers.contents, ← List.drop_append_of_le_length
    (Nat.le_of_add_right_le (Nat.le_of_eq watching.counted))] at carriesAfter
  have watchingAfter (channels : List Track)
      (showing : Showing getName rule channels watch.historySize
        (min watch.historySize (watch.shown + (batches.map (·.count)).sum))
        (received ++ batches.flatMap (broughtBy rule.layout))) :
      WindowState.Watching getName rule { s with channels := channels }
        (watch.step (.tick batches)) (handed ++ more) := {
    reader := watching.reader
    size := watching.size
    positive := watching.positive
    counted := by
      rw [List.length_append, ← watching.counted, ← brought, Nat.add_assoc]
      rfl
    bound := Nat.le_trans (Nat.min_le_right _ _)
      (Nat.add_le_add_right watching.bound _)
    fits := Nat.min_le_left _ _
    showing := ⟨_, carriesAfter, showing⟩ }
  rw [onTick_eq watching.reader drains]
  by_cases paused : s.paused = true
  · rw [if_pos paused]
    exact ⟨_, rfl, watchingAfter after showingAfter, rfl, by simp [paused]⟩
  · rw [if_neg paused]
    exact ⟨_, rfl, watchingAfter _ showingAfter.setData, rfl,
      fun _ => drawn_setData after⟩

theorem WindowState.Watching.onClear {s : WindowState} {rule : BitRule}
    {watch : Watch} {handed : List (List UInt8)}
    (watching : s.Watching getName rule watch handed) :
    s.onClear.Watching getName rule (watch.step .clear) handed where
  reader := watching.reader
  size := watching.size
  positive := watching.positive
  counted := watching.counted
  bound := Nat.le_refl 0
  fits := Nat.zero_le _
  showing := by
    rcases watching.showing with ⟨_, _, showing⟩
    refine ⟨[], ?_, ?_, ?_⟩
    · simp only [Watch.step, watching.counted, List.drop_length]
      exact carries_nil rule
    · rw [← showing.specs, WindowState.onClear, List.map_map]
      rfl
    · intro track member
      rcases List.mem_map.mp member with ⟨before, inChannels, rfl⟩
      rcases showing.follows before inChannels with ⟨head, follows⟩
      exact ⟨0, follows.reset ([], [])⟩

theorem WindowState.Watching.onHistoryChanged {s : WindowState}
    {rule : BitRule} {watch : Watch} {handed : List (List UInt8)}
    (watching : s.Watching getName rule watch handed) {val : Nat}
    (positive : 1 ≤ val) :
    ∃ t, s.onHistoryChanged val = some t ∧
      t.Watching getName rule (watch.step (.historyChanged val)) handed := by
  rw [WindowState.onHistoryChanged]
  by_cases same : val = s.historySize
  · rw [if_pos same, Watch.step, same, watching.size,
      Nat.min_eq_right watching.fits]
    exact ⟨s, rfl, watching⟩
  · rw [if_neg same]
    rcases watching.showing with ⟨received, carries, showing⟩
    have bound : watch.shown ≤ received.length := by
      rw [watching.length_received carries]
      exact watching.bound
    have resized : ∀ track ∈ s.channels, ∃ after,
        Track.resize val track = some after ∧ after.spec = track.spec ∧
          ∃ head, after.Follows val head (min val watch.shown) received := by
      intro track member
      rcases showing.follows track member with ⟨head, follows⟩
      rcases follows.resize bound positive (watching.size ▸ same) with
        ⟨after, resizes, spec, shows⟩
      exact ⟨after, resizes, spec, _, shows⟩
    rcases showing.mapM resized with ⟨after, all, showingAfter⟩
    simp only [all, Option.bind_eq_bind, Option.bind_some]
    exact ⟨_, rfl, {
      reader := watching.reader
      size := rfl
      positive := positive
      counted := watching.counted
      bound := Nat.le_trans (Nat.min_le_right _ _) watching.bound
      fits := Nat.min_le_left _ _
      showing := ⟨received, carries, showingAfter⟩ }⟩

/-- No handler of a connected window raises, and each keeps the tracks on the
records handed out. -/
theorem WindowState.Watching.step {s : WindowState} {rule : BitRule}
    {watch : Watch} {handed more : List (List UInt8)} {event : WindowEvent}
    (memory : Nat → UInt8) (numpy : NumpyStore)
    (drawable : Drawable types rule)
    (watching : s.Watching getName rule watch handed)
    (watches : event.Watches)
    (delivers : Delivers rule.layout more (deliveredBy [event])) :
    ∃ t, s.step types memory numpy getName event = some t ∧
      t.Watching getName rule (watch.step event) (handed ++ more) := by
  cases event with
  | connect | disconnect => cases watches
  | tick batches =>
      rw [show deliveredBy [.tick batches] = batches from
        List.append_nil batches] at delivers
      rcases watching.onTick memory numpy drawable delivers with
        ⟨t, next, watchingAfter, _⟩
      exact ⟨t, next, watchingAfter⟩
  | clear =>
      obtain rfl : [] = more := delivers.contents
      rw [List.append_nil]
      exact ⟨_, rfl, watching.onClear⟩
  | historyChanged val =>
      obtain rfl : [] = more := delivers.contents
      rw [List.append_nil]
      exact watching.onHistoryChanged (Nat.le_trans (by decide) watches.1)
  | pauseToggled on =>
      obtain rfl : [] = more := delivers.contents
      rw [List.append_nil]
      exact ⟨_, rfl, { watching with }⟩

/-- Any events of a connected window. -/
theorem WindowState.Watching.run {s : WindowState} {rule : BitRule}
    {watch : Watch} {handed more : List (List UInt8)}
    {events : List WindowEvent} (memory : Nat → UInt8) (numpy : NumpyStore)
    (drawable : Drawable types rule)
    (watching : s.Watching getName rule watch handed)
    (watches : ∀ event ∈ events, event.Watches)
    (delivers : Delivers rule.layout more (deliveredBy events)) :
    ∃ t, Run (WindowState.step types memory numpy getName) s events t ∧
      t.Watching getName rule (events.foldl Watch.step watch)
        (handed ++ more) := by
  induction events generalizing s watch handed more with
  | nil =>
      obtain rfl : [] = more := delivers.contents
      rw [List.append_nil]
      exact ⟨s, Run.nil_iff.mpr rfl, watching⟩
  | cons event events inductionHypothesis =>
      rw [List.forall_mem_cons] at watches
      have split : deliveredBy (event :: events) =
          deliveredBy [event] ++ deliveredBy events := by
        simp [deliveredBy]
      rw [split] at delivers
      rcases delivers.split with ⟨first, second, rfl, now, later⟩
      rcases watching.step memory numpy drawable watches.1 now with
        ⟨middle, next, watchingMiddle⟩
      rcases inductionHypothesis watchingMiddle watches.2 later with
        ⟨t, run, watchingLast⟩
      refine ⟨t, Run.cons_iff.mpr ⟨middle, next, run⟩, ?_⟩
      rw [List.foldl_cons, ← List.append_assoc]
      exact watchingLast

/-! ### From the record back to the row -/

theorem read_eq_some {dtype : Dtype} {record value : List UInt8}
    {name : String} {element : Nat}
    (reads : dtype.read record name element = some value) :
    ∃ field ∈ dtype.fields, dtype.field? name = some field ∧
      field.name = name ∧ element < field.count ∧
      value = elementBytes field element record := by
  unfold Dtype.read at reads
  cases found : dtype.field? name with
  | none =>
      rw [found] at reads
      cases reads
  | some field =>
      rw [found, Option.bind_eq_bind, Option.bind_some] at reads
      have named := List.find?_some found
      rw [decide_eq_true_eq] at named
      by_cases inside : element < field.count
      · rw [if_pos inside] at reads
        exact ⟨field, List.mem_of_find?_eq_some found, rfl, named, inside,
          (Option.some.inj reads).symm⟩
      · rw [if_neg inside] at reads
        cases reads

/-- A column comes from an element of a subarray, or from a scalar field. -/
theorem scalar_of_extract {array : StructuredArray} {spec : ChannelSpec}
    {format : NumpyFormat} {values : List (List UInt8)}
    (taken : extract array spec = some (.column format values))
    (whole : spec.index = none) {field : DtypeField}
    (found : array.dtype.field? spec.fieldName = some field) :
    field.count = 1 := by
  cases shape : field.subarray with
  | none => simp [DtypeField.count, shape]
  | some width =>
      rw [extract, fieldArray, found, whole] at taken
      simp only [Option.bind_eq_bind, Option.bind_some, shape] at taken
      -- a table stays a table when its bits are taken
      cases bit : spec.bitPos with
      | none =>
          rw [bit] at taken
          cases taken
      | some pos =>
          rw [bit] at taken
          rcases Option.bind_eq_some_iff.mp taken with ⟨_, _, table⟩
          cases table

section Row

variable {rule : BitRule} {array : StructuredArray} {number : Nat}
variable {record : List UInt8} {row : Row}

-- the record has the values of the row by name
variable (dtype : array.dtype = rule.layout.dtype)
variable (bytes : array.record number = some record)
variable (byName : ByName rule.layout
  (rule.layout.dtype.fields.map DtypeField.column) row record)
include dtype bytes byName

/-- What is read from the record is an element of the row's value. -/
theorem read_of_byName {name : String} {element : Nat} {value : List UInt8}
    (reads : array.read number name element = some value) :
    ∃ field, array.dtype.field? name = some field ∧
      field.column ∈ rule.layout.dtype.fields.map DtypeField.column ∧
      field.name = name ∧ ∃ cell,
        valueOf (rule.layout.dtype.fields.map DtypeField.column) row name =
            some cell ∧
          value = slice cell (element * field.format.itemSize)
            field.format.itemSize ∧
          (field.count = 1 → cell = slice cell 0 field.format.itemSize) := by
  rw [StructuredArray.read, bytes, Option.bind_eq_bind,
    Option.bind_some] at reads
  rcases read_eq_some reads with ⟨field, member, found, named, inside, rfl⟩
  rw [dtype] at member
  have cell := byName field member
  have within : element * field.format.itemSize + field.format.itemSize ≤
      field.size := by
    rw [DtypeField.size, Nat.mul_comm field.format.itemSize]
    exact row_fits inside
  refine ⟨field, found, List.mem_map_of_mem member, named, _,
    named ▸ cell, ?_, ?_⟩
  · rw [slice_slice within]
    rfl
  · intro scalar
    have size : field.size = field.format.itemSize := by
      rw [DtypeField.size, scalar, Nat.mul_one]
    rw [slice_slice (Nat.le_of_eq (by rw [size, Nat.zero_add])), size,
      Nat.add_zero]

/-- What `_extract` takes from the record is what the spec names in the
row. -/
theorem showsRow_of_byName {spec : ChannelSpec}
    (extracts : Extracts array spec) {value : List UInt8}
    (taken : spec.valueIn (array, number) = some value) :
    spec.ShowsRow (rule.layout.dtype.fields.map DtypeField.column) row
      value := by
  rcases extracts with ⟨values, column, _, shown⟩
  rw [ChannelSpec.valueIn, column] at taken
  have shows := shown number value taken
  unfold ChannelSpec.Shows at shows
  unfold ChannelSpec.ShowsRow
  cases part : spec.part with
  | whole =>
      rw [part] at shows
      rcases read_of_byName dtype bytes byName shows with
        ⟨field, found, member, named, cell, valueIs, element, scalar⟩
      have index : spec.index = none := by
        unfold ChannelSpec.part at part
        split at part <;> simp_all
      have count := scalar_of_extract column index found
      refine ⟨field.column, member, named, cell, valueIs, ?_⟩
      rw [element, Nat.zero_mul]
      exact (scalar count).symm
  | element i =>
      rw [part] at shows
      rcases read_of_byName dtype bytes byName shows with
        ⟨field, _, member, named, cell, valueIs, element, _⟩
      exact ⟨field.column, member, named, cell, valueIs, element⟩
  | bit pos =>
      rw [part] at shows
      rcases shows with ⟨field, word, found, reads, bit⟩
      rcases read_of_byName dtype bytes byName reads with
        ⟨same, foundSame, member, named, cell, valueIs, element, scalar⟩
      obtain rfl : field = same := Option.some.inj (found.symm.trans foundSame)
      have index : spec.index = none := by
        unfold ChannelSpec.part at part
        split at part <;> simp_all
      have count := scalar_of_extract column index found
      refine ⟨field.column, member, named, cell, valueIs, ?_⟩
      rw [Nat.zero_mul, ← scalar count] at element
      rw [← element]
      exact bit

end Row

/-- The tracks of a watching window show the rows whose values the records
have by name. -/
theorem WindowState.Watching.showsRows {s : WindowState} {rule : BitRule}
    {watch : Watch} {handed : List (List UInt8)} {rows : List Row}
    (drawable : Drawable types rule)
    (watching : s.Watching getName rule watch handed)
    (filled : ∀ (k : Nat) record, handed[k]? = some record →
      ∃ row : Row, rows[k]? = some row ∧
        ByName rule.layout (rule.layout.dtype.fields.map DtypeField.column)
          row record)
    {track : Track} (member : track ∈ s.channels) :
    track.ShowsRows (rule.layout.dtype.fields.map DtypeField.column) rows
      watch := by
  rcases watching.showing with ⟨received, carries, showing⟩
  rcases showing.follows track member with ⟨head, follows⟩
  have length := watching.length_received carries
  have bound := watching.bound
  have counted := watching.counted
  rw [← length] at bound
  rcases follows.view bound with ⟨_, numbers, values⟩
  have shown := Track.Follows.length_items values bound
  have first : watch.cleared + (watch.received - watch.shown) +
      watch.shown = handed.length := by
    have := watching.bound
    omega
  constructor
  · rw [numbers, List.range'_eq_map_range, List.map_map]
    apply List.map_congr_left
    intro i _
    rw [Function.comp_apply, Int.natCast_add, Int.ofNat_sub watching.bound,
      length]
  · apply List.forall₂_of_length_eq_of_get
    · have all : handed.length ≤ rows.length := by
        by_contra short
        rw [Nat.not_le] at short
        rcases filled rows.length handed[rows.length]
          (List.getElem?_eq_getElem short) with ⟨row, rowAt, _⟩
        rw [List.getElem?_eq_none (Nat.le_refl _)] at rowAt
        cases rowAt
      rw [shown, List.length_take, List.length_drop]
      omega
    · intro k inRows inView
      have valueAt : track.channel.view.2[k]? =
          some track.channel.view.2[k] := List.getElem?_eq_getElem inView
      rcases follows.point bound valueAt with ⟨⟨array, number⟩, at', taken⟩
      have inReceived := List.mem_of_getElem? at'
      have dtype := carries.dtype _ inReceived
      rw [length] at at'
      have contents := congrArg
        (·[watch.received - watch.shown + k]?) carries.bytes
      simp only [List.getElem?_map, at', Option.map_some,
        List.getElem?_drop] at contents
      rcases Option.map_eq_some_iff.mp contents.symm with
        ⟨record, recordAt, bytes⟩
      rcases filled _ record recordAt with ⟨row, rowAt, byName⟩
      have built : dtypeFromRule types rule.layout = .ok array.dtype := by
        rw [dtype]
        exact drawable.built
      have extracts : Extracts array track.spec :=
        rule_extracts built (showing.ofRule track member)
      have shows := showsRow_of_byName dtype bytes.symm byName extracts taken
      rw [List.length_take, List.length_drop] at inRows
      have rowIs : ((rows.drop (watch.cleared +
          (watch.received - watch.shown))).take watch.shown)[k]? =
            some row := by
        rw [List.getElem?_take_of_lt (by omega), List.getElem?_drop,
          Nat.add_assoc]
        exact rowAt
      rw [List.getElem?_eq_getElem (by simpa using inRows)] at rowIs
      simpa [Option.some.inj rowIs] using shows

/-! ### From the table to the curves -/

/-- After a tick in a window that is not paused the curves show the views. -/
theorem WindowState.Watching.drawn {s t : WindowState} {rule : BitRule}
    {watch : Watch} {handed more : List (List UInt8)}
    {past : List WindowEvent} {batches : List RecordBatch}
    (drawable : Drawable types rule)
    (watching : s.Watching getName rule watch handed)
    (watches : ∀ event ∈ past, event.Watches)
    (delivers : Delivers rule.layout more
      (deliveredBy (past ++ [.tick batches])))
    (run : Run (WindowState.step types memory numpy getName) s
      (past ++ [.tick batches]) t)
    (playing : t.paused = false) : Drawn t.channels := by
  have split : deliveredBy (past ++ [.tick batches]) =
      deliveredBy past ++ batches := by
    simp [deliveredBy]
  rw [split] at delivers
  rcases delivers.split with ⟨first, second, rfl, now, last⟩
  rcases Run.append_iff.mp run with ⟨middle, pastRun, lastStep⟩
  rcases watching.run memory numpy drawable watches now with
    ⟨reached, reachedRun, watchingMiddle⟩
  obtain rfl : middle = reached :=
    Option.some.inj (pastRun.symm.trans reachedRun)
  rcases watchingMiddle.onTick memory numpy drawable last with
    ⟨drawnState, ticks, _, paused, drawn⟩
  rcases Run.cons_iff.mp lastStep with ⟨after, next, ended⟩
  obtain rfl := Run.nil_iff.mp ended
  obtain rfl : after = drawnState := Option.some.inj (next.symm.trans ticks)
  exact drawn (paused ▸ playing)

/-- The rule is laid out with every count at least 1, and has a track.  A table
with the columns of the rule's fields, in their order, is published, and a
window in any state connects to the buffer.  Whatever the writer's batches are,
and however ticks, clears, history changes and pauses follow each other while
the reader hands out a prefix of the committed records, there is one track for
each part of an attribute, it shows under every number the value of the row
with that number, and after a tick its curve is what it shows. -/
theorem published_rows_shown (types : CycTypes) (memory : Nat → UInt8)
    (numpy : NumpyStore) (getName : Nat → Option String) (cast : NumpyCast)
    {rule : BitRule}
    (drawable : Drawable types rule)
    (drawn : rule.attributes.flatMap BitAttr.tracks ≠ []) {input : ColumnArray}
    (ordered : input.columns =
      rule.layout.dtype.fields.map DtypeField.column)
    (writer : Nat → Option (WriterBatch rule.layout))
    {before : List WindowEvent} {s : WindowState}
    (admitted : Meets (WindowState.step types memory numpy getName)
      WindowState.Admits {} before)
    (reached : Run (WindowState.step types memory numpy getName) {} before
      s) :
    ∃ result, publishDataframe types (Numpy.assignSlice cast input) writer
        input.rows.length = some result ∧
      ∀ (events : List WindowEvent) (handed : List (List UInt8)),
        (∀ event ∈ events, event.Watches) →
        Delivers rule.layout handed (deliveredBy events) →
        handed <+: result.records →
          ∃ t, Run (WindowState.step types memory numpy getName) s
              (.connect (some rule) :: events) t ∧
            t.channels.map (fun track => track.spec.track) =
              rule.attributes.flatMap BitAttr.tracks ∧
            (∀ track ∈ t.channels, track.ShowsRows input.columns input.rows
              (events.foldl Watch.step { historySize := s.historySize })) ∧
            ∀ past batches, events = past ++ [.tick batches] →
              t.paused = false → Drawn t.channels := by
  have disjoint : rule.layout.dtype.fields.Pairwise DtypeField.Disjoint :=
    drawable.laidOut.fields_disjoint fun attr mapped =>
      drawable.positive attr (RecRule.mem_mapped.mp mapped).1
  have byName : PublishesByName types cast rule.layout
      (rule.layout.dtype.fields.map DtypeField.column) :=
    publishesByName_of_ordered disjoint
  rcases byName input ordered writer with ⟨result, published, filled⟩
  refine ⟨result, published, ?_⟩
  intro events handed watches delivers inOrder
  rcases follows_start.run admitted with ⟨same, sameRun, follows⟩
  obtain rfl : s = same := Option.some.inj (reached.symm.trans sameRun)
  rcases watching_connect getName follows.positive drawn with
    ⟨connected, connects, start⟩
  rcases start.run memory numpy drawable watches delivers with
    ⟨t, run, watching⟩
  rw [List.nil_append] at watching
  refine ⟨t, Run.cons_iff.mpr ⟨connected, connects, run⟩, ?_, ?_, ?_⟩
  · rcases watching.showing with ⟨_, _, showing⟩
    have tracks := congrArg (List.map ChannelSpec.track) showing.specs
    rw [rule_specs_tracks, List.map_map] at tracks
    exact tracks
  · intro track member
    rw [ordered]
    apply watching.showsRows drawable _ member
    intro k record recordAt
    apply filled k record
    have inside := (List.getElem?_eq_some_iff.mp recordAt).1
    rcases inOrder with ⟨rest, appended⟩
    rwa [← appended, List.getElem?_append_left inside]
  · rintro past batches rfl playing
    exact start.drawn drawable
      (fun event member => watches event (List.mem_append_left _ member))
      delivers run playing

/-- One row of a signed word and two floating numbers. -/
def flagsTable : ColumnArray where
  columns := flagsRule.layout.dtype.fields.map DtypeField.column
  rows := [[[253, 255], [0, 0, 128, 63, 0, 0, 0, 64]]]
  typed := by
    intro row member
    obtain rfl := List.mem_singleton.mp member
    exact .cons rfl (.cons rfl .nil)

/-- The record arrives in one batch, and the history is shortened. -/
def watchTable : List WindowEvent :=
  [.historyChanged 500,
    .tick [{
      rule := flagsRule.layout
      data := [253, 255, 0, 0, 128, 63, 0, 0, 0, 64]
      count := 1
      recordSize := 10 }]]

theorem published_rows_shown_flagsTable :
    ∃ t, Run (WindowState.step types64 (fun _ => 0) plainStore
        (fun _ => none)) {} (.connect (some flagsRule) :: watchTable) t ∧
      ∀ track ∈ t.channels, track.ShowsRows flagsTable.columns
        flagsTable.rows { historySize := 500, received := 1, shown := 1 } := by
  have drawable : Drawable types64 flagsRule :=
    ⟨⟨by decide, 0, rfl, rfl, show 10 ≤ 10 by decide⟩, by decide⟩
  have ordered : flagsTable.columns =
      flagsRule.layout.dtype.fields.map DtypeField.column := rfl
  have admitted : Meets (WindowState.step types64 (fun _ => 0) plainStore
      (fun _ => none)) WindowState.Admits {} [] := trivial
  have committed : (publishDataframe types64
      (Numpy.assignSlice castZeroOne flagsTable)
      (fun _ => some (oneRecord flagsRule.layout)) 1).map
        PublishResult.records =
      some [[253, 255, 0, 0, 128, 63, 0, 0, 0, 64]] := by
    decide
  rcases published_rows_shown types64 (fun _ => 0) plainStore (fun _ => none)
    castZeroOne drawable (by decide) ordered
    (fun _ => some (oneRecord flagsRule.layout)) admitted rfl with
    ⟨result, published, shows⟩
  rw [show flagsTable.rows.length = 1 from rfl] at published
  rw [published] at committed
  rcases shows watchTable [[253, 255, 0, 0, 128, 63, 0, 0, 0, 64]]
    (by simp [watchTable, WindowEvent.Watches])
    ⟨by decide, by decide⟩
    (by rw [← Option.some.inj committed]) with ⟨t, run, _, rows, _⟩
  exact ⟨t, run, rows⟩

end CycFlowPy.Viewer
