/-
Module: CycFlowPy.Proofs.ViewerWindow
Purpose: All channels of the window show the same records under the same
  numbers, whatever the order of connects, ticks, clears, resizes and pauses.
Trusted boundary: none
Main exports: Track.Follows, Track.Follows.append, WindowState.Follows,
  WindowState.Follows.step, tracks_stay_aligned
-/
import CycFlowPy.Model.ViewerWindow
import CycFlowPy.Proofs.ChannelHistory
import CycFlowPy.Proofs.ViewerTracks

namespace CycFlowPy.Viewer

open Numpy Runs

variable {types : CycTypes} {memory : Nat → UInt8} {numpy : NumpyStore}
variable {getName : Nat → Option String}

/-! ### The head of a channel depends on its counters only -/

/-- The head of a ring of `capacity` slots after a block of `count` values. -/
def headAfterAppend (capacity count head : Nat) : Nat :=
  if count = 0 then head
  else if capacity ≤ count then 0
  else (head + count) % capacity

theorem Represents.head_append {α : Type} {c d : Channel α} {h : History α}
    (represents : Represents c h) {data : List α}
    (appended : c.append data = some d) :
    d.head = headAfterAppend c.buf.length data.length c.head := by
  unfold headAfterAppend
  by_cases nonempty : data.length = 0
  · rw [if_pos nonempty]
    rw [Channel.append, if_pos nonempty] at appended
    rw [Option.some.inj appended]
  · rw [if_neg nonempty]
    rcases Nat.lt_or_ge data.length c.buf.length with short | long
    · rw [append_short_eq represents.wellFormed.headInRing nonempty
        short] at appended
      rw [if_neg (Nat.not_le_of_lt short), ← Option.some.inj appended]
    · rw [append_long_eq nonempty long] at appended
      rw [if_pos long, ← Option.some.inj appended]

/-- The head of a ring with `stored` values after its capacity became `size`,
which is a different one. -/
def headAfterResize (size stored : Nat) : Nat :=
  if 0 < size then min stored size % size else 0

theorem Represents.head_resize {α : Type} {zero : α} {c d : Channel α}
    {h : History α} (represents : Represents c h) {size : Nat}
    (different : size ≠ c.buf.length)
    (resized : c.resize zero size = some d) :
    d.head = headAfterResize size c.stored := by
  rw [resize_eq different] at resized
  rw [← Option.some.inj resized, headAfterResize,
    represents.wellFormed.length_values]

/-! ### One track -/

/-- The track's channel has this head, and represents the history of the
values in the last `stored` records. -/
structure Track.Follows (track : Track) (size head stored : Nat)
    (received : List ReceivedRecord) : Prop where
  head : track.channel.head = head
  history : ∃ items : List (List UInt8),
    items.map some = (received.map track.spec.valueIn).rtake stored ∧
      Represents track.channel
        { items := items, capacity := size, written := received.length }

theorem Track.Follows.length_items {track : Track} {stored : Nat}
    {received : List ReceivedRecord} {items : List (List UInt8)}
    (shown : items.map some =
      (received.map track.spec.valueIn).rtake stored)
    (bound : stored ≤ received.length) : items.length = stored := by
  have lengths := congrArg List.length shown
  rw [List.length_map, Ring.length_rtake, List.length_map,
    Nat.min_eq_left bound] at lengths
  exact lengths

/-- The values of a column are those `_extract` takes from the records. -/
theorem map_some_eq_valueIn {array : StructuredArray} {spec : ChannelSpec}
    {values : List (List UInt8)}
    (taken : extract array spec = some (.column spec.dtype values))
    (length : values.length = array.count) :
    values.map some = (recordsOf array).map spec.valueIn := by
  have valueIn (row : Nat) : spec.valueIn (array, row) = values[row]? := by
    rw [ChannelSpec.valueIn, taken]
  rw [recordsOf, List.map_map, ← length]
  apply List.ext_getElem?
  intro row
  rw [List.getElem?_map, List.getElem?_map]
  rcases Nat.lt_or_ge row values.length with inside | outside
  · rw [List.getElem?_range inside, List.getElem?_eq_getElem inside,
      Option.map_some, Option.map_some, Function.comp_apply, valueIn,
      List.getElem?_eq_getElem inside]
  · rw [List.getElem?_eq_none outside, List.getElem?_eq_none
      (by rwa [List.length_range])]
    rfl

theorem length_recordsOf (array : StructuredArray) :
    (recordsOf array).length = array.count := by
  rw [recordsOf, List.length_map, List.length_range]

theorem Track.Follows.append {track : Track} {size head stored : Nat}
    {received : List ReceivedRecord}
    (follows : track.Follows size head stored received)
    {array : StructuredArray} (extracts : Extracts array track.spec) :
    ∃ after, Track.append numpy array track = some after ∧
      after.spec = track.spec ∧
      after.Follows size (headAfterAppend size array.count head)
        (min size (stored + array.count)) (received ++ recordsOf array) := by
  rcases extracts with ⟨values, taken, length, _⟩
  rcases follows.history with ⟨items, shown, represents⟩
  rcases represents.append values with ⟨channel, appended, after⟩
  have capacity : track.channel.buf.length = size := represents.capacity
  refine ⟨{ track with channel := channel }, ?_, rfl, ?_, ?_⟩
  · rw [Track.append, taken, Option.bind_eq_bind, Option.bind_some,
      NumpyStore.stored_same, Option.bind_eq_bind, Option.bind_some, appended]
    rfl
  · rw [represents.head_append appended, capacity, length, follows.head]
  · refine ⟨(items ++ values).rtake size, ?_, ?_⟩
    · rw [Ring.map_rtake, List.map_append, shown,
        map_some_eq_valueIn taken length, Ring.rtake_rtake_append,
        ← List.map_append, List.length_map, length_recordsOf]
    · rw [List.length_append, length_recordsOf, ← length]
      exact after

theorem Track.Follows.resize {track : Track} {size head stored : Nat}
    {received : List ReceivedRecord}
    (follows : track.Follows size head stored received)
    (bound : stored ≤ received.length) {val : Nat} (positive : 1 ≤ val)
    (different : val ≠ size) :
    ∃ after, Track.resize val track = some after ∧
      after.spec = track.spec ∧
      after.Follows val (headAfterResize val stored) (min val stored)
        received := by
  rcases follows.history with ⟨items, shown, represents⟩
  rcases represents.resize positive with ⟨channel, resized, after⟩
  have capacity : track.channel.buf.length = size := represents.capacity
  have count : track.channel.stored = stored := by
    rw [← represents.length_items]
    exact length_items shown bound
  refine ⟨{ track with channel := channel }, ?_, rfl, ?_, ?_⟩
  · rw [Track.resize, resized]
    rfl
  · rw [← count]
    apply represents.head_resize _ resized
    rwa [capacity]
  · refine ⟨items.rtake val, ?_, after⟩
    rw [Ring.map_rtake, shown, Ring.rtake_rtake]

theorem Track.Follows.reset {track : Track} {size head stored : Nat}
    {received : List ReceivedRecord}
    (follows : track.Follows size head stored received)
    (curve : List Int × List (List UInt8)) :
    Track.Follows
      { track with channel := track.channel.reset, curve := curve } size 0 0
      [] where
  head := rfl
  history := by
    rcases follows.history with ⟨items, _, represents⟩
    exact ⟨[], rfl, represents.reset⟩

theorem follows_fresh (spec : ChannelSpec) {size : Nat}
    (positive : 1 ≤ size) :
    Track.Follows
      { spec := spec, channel := Channel.fresh (zeroOf spec.dtype) size } size
      0 0 [] where
  head := rfl
  history := ⟨[], rfl, represents_fresh _ positive⟩

/-! ### All tracks -/

/-- The channels follow the records with one head and one number of stored
values. -/
def Follow (channels : List Track) (size : Nat)
    (received : List ReceivedRecord) : Prop :=
  ∃ head stored, stored ≤ received.length ∧
    ∀ track ∈ channels, track.Follows size head stored received

/-- The channels are those of specs of the rule. -/
def OfRule (getName : Nat → Option String) (rule : BitRule)
    (channels : List Track) : Prop :=
  ∀ track ∈ channels,
    track.spec ∈ rule.attributes.flatMap (BitAttr.specs getName)

theorem mapM_of_forall {α β : Type} {f : α → Option β} {P : β → Prop}
    {l : List α} (each : ∀ x ∈ l, ∃ y, f x = some y ∧ P y) :
    ∃ ys, l.mapM f = some ys ∧ ∀ y ∈ ys, P y := by
  induction l with
  | nil => exact ⟨[], rfl, by simp⟩
  | cons x l inductionHypothesis =>
      rcases each x List.mem_cons_self with ⟨y, first, holds⟩
      rcases inductionHypothesis
          (fun z member => each z (List.mem_cons_of_mem x member)) with
        ⟨ys, rest, holdRest⟩
      refine ⟨y :: ys, ?_, ?_⟩
      · rw [List.mapM_cons, first, rest]
        rfl
      · intro z member
        rcases List.mem_cons.mp member with rfl | later
        · exact holds
        · exact holdRest z later

theorem follow_setData {channels : List Track} {size : Nat}
    {received : List ReceivedRecord} (follow : Follow channels size received) :
    Follow (channels.map Track.setData) size received := by
  rcases follow with ⟨head, stored, bound, tracks⟩
  refine ⟨head, stored, bound, ?_⟩
  intro track member
  rcases List.mem_map.mp member with ⟨before, inChannels, rfl⟩
  exact ⟨(tracks before inChannels).head, (tracks before inChannels).history⟩

/-- A batch that was copied has the dtype of its rule. -/
theorem readerNextBatchCopy_dtype {batch : RecordBatch}
    {array : StructuredArray}
    (copied : readerNextBatchCopy types memory batch = .ok array) :
    dtypeFromRule types batch.rule = .ok array.dtype := by
  unfold readerNextBatchCopy at copied
  cases built : dtypeFromRule types batch.rule with
  | error error =>
      rw [built] at copied
      cases copied
  | ok dtype =>
      rw [built] at copied
      cases copied
      rfl

/-- Draining the reader appends the records of every batch to every channel. -/
theorem drain_follow (types : CycTypes) (memory : Nat → UInt8)
    (numpy : NumpyStore) {rule : BitRule} {batches : List RecordBatch}
    {channels : List Track} {size : Nat} {received : List ReceivedRecord}
    (ofRule : OfRule getName rule channels)
    (follow : Follow channels size received)
    (batchRule : ∀ batch ∈ batches, batch.rule = rule.layout) :
    ∃ after drained,
      drain types memory numpy batches channels = some (after, drained) ∧
        OfRule getName rule after ∧
        Follow after size (received ++ receivedFrom types memory batches) := by
  induction batches generalizing channels received with
  | nil =>
      refine ⟨channels, true, rfl, ofRule, ?_⟩
      rw [receivedFrom, List.append_nil]
      exact follow
  | cons batch batches inductionHypothesis =>
      rw [drain, receivedFrom]
      cases copied : readerNextBatchCopy types memory batch with
      | error error =>
          refine ⟨channels, false, rfl, ofRule, ?_⟩
          rw [List.append_nil]
          exact follow
      | ok array =>
          have built := readerNextBatchCopy_dtype copied
          rw [batchRule batch List.mem_cons_self] at built
          rcases follow with ⟨head, stored, bound, follows⟩
          have appended : ∀ track ∈ channels, ∃ after,
              Track.append numpy array track = some after ∧
                after.spec ∈ rule.attributes.flatMap (BitAttr.specs getName) ∧
                after.Follows size (headAfterAppend size array.count head)
                  (min size (stored + array.count))
                  (received ++ recordsOf array) := by
            intro track member
            have extracts := rule_extracts built (ofRule track member)
            rcases (follows track member).append extracts with
              ⟨after, appends, spec, followsAfter⟩
            exact ⟨after, appends, spec ▸ ofRule track member, followsAfter⟩
          rcases mapM_of_forall appended with ⟨after, all, holds⟩
          have followAfter : Follow after size
              (received ++ recordsOf array) := by
            refine ⟨_, _, ?_, fun track member => (holds track member).2⟩
            rw [List.length_append, length_recordsOf]
            omega
          rcases inductionHypothesis
              (fun track member => (holds track member).1) followAfter
              (fun other member =>
                batchRule other (List.mem_cons_of_mem batch member)) with
            ⟨last, drained, rest, ofRuleLast, followLast⟩
          refine ⟨last, drained, ?_, ofRuleLast, ?_⟩
          · simp only [all, Option.bind_eq_bind, Option.bind_some, rest]
          · rwa [← List.append_assoc]

/-! ### The window -/

/-- The window reads the rule of the log, its channels are those of that
rule, and they follow the records of the log. -/
structure WindowState.Follows (getName : Nat → Option String)
    (s : WindowState) (log : ReceivedLog) : Prop where
  rule : s.reader = log.rule
  positive : 1 ≤ s.historySize
  ofRule : ∀ rule, s.reader = some rule → OfRule getName rule s.channels
  follow : Follow s.channels s.historySize log.records

theorem follows_start : WindowState.Follows getName {} {} where
  rule := rfl
  positive := by decide
  ofRule := by
    intro rule connected
    cases connected
  follow := by
    refine ⟨0, 0, Nat.le_refl 0, ?_⟩
    intro track member
    cases member

/-- Whether there is a track can be told from the rule. -/
theorem specs_eq_nil_iff (getName : Nat → Option String) (rule : BitRule) :
    rule.attributes.flatMap (BitAttr.specs getName) = [] ↔
      rule.attributes.flatMap BitAttr.tracks = [] := by
  rw [← rule_specs_tracks rule, List.map_eq_nil_iff]

theorem WindowState.Follows.connect {s : WindowState} {log : ReceivedLog}
    (follows : s.Follows getName log) (answer : Option BitRule) :
    ∃ t, s.connect getName answer = some t ∧
      t.Follows getName (log.step types memory (.connect answer)) := by
  cases answer with
  | none => exact ⟨s, rfl, follows⟩
  | some rule =>
      rw [WindowState.connect, buildChannelSpecs_eq, Option.bind_eq_bind,
        Option.bind_some, ReceivedLog.step]
      have empty_iff := specs_eq_nil_iff getName rule
      by_cases none : rule.attributes.flatMap (BitAttr.specs getName) = []
      · rw [if_pos (List.isEmpty_iff.mpr none), if_pos (empty_iff.mp none)]
        exact ⟨s, rfl, follows⟩
      · rw [if_neg (fun empty => none (List.isEmpty_iff.mp empty)),
          if_neg (fun empty => none (empty_iff.mpr empty))]
        refine ⟨_, rfl, rfl, follows.positive, ?_, 0, 0, Nat.le_refl 0, ?_⟩
        · intro other same track member
          cases same
          rcases List.mem_map.mp member with ⟨spec, ofRule, rfl⟩
          exact ofRule
        · intro track member
          rcases List.mem_map.mp member with ⟨spec, _, rfl⟩
          exact follows_fresh spec follows.positive

theorem WindowState.Follows.onTick {s : WindowState} {log : ReceivedLog}
    (follows : s.Follows getName log) {batches : List RecordBatch}
    (admits : s.Admits (.tick batches)) :
    ∃ t, s.onTick types memory numpy batches = some t ∧
      t.Follows getName (log.step types memory (.tick batches)) := by
  rw [WindowState.onTick, ReceivedLog.step, ← follows.rule]
  cases reader : s.reader with
  | none => exact ⟨s, rfl, follows⟩
  | some rule =>
      rcases drain_follow types memory numpy (follows.ofRule rule reader)
          follows.follow (admits rule reader) with
        ⟨after, drained, drains, ofRule, follow⟩
      simp only [drains, Option.bind_eq_bind, Option.bind_some,
        Option.isSome_some, if_true]
      split
      · refine ⟨_, rfl, rfl, follows.positive, ?_, follow_setData follow⟩
        intro other same track member
        cases same
        rcases List.mem_map.mp member with ⟨before, inChannels, rfl⟩
        exact ofRule before inChannels
      · refine ⟨_, rfl, rfl, follows.positive, ?_, follow⟩
        intro other same
        cases same
        exact ofRule

theorem WindowState.Follows.onHistoryChanged {s : WindowState}
    {log : ReceivedLog} (follows : s.Follows getName log) {val : Nat}
    (positive : 1 ≤ val) :
    ∃ t, s.onHistoryChanged val = some t ∧ t.Follows getName log := by
  rw [WindowState.onHistoryChanged]
  by_cases same : val = s.historySize
  · rw [if_pos same]
    exact ⟨s, rfl, follows⟩
  · rw [if_neg same]
    rcases follows.follow with ⟨head, stored, bound, tracks⟩
    have resized : ∀ track ∈ s.channels, ∃ after,
        Track.resize val track = some after ∧
          (∀ rule, s.reader = some rule → after.spec ∈
            rule.attributes.flatMap (BitAttr.specs getName)) ∧
          after.Follows val (headAfterResize val stored) (min val stored)
            log.records := by
      intro track member
      rcases (tracks track member).resize bound positive same with
        ⟨after, resizes, spec, followsAfter⟩
      refine ⟨after, resizes, ?_, followsAfter⟩
      intro rule connected
      rw [spec]
      exact follows.ofRule rule connected track member
    rcases mapM_of_forall resized with ⟨after, all, holds⟩
    simp only [all, Option.bind_eq_bind, Option.bind_some]
    refine ⟨_, rfl, follows.rule, positive, ?_, ?_⟩
    · intro rule connected track member
      exact (holds track member).1 rule connected
    · refine ⟨_, _, ?_, fun track member => (holds track member).2⟩
      exact Nat.le_trans (Nat.min_le_right val stored) bound

theorem WindowState.Follows.onClear {s : WindowState} {log : ReceivedLog}
    (follows : s.Follows getName log) :
    s.onClear.Follows getName { log with records := [] } where
  rule := follows.rule
  positive := follows.positive
  ofRule := by
    intro rule connected track member
    rcases List.mem_map.mp member with ⟨before, inChannels, rfl⟩
    exact follows.ofRule rule connected before inChannels
  follow := by
    rcases follows.follow with ⟨head, stored, _, tracks⟩
    refine ⟨0, 0, Nat.le_refl 0, ?_⟩
    intro track member
    rcases List.mem_map.mp member with ⟨before, inChannels, rfl⟩
    exact (tracks before inChannels).reset ([], [])

/-- No handler raises, and each keeps the channels on the records of the
log. -/
theorem WindowState.Follows.step (types : CycTypes) (memory : Nat → UInt8)
    (numpy : NumpyStore) {s : WindowState} {log : ReceivedLog}
    (follows : s.Follows getName log) {event : WindowEvent}
    (admits : s.Admits event) :
    ∃ t, s.step types memory numpy getName event = some t ∧
      t.Follows getName (log.step types memory event) := by
  cases event with
  | connect answer => exact follows.connect answer
  | disconnect =>
      refine ⟨_, rfl, rfl, follows.positive, ?_, follows.follow⟩
      intro rule connected
      cases connected
  | tick batches => exact follows.onTick admits
  | clear => exact ⟨_, rfl, follows.onClear⟩
  | historyChanged val =>
      exact follows.onHistoryChanged (Nat.le_trans (by decide) admits.1)
  | pauseToggled on =>
      exact ⟨_, rfl, follows.rule, follows.positive, follows.ofRule,
        follows.follow⟩

/-! ### What the views show -/

theorem Track.Follows.view {track : Track} {size head stored : Nat}
    {received : List ReceivedRecord}
    (follows : track.Follows size head stored received)
    (bound : stored ≤ received.length) :
    track.channel.stored = stored ∧
      track.channel.view.1 = (List.range stored).map (fun i : Nat =>
        (received.length : Int) - stored + (i : Int)) ∧
      track.channel.view.2.map some =
        (received.map track.spec.valueIn).rtake stored := by
  rcases follows.history with ⟨items, shown, represents⟩
  have count := length_items shown bound
  refine ⟨?_, ?_, ?_⟩
  · rw [← represents.length_items]
    exact count
  · rw [represents.view]
    simp only [History.view, count]
  · rw [represents.view]
    exact shown

/-- Point `k` of a track is record `received.length - stored + k`. -/
theorem Track.Follows.point {track : Track} {size head stored : Nat}
    {received : List ReceivedRecord}
    (follows : track.Follows size head stored received)
    (bound : stored ≤ received.length) {k : Nat} {y : List UInt8}
    (shown : track.channel.view.2[k]? = some y) :
    ∃ record, received[received.length - stored + k]? = some record ∧
      track.spec.valueIn record = some y := by
  have views := (follows.view bound).2.2
  have value : (track.channel.view.2.map some)[k]? = some (some y) := by
    rw [List.getElem?_map, shown]
    rfl
  rw [views, List.rtake, List.getElem?_drop, List.length_map,
    List.getElem?_map] at value
  exact Option.map_eq_some_iff.mp value

theorem WindowState.Follows.aligned {s : WindowState} {log : ReceivedLog}
    (follows : s.Follows getName log) : s.Aligned log.records := by
  rcases follows.follow with ⟨head, stored, bound, tracks⟩
  constructor
  · intro track member
    rcases (tracks track member).history with ⟨_, _, represents⟩
    exact represents.capacity
  · refine ⟨head, stored, log.records.length, ?_⟩
    intro track member
    rcases (tracks track member).history with ⟨_, _, represents⟩
    exact ⟨(tracks track member).head, ((tracks track member).view bound).1,
      represents.written⟩
  · refine ⟨(List.range stored).map fun i : Nat =>
      (log.records.length : Int) - stored + (i : Int), ?_⟩
    intro track member
    rcases (tracks track member).view bound with ⟨_, xs, ys⟩
    refine ⟨xs, ?_, ?_⟩
    · rw [Track.Follows.length_items ys bound, List.length_map,
        List.length_range]
    · intro k x y xAt yAt
      rcases (tracks track member).point bound yAt with
        ⟨record, received, value⟩
      refine ⟨log.records.length - stored + k, record, ?_, received, value⟩
      rw [List.getElem?_map] at xAt
      rcases Option.map_eq_some_iff.mp xAt with ⟨i, inRange, rfl⟩
      obtain rfl : k = i := by
        have inside := (List.getElem?_eq_some_iff.mp inRange).1
        rw [List.length_range] at inside
        rw [List.getElem?_range inside] at inRange
        exact Option.some.inj inRange
      omega

/-! ### Whole runs -/

/-- Events that the environment admits, from a window that follows the log. -/
theorem WindowState.Follows.run {s : WindowState} {log : ReceivedLog}
    (follows : s.Follows getName log) {events : List WindowEvent}
    (admitted : Meets (WindowState.step types memory numpy getName)
      WindowState.Admits s events) :
    ∃ t, Run (WindowState.step types memory numpy getName) s events t ∧
      t.Follows getName (events.foldl (ReceivedLog.step types memory) log) := by
  induction events generalizing s log with
  | nil => exact ⟨s, Run.nil_iff.mpr rfl, follows⟩
  | cons event events inductionHypothesis =>
      rcases admitted with ⟨admits, rest⟩
      rcases follows.step types memory numpy admits with
        ⟨middle, next, followsMiddle⟩
      rcases inductionHypothesis followsMiddle (rest middle next) with
        ⟨t, run, followsLast⟩
      exact ⟨t, Run.cons_iff.mpr ⟨middle, next, run⟩, followsLast⟩

/-- Every sequence of events that the environment admits runs through, and
after each of them all channels are aligned on the records received since the
last connect or clear. -/
theorem tracks_stay_aligned {events : List WindowEvent}
    (admitted : Meets (WindowState.step types memory numpy getName)
      WindowState.Admits {} events) :
    ∀ past, past <+: events →
      ∃ s, Run (WindowState.step types memory numpy getName) {} past s ∧
        s.Aligned
          (past.foldl (ReceivedLog.step types memory) {}).records := by
  rintro past ⟨rest, rfl⟩
  rcases follows_start.run admitted.of_append with ⟨s, run, follows⟩
  exact ⟨s, run, follows.aligned⟩

/-- A cast that leaves all values as they are. -/
def plainStore : NumpyStore where
  cast := fun _ _ value => value
  same := fun _ _ => rfl

/-- A record arrives from a buffer with bit fields, and the history is made
shorter. -/
def watchFlags : List WindowEvent :=
  [.connect (some flagsRule),
    .tick [{
      rule := flagsRule.layout
      data := [253, 255, 0, 0, 128, 63, 0, 0, 0, 64]
      count := 1
      recordSize := 10 }],
    .historyChanged 500]

theorem watchFlags_admitted :
    Meets (WindowState.step types64 (fun _ => 0) plainStore (fun _ => none))
      WindowState.Admits {} watchFlags := by
  refine ⟨trivial, ?_⟩
  intro connected next
  refine ⟨?_, fun _ _ => ⟨⟨by decide, by decide⟩, fun _ _ => trivial⟩⟩
  rcases follows_start.step types64 (fun _ => 0) plainStore
    (show WindowState.Admits {} (.connect (some flagsRule)) from trivial) with
    ⟨t, step, follows⟩
  obtain rfl : connected = t := Option.some.inj (next.symm.trans step)
  intro rule reads batch member
  rw [follows.rule] at reads
  obtain rfl : flagsRule = rule := Option.some.inj (by rw [← reads]; rfl)
  obtain rfl := List.mem_singleton.mp member
  rfl

theorem tracks_stay_aligned_watchFlags :
    ∃ s, Run (WindowState.step types64 (fun _ => 0) plainStore
        (fun _ => none)) {} watchFlags s ∧
      s.Aligned (watchFlags.foldl
        (ReceivedLog.step types64 (fun _ => 0)) {}).records :=
  tracks_stay_aligned watchFlags_admitted watchFlags (List.prefix_refl _)

end CycFlowPy.Viewer
