/-
Module: CycFlowPy.Proofs.RunningStats
Purpose: What `snapshot` returns while the consumer thread and other callers
  run between any two accesses to the attributes.
Trusted boundary: none
Main exports: Midway, executes_consume, executes_snapshot, selected,
  not_less_selected, summarizes_snapshotOf, statsOf_snoc, shared_statsOf,
  snapshot_of_consumed
-/
import CycFlowPy.Model.RunningStats
import Mathlib.Data.List.MinMax

namespace CycFlowPy.RunningStats

open Monitor Runs

variable {α θ : Type} {floats : Floats α}

/-! ### One section -/

/-- `_min` and `_max` after one more value. -/
def lowered (floats : Floats α) (low v : α) : α :=
  if floats.lt v low then v else low

def raised (floats : Floats α) (high v : α) : α :=
  if floats.lt high v then v else high

/-- The attributes after one more value. -/
def Stats.consume (floats : Floats α) (s : Stats α) (v : α) : Stats α where
  count := s.count + 1
  sum := floats.add s.sum v
  min := lowered floats s.min v
  max := raised floats s.max v

/-- What `snapshot` returns of the attributes. -/
def Stats.snapshot (floats : Floats α) (s : Stats α) : Snapshot α where
  count := s.count
  mean := if s.count = 0 then floats.zero else floats.div s.sum s.count
  min := if s.count = 0 then floats.zero else s.min
  max := if s.count = 0 then floats.zero else s.max

/-- Where the section of a call is that began with the attributes `base`, and
what it has done to them by then. -/
inductive Midway (floats : Floats α) (base : Stats α) :
    StatsCall α → Stats α → StatsPoint α → Prop where
  | loadCount (v : α) :
      Midway floats base (.consumeRecord v) base (.loadCount v)
  | storeCount (v : α) :
      Midway floats base (.consumeRecord v) base (.storeCount v base.count)
  | loadSum (v : α) :
      Midway floats base (.consumeRecord v)
        { base with count := base.count + 1 } (.loadSum v)
  | storeSum (v : α) :
      Midway floats base (.consumeRecord v)
        { base with count := base.count + 1 } (.storeSum v base.sum)
  | testMin (v : α) :
      Midway floats base (.consumeRecord v)
        ⟨base.count + 1, floats.add base.sum v, base.min, base.max⟩
        (.testMin v)
  | storeMin (v : α) (lower : floats.lt v base.min = true) :
      Midway floats base (.consumeRecord v)
        ⟨base.count + 1, floats.add base.sum v, base.min, base.max⟩
        (.storeMin v)
  | testMax (v : α) :
      Midway floats base (.consumeRecord v)
        ⟨base.count + 1, floats.add base.sum v, lowered floats base.min v,
          base.max⟩
        (.testMax v)
  | storeMax (v : α) (higher : floats.lt base.max v = true) :
      Midway floats base (.consumeRecord v)
        ⟨base.count + 1, floats.add base.sum v, lowered floats base.min v,
          base.max⟩
        (.storeMax v)
  | consumed (v : α) :
      Midway floats base (.consumeRecord v) (base.consume floats v) .consumed
  | testMean : Midway floats base .snapshot base .testMean
  | dividend (some : base.count ≠ 0) :
      Midway floats base .snapshot base .dividend
  | divisor (some : base.count ≠ 0) :
      Midway floats base .snapshot base (.divisor base.sum)
  | countItem :
      Midway floats base .snapshot base
        (.countItem (base.snapshot floats).mean)
  | testMinItem :
      Midway floats base .snapshot base
        (.testMinItem (base.snapshot floats).mean base.count)
  | minItem (some : base.count ≠ 0) :
      Midway floats base .snapshot base
        (.minItem (base.snapshot floats).mean base.count)
  | testMaxItem :
      Midway floats base .snapshot base
        (.testMaxItem (base.snapshot floats).mean base.count
          (base.snapshot floats).min)
  | maxItem (some : base.count ≠ 0) :
      Midway floats base .snapshot base
        (.maxItem (base.snapshot floats).mean base.count
          (base.snapshot floats).min)
  | returned :
      Midway floats base .snapshot base (.returned (base.snapshot floats))

theorem Midway.statement {base s t : Stats α} {call : StatsCall α}
    {point next : StatsPoint α} (midway : Midway floats base call s point)
    (does : statement floats point s = some (t, next)) :
    Midway floats base call t next := by
  cases midway with
  | loadCount v =>
      cases does
      exact .storeCount v
  | storeCount v =>
      cases does
      exact .loadSum v
  | loadSum v =>
      cases does
      exact .storeSum v
  | storeSum v =>
      cases does
      exact .testMin v
  | testMin v =>
      cases does
      cases lower : floats.lt v base.min with
      | true => exact .storeMin v lower
      | false =>
          have after : Midway floats base (.consumeRecord v)
              ⟨base.count + 1, floats.add base.sum v,
                lowered floats base.min v, base.max⟩ (.testMax v) :=
            .testMax v
          rw [lowered, lower] at after
          exact after
  | storeMin v lower =>
      cases does
      have after : Midway floats base (.consumeRecord v)
          ⟨base.count + 1, floats.add base.sum v,
            lowered floats base.min v, base.max⟩ (.testMax v) :=
        .testMax v
      rw [lowered, lower] at after
      exact after
  | testMax v =>
      cases does
      cases higher : floats.lt base.max v with
      | true => exact .storeMax v higher
      | false =>
          have after : Midway floats base (.consumeRecord v)
              ⟨base.count + 1, floats.add base.sum v,
                lowered floats base.min v, raised floats base.max v⟩
              .consumed :=
            .consumed v
          rw [raised, higher] at after
          exact after
  | storeMax v higher =>
      cases does
      have after : Midway floats base (.consumeRecord v)
          ⟨base.count + 1, floats.add base.sum v,
            lowered floats base.min v, raised floats base.max v⟩
          .consumed :=
        .consumed v
      rw [raised, higher] at after
      exact after
  | consumed => cases does
  | testMean =>
      cases does
      by_cases none : base.count = 0
      · have mean : (base.snapshot floats).mean = floats.zero := if_pos none
        rw [if_pos none, ← mean]
        exact .countItem
      · rw [if_neg none]
        exact .dividend none
  | dividend some =>
      cases does
      exact .divisor some
  | divisor some =>
      cases does
      have mean : (base.snapshot floats).mean =
          floats.div base.sum base.count := if_neg some
      rw [if_neg some, ← mean]
      exact .countItem
  | countItem =>
      cases does
      exact .testMinItem
  | testMinItem =>
      cases does
      by_cases none : base.count = 0
      · have min : (base.snapshot floats).min = floats.zero := if_pos none
        rw [if_pos none, ← min]
        exact .testMaxItem
      · rw [if_neg none]
        exact .minItem none
  | minItem some =>
      cases does
      have min : (base.snapshot floats).min = base.min := if_neg some
      rw [← min]
      exact .testMaxItem
  | testMaxItem =>
      cases does
      by_cases none : base.count = 0
      · have max : (base.snapshot floats).max = floats.zero := if_pos none
        rw [if_pos none, ← max]
        exact .returned
      · rw [if_neg none]
        exact .maxItem none
  | maxItem some =>
      cases does
      have max : (base.snapshot floats).max = base.max := if_neg some
      rw [← max]
      exact .returned
  | returned => cases does

/-- A whole section of `consume_record`. -/
theorem executes_consume {s t : Stats α} {v : α} {point : StatsPoint α}
    (executes : (sections floats).Executes s (.consumeRecord v) t point) :
    t = s.consume floats v ∧ point = .consumed := by
  have midway : Midway floats s (.consumeRecord v) t point :=
    executes.rule (.loadCount v) fun _ _ _ _ midway => midway.statement
  have ends := executes.2
  cases midway with
  | consumed => exact ⟨rfl, rfl⟩
  | loadCount | storeCount | loadSum | storeSum | testMin | storeMin | testMax
  | storeMax => cases ends

/-- A whole section of `snapshot`. -/
theorem executes_snapshot {s t : Stats α} {point : StatsPoint α}
    (executes : (sections floats).Executes s .snapshot t point) :
    t = s ∧ point = .returned (s.snapshot floats) := by
  have midway : Midway floats s .snapshot t point :=
    executes.rule .testMean fun _ _ _ _ midway => midway.statement
  have ends := executes.2
  cases midway with
  | returned => exact ⟨rfl, rfl⟩
  | testMean | dividend | divisor | countItem | testMinItem | minItem
  | testMaxItem | maxItem => cases ends

/-! ### The least and the greatest value -/

section Select

variable (less : α → α → Bool)

/-- `_min` after these values, or `_max` with the order reversed. -/
def selected (start : α) (values : List α) : α :=
  values.foldl (fun kept v => if less v kept then v else kept) start

theorem foldl_argAux_some (start : α) (values : List α) :
    values.foldl (List.argAux fun v w => less v w = true) (some start) =
      some (selected less start values) := by
  induction values generalizing start with
  | nil => rfl
  | cons first rest inductionHypothesis =>
      rw [selected, List.foldl_cons, List.foldl_cons, ← selected,
        ← inductionHypothesis]
      simp only [List.argAux]
      split <;> rfl

theorem selected_mem (start : α) (values : List α) :
    selected less start values = start ∨
      selected less start values ∈ values := by
  induction values generalizing start with
  | nil => exact .inl rfl
  | cons first rest inductionHypothesis =>
      have step : selected less start (first :: rest) =
          selected less (if less first start then first else start) rest :=
        rfl
      rw [step]
      rcases inductionHypothesis (if less first start then first else start)
        with kept | member
      · rw [kept]
        split
        · exact .inr List.mem_cons_self
        · exact .inl rfl
      · exact .inr (List.mem_cons_of_mem first member)

theorem selected_of_incomparable {start : α} {values : List α}
    (incomparable : ∀ v ∈ values, ∀ w, less v w = false) :
    selected less start values = start := by
  induction values with
  | nil => rfl
  | cons first rest inductionHypothesis =>
      have skip := incomparable first List.mem_cons_self start
      rw [selected, List.foldl_cons, skip]
      exact inductionHypothesis fun v member =>
        incomparable v (List.mem_cons_of_mem first member)

theorem not_less_selected (irrefl : ∀ v, less v v = false)
    (trans : ∀ v w x, less v w = true → less w x = true → less v x = true)
    {start v : α} {values : List α} (member : v ∈ values) :
    less v (selected less start values) = false := by
  have selects : selected less start values ∈
      values.foldl (List.argAux fun v w => less v w = true) (some start) :=
    foldl_argAux_some less start values
  have notLess := List.not_of_mem_foldl_argAux _
    ⟨fun v => by rw [irrefl]; exact Bool.false_ne_true⟩ ⟨trans⟩ member selects
  exact Bool.eq_false_of_not_eq_true notLess

/-- A value that is a number takes the place of the infinity. -/
theorem selected_mem_of_number (irrefl : ∀ v, less v v = false)
    (trans : ∀ v w x, less v w = true → less w x = true → less v x = true)
    {start v : α} {values : List α} (member : v ∈ values)
    (number : less v start = true ∨ v = start) :
    selected less start values ∈ values := by
  rcases selected_mem less start values with kept | chosen
  · have notLess : less v (selected less start values) = false :=
      not_less_selected less irrefl trans member
    rw [kept] at notLess ⊢
    rcases number with lower | rfl
    · rw [notLess] at lower
      cases lower
    · exact member
  · exact chosen

end Select

theorem summarizes_snapshotOf (ordered : floats.Ordered) (values : List α) :
    Summarizes floats values (snapshotOf floats values) := by
  have reversed (v w x : α) (first : floats.lt w v = true)
      (second : floats.lt x w = true) : floats.lt x v = true :=
    ordered.trans x w v second first
  by_cases none : values = []
  · subst none
    constructor
    case count => rfl
    case empty => exact fun _ => rfl
    case mean => exact fun some => absurd rfl some
    case min_least => exact fun _ member => nomatch member
    case min_mem => rintro ⟨_, member, _⟩; cases member
    case max_greatest => exact fun _ member => nomatch member
    case max_mem => rintro ⟨_, member, _⟩; cases member
    case nan => exact fun some => absurd rfl some
  · have is : snapshotOf floats values =
        { count := values.length
          mean := floats.div (values.foldl floats.add floats.zero)
            values.length
          min := selected floats.lt floats.inf values
          max := selected (fun v w => floats.lt w v) floats.negInf values } :=
      if_neg none
    rw [is]
    constructor
    case count => rfl
    case empty => exact fun empty => absurd empty none
    case mean => exact fun _ => rfl
    case min_least =>
      intro v member
      exact not_less_selected floats.lt ordered.irrefl ordered.trans member
    case min_mem =>
      rintro ⟨v, member, number⟩
      exact selected_mem_of_number floats.lt ordered.irrefl ordered.trans member
        number.1
    case max_greatest =>
      intro v member
      exact not_less_selected (fun v w => floats.lt w v) ordered.irrefl reversed
        member
    case max_mem =>
      rintro ⟨v, member, number⟩
      exact selected_mem_of_number (fun v w => floats.lt w v) ordered.irrefl
        reversed member number.2
    case nan =>
      intro _ nan
      refine ⟨selected_of_incomparable _ ?_, selected_of_incomparable _ ?_⟩
      · exact fun v member w => (nan v member w).1
      · exact fun v member w => (nan v member w).2

/-! ### All sections -/

theorem statsOf_snoc (values : List α) (v : α) :
    statsOf floats (values ++ [v]) =
      (statsOf floats values).consume floats v := by
  simp only [statsOf, List.length_append, List.foldl_append]
  rfl

theorem snapshot_statsOf (values : List α) :
    (statsOf floats values).snapshot floats = snapshotOf floats values := by
  cases values with
  | nil => rfl
  | cons first rest => rfl

/-- How the section of a call ends after these sections. -/
def endOf (floats : Floats α) (before : List (θ × StatsCall α × StatsPoint α)) :
    StatsCall α → StatsPoint α
  | .consumeRecord _ => .consumed
  | .snapshot => .returned (snapshotOf floats (consumedIn before))

/-- Each section ends as it does after those before it. -/
def AllEnd (floats : Floats α)
    (finished : List (θ × StatsCall α × StatsPoint α)) : Prop :=
  ∀ before thread call point after,
    finished = before ++ (thread, call, point) :: after →
      point = endOf floats before call

theorem AllEnd.snoc {finished : List (θ × StatsCall α × StatsPoint α)}
    (allEnd : AllEnd floats finished) (thread : θ) (call : StatsCall α) :
    AllEnd floats
      (finished ++ [(thread, call, endOf floats finished call)]) := by
  intro before other otherCall point after parts
  rcases List.eq_nil_or_concat after with rfl | ⟨first, last, rfl⟩
  · have same := List.append_inj' parts rfl
    rcases same with ⟨rfl, entry⟩
    cases entry
    rfl
  · rw [List.concat_eq_append, ← List.cons_append, ← List.append_assoc] at parts
    exact allEnd before other otherCall point first
      (List.append_inj' parts rfl).1

theorem shared_statsOf {finished : List (θ × StatsCall α × StatsPoint α)}
    {t : Stats α}
    (serial : Serial (sections floats) (Stats.initial floats) finished t) :
    t = statsOf floats (consumedIn finished) ∧ AllEnd floats finished := by
  induction serial with
  | nil =>
      refine ⟨rfl, ?_⟩
      intro before thread call point after parts
      simp at parts
  | @snoc finished middle t thread call point _ executes inductionHypothesis =>
      rcases inductionHypothesis with ⟨rfl, allEnd⟩
      cases call with
      | consumeRecord v =>
          rcases executes_consume executes with ⟨rfl, rfl⟩
          refine ⟨?_, allEnd.snoc thread (.consumeRecord v)⟩
          rw [← statsOf_snoc]
          simp [consumedIn]
      | snapshot =>
          rcases executes_snapshot executes with ⟨rfl, rfl⟩
          rw [snapshot_statsOf]
          refine ⟨?_, allEnd.snoc thread .snapshot⟩
          simp [consumedIn]

/-- Any number of threads consume records and take snapshots, and may be
interrupted between any two accesses to the attributes.  Each snapshot that is
returned is that of the values which were consumed before it: their count, the
quotient of their sum and their count, a value of them that none is less than
and one that is less than none, as far as one of them is a number, and zeros
when there are none.  No section raises a `ZeroDivisionError`, and when the lock
is free the attributes are the statistics of all values that were consumed. -/
theorem snapshot_of_consumed [DecidableEq θ] (floats : Floats α)
    (ordered : floats.Ordered) {actions : List (Action θ (StatsCall α))}
    {s : State θ (Stats α) (StatsCall α) (StatsPoint α)}
    (run : Run (Monitor.step (sections floats))
      { shared := Stats.initial floats } actions s) :
    let sectionsDone := finished (sections floats)
      ({ shared := Stats.initial floats } :
        State θ (Stats α) (StatsCall α) (StatsPoint α)) actions
    (∀ before thread point after,
      sectionsDone = before ++ (thread, .snapshot, point) :: after →
        ∃ snapshot, point = .returned snapshot ∧
          snapshot = snapshotOf floats (consumedIn before) ∧
          Summarizes floats (consumedIn before) snapshot) ∧
    (∀ entry ∈ sectionsDone, entry.2.2 ≠ .raised) ∧
    (s.lock = none →
      s.shared = statsOf floats (consumedIn sectionsDone)) := by
  intro sectionsDone
  rcases (serialized_of_run run).serial with ⟨base, serial, free, _⟩
  rcases shared_statsOf serial with ⟨rfl, allEnd⟩
  refine ⟨?_, ?_, free⟩
  · intro before thread point after parts
    have ends := allEnd before thread .snapshot point after parts
    exact ⟨_, ends, rfl, summarizes_snapshotOf ordered (consumedIn before)⟩
  · intro entry member
    rcases List.append_of_mem member with ⟨before, after, parts⟩
    have ends := allEnd before entry.1 entry.2.1 entry.2.2 after parts
    rw [ends]
    cases entry.2.1 with
    | consumeRecord v => exact (nomatch ·)
    | snapshot => exact (nomatch ·)

/-- Integers in place of floats. -/
def integers : Floats Int where
  zero := 0
  inf := 1000
  negInf := -1000
  add := (· + ·)
  div a n := a / n
  lt a b := a < b

theorem integers_ordered : integers.Ordered where
  irrefl v := decide_eq_false (lt_irrefl v)
  trans _ _ _ first second :=
    decide_eq_true (lt_trans (of_decide_eq_true first)
      (of_decide_eq_true second))

/-- A thread that runs one section of this many statements. -/
def alone (thread : Bool) (call : StatsCall Int) (statements : Nat) :
    List (Action Bool (StatsCall Int)) :=
  .acquire thread call ::
    (List.replicate statements (.statement thread) ++ [.release thread])

/-- A record, a snapshot by another thread, and one more record. -/
def threeAndSeven : List (Action Bool (StatsCall Int)) :=
  alone false (.consumeRecord 3) 8 ++ alone true .snapshot 8 ++
    alone false (.consumeRecord 7) 7

theorem snapshot_of_consumed_threeAndSeven :
    ∃ s : State Bool (Stats Int) (StatsCall Int) (StatsPoint Int),
      Run (Monitor.step (sections integers))
        { shared := Stats.initial integers } threeAndSeven s ∧
      s.shared = { count := 2, sum := 10, min := 3, max := 7 } := by
  let start : State Bool (Stats Int) (StatsCall Int) (StatsPoint Int) :=
    { shared := Stats.initial integers }
  cases run : threeAndSeven.foldlM (Monitor.step (sections integers)) start with
  | none =>
      have enabled : (threeAndSeven.foldlM (Monitor.step (sections integers))
          start).isSome := by
        decide +kernel
      rw [run] at enabled
      cases enabled
  | some s =>
      have free : (threeAndSeven.foldlM (Monitor.step (sections integers))
          start).map State.lock = some none := by
        decide +kernel
      rw [run] at free
      have shared := (snapshot_of_consumed integers integers_ordered run).2.2
        (Option.some.inj free)
      have consumed : consumedIn (finished (sections integers) start
          threeAndSeven) = [3, 7] := by
        decide +kernel
      rw [consumed] at shared
      exact ⟨s, run, shared⟩

end CycFlowPy.RunningStats
