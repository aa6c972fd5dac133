/-
Module: CycFlowPy.Model.RunningStats
Purpose: The running statistics of the consumer example: the sections of
  `consume_record` and `snapshot` under the object's lock, one access to an
  attribute at a time.
Trusted boundary: `threading.Lock` is held by one thread at a time; the
  arithmetic of floats is a parameter (`Floats`), of which only the laws of `<`
  in `Floats.Ordered` are assumed
Main exports: Floats, Floats.Ordered, Stats, Snapshot, StatsCall, StatsPoint,
  statement, sections, consumedIn, snapshotOf, Summarizes
-/
import CycFlowPy.Lib.Monitor

namespace CycFlowPy.RunningStats

/-!
The consumer thread calls `consume_record`, and any other threads call
`snapshot`; the interpreter may switch between two accesses to attributes.

[SRC examples/python_consumer.py:15-44]
-/

/-- What the statistics use of Python's floats; `div` divides by an `int`, and
`lt` is `<`. -/
structure Floats (α : Type) where
  zero : α
  inf : α
  negInf : α
  add : α → α → α
  div : α → Nat → α
  lt : α → α → Bool

variable {α : Type}

/-- The laws of `<` on floats, a NaN included: it is less than nothing, and
nothing is less than it. -/
structure Floats.Ordered (floats : Floats α) : Prop where
  irrefl : ∀ v, floats.lt v v = false
  trans : ∀ v w x, floats.lt v w = true → floats.lt w x = true →
    floats.lt v x = true

/-- The floats between the infinities, which are numbers too. -/
def Floats.IsNumber (floats : Floats α) (v : α) : Prop :=
  (floats.lt v floats.inf = true ∨ v = floats.inf) ∧
    (floats.lt floats.negInf v = true ∨ v = floats.negInf)

/-- A float that compares with none. -/
def Floats.IsNan (floats : Floats α) (v : α) : Prop :=
  ∀ w, floats.lt v w = false ∧ floats.lt w v = false

/-- The attributes `_count`, `_sum`, `_min` and `_max`. -/
structure Stats (α : Type) where
  count : Nat
  sum : α
  min : α
  max : α
deriving Repr, DecidableEq

/-- The dict that `snapshot` returns. -/
structure Snapshot (α : Type) where
  count : Nat
  mean : α
  min : α
  max : α
deriving Repr, DecidableEq

/-- A call of `consume_record`, with the value of the record's field, or of
`snapshot`. -/
inductive StatsCall (α : Type) where
  | consumeRecord (v : α)
  | snapshot
deriving Repr, DecidableEq

/-- Where a thread is inside `with self._lock`, with its local values:
`consumed`, `returned` and `raised` are the ends of a section, the last one
with a `ZeroDivisionError`. -/
inductive StatsPoint (α : Type) where
  | loadCount (v : α)
  | storeCount (v : α) (count : Nat)
  | loadSum (v : α)
  | storeSum (v : α) (sum : α)
  | testMin (v : α)
  | storeMin (v : α)
  | testMax (v : α)
  | storeMax (v : α)
  | consumed
  | testMean
  | dividend
  | divisor (sum : α)
  | countItem (mean : α)
  | testMinItem (mean : α) (count : Nat)
  | minItem (mean : α) (count : Nat)
  | testMaxItem (mean : α) (count : Nat) (min : α)
  | maxItem (mean : α) (count : Nat) (min : α)
  | returned (snapshot : Snapshot α)
  | raised
deriving Repr, DecidableEq

variable (floats : Floats α)

/-- `__init__`. -/
def Stats.initial : Stats α where
  count := 0
  sum := floats.zero
  min := floats.inf
  max := floats.negInf

/-- The next access to an attribute. -/
def statement : StatsPoint α → Stats α → Option (Stats α × StatsPoint α)
  | .loadCount v, s => some (s, .storeCount v s.count)
  | .storeCount v count, s => some ({ s with count := count + 1 }, .loadSum v)
  | .loadSum v, s => some (s, .storeSum v s.sum)
  | .storeSum v sum, s =>
      some ({ s with sum := floats.add sum v }, .testMin v)
  | .testMin v, s =>
      some (s, if floats.lt v s.min then .storeMin v else .testMax v)
  | .storeMin v, s => some ({ s with min := v }, .testMax v)
  | .testMax v, s =>
      some (s, if floats.lt s.max v then .storeMax v else .consumed)
  | .storeMax v, s => some ({ s with max := v }, .consumed)
  | .testMean, s =>
      some (s, if s.count = 0 then .countItem floats.zero else .dividend)
  | .dividend, s => some (s, .divisor s.sum)
  | .divisor sum, s =>
      some (s, if s.count = 0 then .raised
        else .countItem (floats.div sum s.count))
  | .countItem mean, s => some (s, .testMinItem mean s.count)
  | .testMinItem mean count, s =>
      some (s, if s.count = 0 then .testMaxItem mean count floats.zero
        else .minItem mean count)
  | .minItem mean count, s => some (s, .testMaxItem mean count s.min)
  | .testMaxItem mean count min, s =>
      some (s, if s.count = 0 then .returned ⟨count, mean, min, floats.zero⟩
        else .maxItem mean count min)
  | .maxItem mean count min, s =>
      some (s, .returned ⟨count, mean, min, s.max⟩)
  | .consumed, _ | .returned _, _ | .raised, _ => none

/-- The two methods as sections of the lock. -/
def sections : Monitor.Sections (Stats α) (StatsCall α) (StatsPoint α) where
  enter
    | .consumeRecord v => .loadCount v
    | .snapshot => .testMean
  statement := statement floats

/-! ### What the statistics are of -/

/-- The values that the sections consumed, in order. -/
def consumedIn {θ : Type} (finished : List (θ × StatsCall α × StatsPoint α)) :
    List α :=
  finished.filterMap fun entry =>
    match entry.2.1 with
    | .consumeRecord v => some v
    | .snapshot => none

/-- The attributes after these values. -/
def statsOf (values : List α) : Stats α where
  count := values.length
  sum := values.foldl floats.add floats.zero
  min := values.foldl (fun low v => if floats.lt v low then v else low)
    floats.inf
  max := values.foldl (fun high v => if floats.lt high v then v else high)
    floats.negInf

/-- The count, mean, minimum and maximum of the values, all zero when there are
none. -/
def snapshotOf (values : List α) : Snapshot α :=
  if values = [] then
    { count := 0, mean := floats.zero, min := floats.zero, max := floats.zero }
  else
    { count := values.length
      mean := floats.div (statsOf floats values).sum values.length
      min := (statsOf floats values).min
      max := (statsOf floats values).max }

/-- What a snapshot of these values is to say: their count, the quotient of the
sum from the first to the last and the count, a value that none of them is less
than, and one that is less than none of them. -/
structure Summarizes (values : List α) (snapshot : Snapshot α) : Prop where
  count : snapshot.count = values.length
  empty : values = [] →
    snapshot = ⟨0, floats.zero, floats.zero, floats.zero⟩
  mean : values ≠ [] →
    snapshot.mean =
      floats.div (values.foldl floats.add floats.zero) values.length
  min_least : ∀ v ∈ values, floats.lt v snapshot.min = false
  min_mem : (∃ v ∈ values, floats.IsNumber v) → snapshot.min ∈ values
  max_greatest : ∀ v ∈ values, floats.lt snapshot.max v = false
  max_mem : (∃ v ∈ values, floats.IsNumber v) → snapshot.max ∈ values
  nan : values ≠ [] → (∀ v ∈ values, floats.IsNan v) →
    snapshot.min = floats.inf ∧ snapshot.max = floats.negInf

end CycFlowPy.RunningStats
