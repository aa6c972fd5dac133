/-
Module: CycFlowPy.Proofs.Discover
Purpose: What `discover()` returns when buffers are registered and unregistered
  while it runs.
Trusted boundary: none
Main exports: ask_cases, DiscoverState.Ahead, Ordered, DiscoverState.Copied,
  discover_regular
-/
import CycFlowPy.Model.Discover

namespace CycFlowPy.Discover

open Runs

variable {ρ : Type} {texts : RuleText ρ}

/-! ### The dict -/

theorem lookup_cons_of_ne {name first : String} (differ : name ≠ first)
    (value : ρ) (rest : List (String × ρ)) :
    ((first, value) :: rest).lookup name = rest.lookup name := by
  rw [List.lookup_cons, beq_eq_false_iff_ne.mpr differ]

theorem lookup_setItem (name key : String) (rule : ρ)
    (entries : List (String × ρ)) :
    (setItem key rule entries).lookup name =
      if name = key then some rule else entries.lookup name := by
  induction entries with
  | nil =>
      by_cases same : name = key
      · simp [setItem, same]
      · simp [setItem, lookup_cons_of_ne same, same]
  | cons entry entries inductionHypothesis =>
      rcases entry with ⟨first, value⟩
      by_cases here : first = key
      · subst here
        by_cases same : name = first
        · simp [setItem, same]
        · simp [setItem, lookup_cons_of_ne same, same]
      · by_cases same : name = first
        · subst same
          simp [setItem, here]
        · simp [setItem, here, lookup_cons_of_ne same, inductionHypothesis]

/-- A new name goes to the end. -/
theorem setItem_new {name : String} (rule : ρ) {entries : List (String × ρ)}
    (new : name ∉ names entries) :
    setItem name rule entries = entries ++ [(name, rule)] := by
  induction entries with
  | nil => rfl
  | cons entry entries inductionHypothesis =>
      rcases entry with ⟨first, value⟩
      rw [names, List.map_cons, List.mem_cons, not_or] at new
      rw [setItem, if_neg (Ne.symm new.1), inductionHypothesis new.2]
      rfl

/-! ### One request -/

/-- A request for the rule of a name that is not published leaves the dict, and
one for a published name sets its rule. -/
theorem ask_cases (texts : RuleText ρ) (s : DiscoverState ρ) (name : String)
    (rest : List String) :
    (s.published.lookup name = none ∧
      s.ask texts name rest = { s with point := .asking rest }) ∨
    ∃ rule, s.published.lookup name = some rule ∧
      s.ask texts name rest =
        { s with point := .asking rest, out := setItem name rule s.out } := by
  cases found : s.published.lookup name with
  | none =>
      left
      exact ⟨rfl, by simp [DiscoverState.ask, DiscoverState.recRule, found]⟩
  | some rule =>
      right
      refine ⟨rule, rfl, ?_⟩
      simp [DiscoverState.ask, DiscoverState.recRule, found, texts.nonempty,
        texts.reads]

/-- The steps of the call and of the server. -/
inductive DiscoverStep (s : DiscoverState ρ) :
    DiscoverAction ρ → DiscoverState ρ → Prop where
  | serve {published : List (String × ρ)}
      (distinct : (names published).Nodup) :
      DiscoverStep s (.serve published) { s with published := published }
  | list (start : s.point = .listing) :
      DiscoverStep s .requestBufferList
        { s with point := .asking (names s.published) }
  | absent {name : String} {rest : List String}
      (asking : s.point = .asking (name :: rest))
      (unpublished : s.published.lookup name = none) :
      DiscoverStep s .requestRecRule { s with point := .asking rest }
  | present {name : String} {rest : List String} {rule : ρ}
      (asking : s.point = .asking (name :: rest))
      (published : s.published.lookup name = some rule) :
      DiscoverStep s .requestRecRule
        { s with point := .asking rest, out := setItem name rule s.out }
  | fail : DiscoverStep s .fail { s with point := .raised }

theorem discoverStep_of_step {s t : DiscoverState ρ} {action : DiscoverAction ρ}
    (next : s.step texts action = some t) : DiscoverStep s action t := by
  cases action with
  | serve published =>
      rcases whenever_eq_some.mp next with ⟨distinct, rfl⟩
      exact .serve distinct
  | requestBufferList =>
      rcases whenever_eq_some.mp next with ⟨start, rfl⟩
      exact .list start
  | requestRecRule =>
      simp only [DiscoverState.step] at next
      split at next
      case h_1 name rest asking =>
          cases next
          rcases ask_cases texts s name rest with
            ⟨unpublished, asked⟩ | ⟨rule, published, asked⟩
          · rw [asked]
            exact .absent asking unpublished
          · rw [asked]
            exact .present asking published
      case h_2 => cases next
  | fail =>
      simp only [DiscoverState.step] at next
      split at next
      · cases next
        exact .fail
      · cases next
        exact .fail
      · cases next

/-! ### What is missed and what is made up -/

theorem mem_names_of_lookup {name : String} {rule : ρ}
    {entries : List (String × ρ)} (found : entries.lookup name = some rule) :
    name ∈ names entries := by
  by_contra absent
  have missing : entries.lookup name = none := by
    rw [List.lookup_eq_none_iff]
    intro entry member
    rw [bne_iff_ne]
    rintro rfl
    exact absent (List.mem_map_of_mem member)
  rw [missing] at found
  cases found

/-- A buffer that the server has throughout with one rule is yet to come, or is
in the dict with it. -/
def DiscoverState.Ahead (name : String) (rule : ρ) (s : DiscoverState ρ) :
    Prop :=
  ∀ rest, s.point = .asking rest →
    name ∈ rest ∨ s.out.lookup name = some rule

theorem DiscoverState.Ahead.step {name : String} {rule : ρ}
    {s t : DiscoverState ρ} {action : DiscoverAction ρ}
    (ahead : s.Ahead name rule)
    (has : s.published.lookup name = some rule)
    (next : s.step texts action = some t) : t.Ahead name rule := by
  intro rest asking
  cases discoverStep_of_step next with
  | serve => exact ahead rest asking
  | list start =>
      cases asking
      exact .inl (mem_names_of_lookup has)
  | @absent asked left before unpublished =>
      cases asking
      rcases ahead _ before with later | done
      · rcases List.mem_cons.mp later with rfl | later
        · rw [has] at unpublished
          cases unpublished
        · exact .inl later
      · exact .inr done
  | @present asked left answer before published =>
      cases asking
      simp only [lookup_setItem]
      by_cases same : name = asked
      · subst same
        rw [if_pos rfl, ← published, has]
        exact .inr rfl
      · rw [if_neg same]
        rcases ahead _ before with later | done
        · exact .inl (List.mem_of_ne_of_mem same later)
        · exact .inr done
  | fail => cases asking

/-- The dict has no rule under a name that the server never had under it. -/
theorem not_madeUp_step {name : String} {rule : ρ} {s t : DiscoverState ρ}
    {action : DiscoverAction ρ} (absent : s.out.lookup name ≠ some rule)
    (hasNot : s.published.lookup name ≠ some rule)
    (next : s.step texts action = some t) :
    t.out.lookup name ≠ some rule := by
  cases discoverStep_of_step next with
  | serve | list | absent | fail => exact absent
  | @present asked left answer before published =>
      simp only [lookup_setItem]
      by_cases same : name = asked
      · subst same
        rw [if_pos rfl, ← published]
        exact hasNot
      · rw [if_neg same]
        exact absent

/-! ### The order of the names -/

/-- The names of the dict and those left to ask for stand in the order in which
the server listed them, some skipped. -/
structure Ordered (texts : RuleText ρ)
    (init : DiscoverState ρ) (past : List (DiscoverAction ρ))
    (s : DiscoverState ρ) : Prop where
  run : Run (DiscoverState.step texts) init past s
  distinct : (names s.published).Nodup
  empty : s.point = .listing → s.out = []
  ordered : ∀ rest, s.point = .asking rest → ∃ before after listed,
    past = before ++ .requestBufferList :: after ∧
      Run (DiscoverState.step texts) init before listed ∧
      (names listed.published).Nodup ∧
      (names s.out ++ rest).Sublist (names listed.published)

theorem Ordered.step {init s t : DiscoverState ρ}
    {past : List (DiscoverAction ρ)} {action : DiscoverAction ρ}
    (ordered : Ordered texts init past s)
    (next : s.step texts action = some t) :
    Ordered texts init (past ++ [action]) t := by
  have run := ordered.run.snoc next
  have earlier : ∀ rest, s.point = .asking rest →
      ∃ before after listed,
        past ++ [action] = before ++ .requestBufferList :: after ∧
          Run (DiscoverState.step texts) init before listed ∧
          (names listed.published).Nodup ∧
          (names s.out ++ rest).Sublist (names listed.published) := by
    intro rest asking
    rcases ordered.ordered rest asking with
      ⟨before, after, listed, rfl, others⟩
    exact ⟨before, after ++ [action], listed, by simp, others⟩
  cases discoverStep_of_step next with
  | serve distinct =>
      exact ⟨run, distinct, ordered.empty, earlier⟩
  | list start =>
      refine ⟨run, ordered.distinct, (nomatch ·), ?_⟩
      intro rest asking
      cases asking
      refine ⟨past, [], s, rfl, ordered.run, ordered.distinct, ?_⟩
      rw [ordered.empty start]
      exact List.Sublist.refl _
  | @absent name rest before unpublished =>
      refine ⟨run, ordered.distinct, (nomatch ·), ?_⟩
      intro left asking
      cases asking
      rcases earlier _ before with
        ⟨first, after, listed, parts, reached, differ, inOrder⟩
      refine ⟨first, after, listed, parts, reached, differ, ?_⟩
      exact ((List.sublist_cons_self name rest).append_left _).trans inOrder
  | @present name rest rule before published =>
      refine ⟨run, ordered.distinct, (nomatch ·), ?_⟩
      intro left asking
      cases asking
      rcases earlier _ before with
        ⟨first, after, listed, parts, reached, differ, inOrder⟩
      have new : name ∉ names s.out := by
        have apart := List.nodup_append.mp (differ.sublist inOrder)
        intro member
        exact apart.2.2 name member name List.mem_cons_self rfl
      refine ⟨first, after, listed, parts, reached, differ, ?_⟩
      simpa [setItem_new rule new, names] using inOrder
  | fail =>
      refine ⟨run, ordered.distinct, (nomatch ·), ?_⟩
      intro rest asking
      cases asking

/-! ### A quiet server -/

/-- The dict is the part of the server's buffers that was asked for. -/
structure DiscoverState.Copied (published : List (String × ρ))
    (s : DiscoverState ρ) : Prop where
  same : s.published = published
  empty : s.point = .listing → s.out = []
  copied : ∀ rest, s.point = .asking rest → ∃ left,
    published = s.out ++ left ∧ rest = names left

theorem DiscoverState.Copied.step {published : List (String × ρ)}
    (distinct : (names published).Nodup) {s t : DiscoverState ρ}
    {action : DiscoverAction ρ} (copied : s.Copied published)
    (quiet : action.isServe = false)
    (next : s.step texts action = some t) : t.Copied published := by
  -- the name that is asked for is that of the first buffer that is left
  have first {name : String} {rest : List String}
      (asking : s.point = .asking (name :: rest)) :
      ∃ rule left, published = s.out ++ (name, rule) :: left ∧
        rest = names left ∧ name ∉ names s.out ∧
        s.published.lookup name = some rule := by
    rcases copied.copied _ asking with ⟨left, parts, listed⟩
    cases left with
    | nil => cases listed
    | cons entry left =>
        rcases entry with ⟨key, rule⟩
        cases listed
        rw [parts, names, List.map_append, List.nodup_append] at distinct
        have new : key ∉ names s.out := by
          intro member
          exact distinct.2.2 key member key List.mem_cons_self rfl
        refine ⟨rule, left, parts, rfl, new, ?_⟩
        have before : s.out.lookup key = none := by
          cases found : s.out.lookup key with
          | none => rfl
          | some value => exact absurd (mem_names_of_lookup found) new
        rw [copied.same, parts, List.lookup_append, before]
        simp
  cases discoverStep_of_step next with
  | serve => cases quiet
  | list start =>
      refine ⟨copied.same, (nomatch ·), ?_⟩
      intro rest asking
      cases asking
      rw [copied.empty start, copied.same]
      exact ⟨published, rfl, rfl⟩
  | absent asking unpublished =>
      rcases first asking with ⟨rule, _, _, _, _, found⟩
      rw [found] at unpublished
      cases unpublished
  | @present name rest rule asking answered =>
      rcases first asking with ⟨value, left, parts, rfl, new, found⟩
      rw [found] at answered
      cases answered
      refine ⟨copied.same, (nomatch ·), ?_⟩
      intro rest later
      cases later
      exact ⟨left, by simp [setItem_new rule new, parts], rfl⟩
  | fail =>
      refine ⟨copied.same, (nomatch ·), ?_⟩
      intro rest asking
      cases asking

/-! ### What is returned -/

/-- `discover()` while the server's buffers change between its requests.  A
buffer that the server has throughout with one rule is returned with it, and a
rule is returned only if the server had it under that name during the call.
The names are those of the server's list, in its order, some skipped; and from
a server that does not change the call returns its buffers. -/
theorem discover_regular (texts : RuleText ρ) {published : List (String × ρ)}
    (distinct : (names published).Nodup) {actions : List (DiscoverAction ρ)}
    {s : DiscoverState ρ}
    (run : Run (DiscoverState.step texts) { published := published } actions s)
    (returned : s.Returned) :
    (∀ name rule,
      Visits (DiscoverState.step texts)
        (fun t => t.published.lookup name = some rule)
        { published := published } actions →
      s.out.lookup name = some rule) ∧
    (∀ name rule,
      Visits (DiscoverState.step texts)
        (fun t => t.published.lookup name ≠ some rule)
        { published := published } actions →
      s.out.lookup name ≠ some rule) ∧
    (∃ before after listed,
      actions = before ++ .requestBufferList :: after ∧
        Run (DiscoverState.step texts) { published := published } before
          listed ∧
        (names s.out).Sublist (names listed.published)) ∧
    ((∀ action ∈ actions, action.isServe = false) → s.out = published) := by
  refine ⟨?_, ?_, ?_, ?_⟩
  · intro name rule throughout
    have ahead : s.Ahead name rule :=
      throughout.meets.invariant (fun _ _ _ ahead has => ahead.step has) run
        (fun rest asking => nomatch asking)
    rcases ahead [] returned with left | done
    · cases left
    · exact done
  · intro name rule never
    exact never.meets.invariant (fun _ _ _ => not_madeUp_step) run
      (by simp)
  · have start : Ordered texts { published := published } []
        { published := published } :=
      ⟨Run.nil_iff.mpr rfl, distinct, fun _ => rfl,
        fun rest asking => nomatch asking⟩
    have ordered := run.history (fun _ _ _ _ => Ordered.step) start
    rcases ordered.ordered [] returned with
      ⟨before, after, listed, parts, reached, _, inOrder⟩
    rw [List.append_nil] at inOrder
    exact ⟨before, after, listed, parts, reached, inOrder⟩
  · intro quiet
    have start : DiscoverState.Copied published { published := published } :=
      ⟨rfl, fun _ => rfl, fun rest asking => nomatch asking⟩
    have quietly : Meets (DiscoverState.step texts)
        (fun _ action => action.isServe = false) { published := published }
        actions := by
      apply Meets.of_forall
      intro action member _
      exact quiet action member
    have copied : s.Copied published :=
      quietly.invariant (fun _ _ _ copied => copied.step distinct) run start
    rcases copied.copied [] returned with ⟨left, parts, none⟩
    rw [parts, List.map_eq_nil_iff.mp none.symm, List.append_nil]

/-- Rules that are numbers, as unary text. -/
def unary : RuleText Nat where
  toText n := String.ofList (List.replicate (n + 1) '1')
  fromText text := some (text.length - 1)
  nonempty n := by
    intro empty
    have length := congrArg String.length empty
    simp at length
  reads n := by simp

/-- Both rules change while the call asks for them. -/
def changedBetween : List (DiscoverAction Nat) :=
  [.requestBufferList, .requestRecRule, .serve [("a", 2), ("b", 2)],
    .requestRecRule]

/-- What is returned is none that the server ever had. -/
theorem discover_regular_changedBetween :
    ∃ s, Run (DiscoverState.step unary)
        { published := [("a", 1), ("b", 1)] } changedBetween s ∧
      s.out = [("a", 1), ("b", 2)] ∧
      s.out.lookup "b" ≠ some 3 ∧
      Visits (DiscoverState.step unary) (fun t => t.published ≠ s.out)
        { published := [("a", 1), ("b", 1)] } changedBetween := by
  have run : Run (DiscoverState.step unary)
      { published := [("a", 1), ("b", 1)] } changedBetween
      { published := [("a", 2), ("b", 2)], point := .asking []
        out := [("a", 1), ("b", 2)] } := by
    decide +kernel
  have noThree := (discover_regular unary (by decide) run rfl).2.1 "b" 3
    (by decide +kernel)
  exact ⟨_, run, rfl, noThree, by decide +kernel⟩

end CycFlowPy.Discover
