/-
Module: CycFlowPy.Proofs.DiscoveryDialog
Purpose: Which server named the buffer that the discovery dialog is accepted
  with, over every run of its handlers, nested queries included.
Trusted boundary: none
Main exports: DialogStep, DialogState.Named, steady_keeps, safe_iff_matches,
  discovered_buffer_listed
-/
import CycFlowPy.Model.DiscoveryDialog

namespace CycFlowPy.Viewer

open PyText Runs

variable {decimals : Decimals}

/-! ### What one handler does -/

/-- The steps of the dialog, each with what it needs and what it changes. -/
inductive DialogStep (decimals : Decimals) (s : DialogState) :
    DialogAction → DialogState → Prop where
  | edit (isOpen : s.result = none) (text : Text) :
      DialogStep decimals s (.edit text) { s with comboText := text }
  | queryRefused (status : Text) :
      DialogStep decimals s .query
        { s with list := [], currentRow := none, status := status }
  | query (status : Text) {endpoint : Text × Int}
      (parsed : parseEndpoint decimals s.comboText = some endpoint) :
      DialogStep decimals s .query
        { s with
          list := [], currentRow := none, status := status
          pending := endpoint :: s.pending }
  | selectRow (row : Nat) :
      DialogStep decimals s (.selectRow row) { s with currentRow := some row }
  | acceptRefused (status : Text) :
      DialogStep decimals s .accept { s with status := status }
  | accept {endpoint : Text × Int} {item : ListItem} (member : item ∈ s.list)
      (parsed : parseEndpoint decimals s.comboText = some endpoint) :
      DialogStep decimals s .accept
        { s with
          selectedHost := endpoint.1, selectedPort := endpoint.2
          selectedName := item.text, selectedFrom := some item.endpoint
          result := some .accepted }
  | reject :
      DialogStep decimals s .reject { s with result := some .rejected }
  | noNames (answer : QueryAnswer) (status : Text) {endpoint : Text × Int}
      {pending : List (Text × Int)}
      (waiting : s.pending = endpoint :: pending) :
      DialogStep decimals s (.resume answer)
        { s with status := status, pending := pending }
  | names (names : List Text) (status : Text) {endpoint : Text × Int}
      {pending : List (Text × Int)}
      (waiting : s.pending = endpoint :: pending) :
      DialogStep decimals s (.resume (.names names))
        { s with
          list := s.list ++ names.map fun name =>
            { text := name, endpoint := endpoint }
          currentRow := some 0, status := status, pending := pending }

theorem mem_of_currentItem {s : DialogState} {item : ListItem}
    (current : s.currentItem = some item) : item ∈ s.list := by
  rcases Option.bind_eq_some_iff.mp current with ⟨row, _, found⟩
  exact List.mem_of_getElem? found

theorem dialogStep_of_step {s t : DialogState} {action : DialogAction}
    (next : s.step decimals action = some t) :
    DialogStep decimals s action t := by
  cases action with
  | edit text =>
      rcases whenever_eq_some.mp next with ⟨isOpen, rfl⟩
      exact .edit isOpen text
  | query =>
      rcases whenever_eq_some.mp next with ⟨_, rfl⟩
      simp only [DialogState.onQuery]
      cases parsed : parseEndpoint decimals s.comboText with
      | none => exact .queryRefused _
      | some endpoint => exact .query _ parsed
  | selectRow row =>
      rcases whenever_eq_some.mp next with ⟨_, rfl⟩
      exact .selectRow row
  | accept =>
      rcases whenever_eq_some.mp next with ⟨_, rfl⟩
      simp only [DialogState.onAccept]
      cases parsed : parseEndpoint decimals s.comboText with
      | none => exact .acceptRefused _
      | some endpoint =>
          cases current : s.currentItem with
          | none => exact .acceptRefused _
          | some item => exact .accept (mem_of_currentItem current) parsed
  | reject =>
      rcases whenever_eq_some.mp next with ⟨_, rfl⟩
      exact .reject
  | resume answer =>
      simp only [DialogState.step] at next
      cases waiting : s.pending with
      | nil => simp [waiting] at next
      | cons endpoint pending =>
          rw [waiting] at next
          cases next
          cases answer with
          | raises text => exact .noNames _ _ waiting
          | names names =>
              simp only [DialogState.answered]
              split
              · exact .noNames _ _ waiting
              · exact .names names _ waiting

/-! ### Who named what -/

/-- Every row and the accepted buffer stand in the answer of the server they
are attributed to, and the accepted endpoint is the one in the combo box. -/
structure DialogState.Named (decimals : Decimals)
    (answers : List ((Text × Int) × List Text)) (s : DialogState) : Prop where
  rows : ∀ item ∈ s.list, ∃ names,
    (item.endpoint, names) ∈ answers ∧ item.text ∈ names
  selected : s.result = some .accepted → ∃ server names,
    s.selectedFrom = some server ∧ (server, names) ∈ answers ∧
      s.selectedName ∈ names
  parsed : s.result = some .accepted →
    parseEndpoint decimals s.comboText =
      some (s.selectedHost, s.selectedPort)

theorem DialogState.Named.mono {answers more : List ((Text × Int) × List Text)}
    {s : DialogState} (named : s.Named decimals answers) :
    s.Named decimals (answers ++ more) := by
  refine ⟨?_, ?_, named.parsed⟩
  · intro item member
    rcases named.rows item member with ⟨names, answered, shown⟩
    exact ⟨names, List.mem_append_left more answered, shown⟩
  · intro accepted
    rcases named.selected accepted with ⟨server, names, said, answered, shown⟩
    exact ⟨server, names, said, List.mem_append_left more answered, shown⟩

theorem DialogState.Named.step {answers : List ((Text × Int) × List Text)}
    {s t : DialogState} {action : DialogAction}
    (named : s.Named decimals answers)
    (next : s.step decimals action = some t) :
    t.Named decimals (answers ++ queryAnswersIn s action) := by
  have before : s.Named decimals (answers ++ queryAnswersIn s action) :=
    named.mono
  cases dialogStep_of_step next with
  | edit isOpen text =>
      refine ⟨before.rows, before.selected, ?_⟩
      intro accepted
      rw [show s.result = some .accepted from accepted] at isOpen
      cases isOpen
  | queryRefused | query =>
      exact ⟨List.forall_mem_nil _, before.selected,
        before.parsed⟩
  | selectRow | acceptRefused | noNames =>
      exact ⟨before.rows, before.selected, before.parsed⟩
  | accept member parsed =>
      refine ⟨before.rows, ?_, fun _ => parsed⟩
      intro _
      rcases before.rows _ member with ⟨names, answered, shown⟩
      exact ⟨_, names, rfl, answered, shown⟩
  | reject =>
      exact ⟨before.rows, (nomatch ·),
        (nomatch ·)⟩
  | @names names status endpoint pending waiting =>
      refine ⟨?_, before.selected, before.parsed⟩
      intro item member
      rcases List.mem_append.mp member with old | new
      · exact before.rows item old
      · rcases List.mem_map.mp new with ⟨name, among, rfl⟩
        refine ⟨names, List.mem_append_right answers ?_, among⟩
        simp [queryAnswersIn, waiting]

theorem DialogState.Named.run {answers : List ((Text × Int) × List Text)}
    {s t : DialogState} {actions : List DialogAction}
    (named : s.Named decimals answers)
    (run : Run (DialogState.step decimals) s actions t) :
    t.Named decimals (answers ++ queryAnswers decimals s actions) := by
  induction actions generalizing s answers with
  | nil =>
      obtain rfl := Run.nil_iff.mp run
      simpa [queryAnswers] using named
  | cons action actions inductionHypothesis =>
      rcases Run.cons_iff.mp run with ⟨middle, next, tail⟩
      have rest := inductionHypothesis (named.step next) tail
      simpa only [queryAnswers, next, List.append_assoc] using rest

theorem named_opened (decimals : Decimals) (history : List Text)
    (lastEndpoint : Text) :
    (DialogState.opened history lastEndpoint).Named decimals [] :=
  ⟨List.forall_mem_nil _, (nomatch ·),
    (nomatch ·)⟩

/-- The window goes on with the endpoint and the buffer of the dialog. -/
theorem onDiscover_accepted {s : DialogState} {window : SessionState}
    (parsed : parseEndpoint decimals s.comboText =
      some (s.selectedHost, s.selectedPort)) :
    window.onDiscover decimals (some (s.comboText, s.selectedName)) =
      some (SessionState.beginConnect decimals
        { (if window.rx.isSome then window.disconnect
            else window).pushEndpointHistory s.endpointText with
          host := s.selectedHost
          port := str s.selectedPort
          buffer := s.selectedName }) := by
  simp only [SessionState.onDiscover, parsed, Option.bind_eq_bind,
    Option.bind_some]
  rfl

/-! ### Edits -/

/-- A step that is no edit, or an edit that keeps the endpoint, keeps rows and
queries those of the endpoint in the combo box, and with them the accepted
buffer. -/
theorem steady_keeps {s t : DialogState} {action : DialogAction}
    (matching : s.Matches decimals ∧ s.Answers)
    (steady : s.Steady decimals action)
    (next : s.step decimals action = some t) :
    t.Matches decimals ∧ t.Answers := by
  rcases matching with ⟨matching, answers⟩
  cases dialogStep_of_step next with
  | edit isOpen text =>
      refine ⟨?_, answers⟩
      rcases steady with ⟨noRows, noQueries⟩ | same
      · constructor
        · intro item member
          rw [show s.list = [] from noRows] at member
          cases member
        · intro asked member
          rw [show s.pending = [] from noQueries] at member
          cases member
      · constructor
        · intro item member endpoint parsed
          exact matching.rows item member endpoint (same ▸ parsed)
        · intro asked member endpoint parsed
          exact matching.queries asked member endpoint (same ▸ parsed)
  | queryRefused =>
      exact ⟨⟨List.forall_mem_nil _, matching.queries⟩, answers⟩
  | @query status endpoint parsed =>
      refine ⟨⟨List.forall_mem_nil _, ?_⟩, answers⟩
      rw [List.forall_mem_cons]
      refine ⟨?_, matching.queries⟩
      intro other same
      rw [show parseEndpoint decimals s.comboText = some other from same]
        at parsed
      exact (Option.some.inj parsed).symm
  | selectRow | acceptRefused =>
      exact ⟨⟨matching.rows, matching.queries⟩, answers⟩
  | accept member parsed =>
      refine ⟨⟨matching.rows, matching.queries⟩, ?_⟩
      intro _
      exact congrArg some (matching.rows _ member _ parsed)
  | reject =>
      exact ⟨⟨matching.rows, matching.queries⟩, (nomatch ·)⟩
  | noNames answer status waiting =>
      have queries := matching.queries
      rw [waiting, List.forall_mem_cons] at queries
      exact ⟨⟨matching.rows, queries.2⟩, answers⟩
  | names names status waiting =>
      have queries := matching.queries
      rw [waiting, List.forall_mem_cons] at queries
      refine ⟨⟨?_, queries.2⟩, answers⟩
      intro item member endpoint parsed
      rcases List.mem_append.mp member with old | new
      · exact matching.rows item old endpoint parsed
      · rcases List.mem_map.mp new with ⟨name, _, rfl⟩
        exact queries.1 endpoint parsed

theorem steady_run_keeps {s t : DialogState} {actions : List DialogAction}
    (steady : Meets (DialogState.step decimals) (DialogState.Steady decimals) s
      actions)
    (run : Run (DialogState.step decimals) s actions t)
    (matching : s.Matches decimals ∧ s.Answers) :
    t.Matches decimals ∧ t.Answers := by
  have kept : ∀ (s : DialogState) (action : DialogAction) (t : DialogState),
      s.Matches decimals ∧ s.Answers →
      s.Steady decimals action → s.step decimals action = some t →
      t.Matches decimals ∧ t.Answers := by
    intro s action t
    exact steady_keeps
  exact steady.invariant kept run matching

theorem steady_of_not_edit {s : DialogState} {action : DialogAction}
    (noEdit : action.isEdit = false) : s.Steady decimals action := by
  cases action with
  | edit text => cases noEdit
  | query | selectRow | accept | reject | resume => trivial

/-! ### What is safe without a further edit -/

theorem DialogState.Safe.step {s t : DialogState} {action : DialogAction}
    (safe : s.Safe decimals) (noEdit : action.isEdit = false)
    (next : s.step decimals action = some t) : t.Safe decimals := by
  intro actions u noEdits run
  exact safe (action :: actions) u
    (List.forall_mem_cons.mpr ⟨noEdit, noEdits⟩)
    (Run.cons_iff.mpr ⟨t, next, run⟩)

/-- The user may take any row. -/
theorem DialogState.Safe.rows {s : DialogState} (safe : s.Safe decimals)
    (isOpen : s.result = none) :
    ∀ item ∈ s.list, ∀ endpoint,
      parseEndpoint decimals s.comboText = some endpoint →
        item.endpoint = endpoint := by
  intro item member endpoint parsed
  rcases List.mem_iff_getElem?.mp member with ⟨row, found⟩
  have inside : row < s.list.length := by
    rw [List.getElem?_eq_some_iff] at found
    exact found.1
  let taken : DialogState := { s with currentRow := some row }
  have selects : s.step decimals (.selectRow row) = some taken :=
    whenever_of ⟨isOpen, inside⟩ taken
  have accepts : taken.step decimals .accept = some
      { taken with
        selectedHost := endpoint.1, selectedPort := endpoint.2
        selectedName := item.text, selectedFrom := some item.endpoint
        result := some .accepted } := by
    have current : taken.currentItem = some item := found
    simp only [DialogState.step, DialogState.onAccept,
      show parseEndpoint decimals taken.comboText = some endpoint from parsed,
      current]
    exact whenever_of isOpen _
  have answers := safe [.selectRow row, .accept] _
    (by simp [DialogAction.isEdit])
    (Run.cons_iff.mpr ⟨taken, selects, Run.cons_iff.mpr
      ⟨_, accepts, Run.nil_iff.mpr rfl⟩⟩)
  exact Option.some.inj (answers rfl)

/-- The server of any pending query may name a buffer. -/
theorem DialogState.Safe.queries {s : DialogState} (safe : s.Safe decimals)
    (isOpen : s.result = none) :
    ∀ asked ∈ s.pending, ∀ endpoint,
      parseEndpoint decimals s.comboText = some endpoint →
        asked = endpoint := by
  generalize waiting : s.pending = pending
  induction pending generalizing s with
  | nil => exact List.forall_mem_nil _
  | cons asked pending inductionHypothesis =>
      rw [List.forall_mem_cons]
      constructor
      · intro endpoint parsed
        have named : s.step decimals (.resume (.names [[]])) =
            some (DialogState.answered { s with pending := pending } asked
              (.names [[]])) := by
          simp only [DialogState.step, waiting]
        have rows := (safe.step rfl named).rows isOpen
        exact rows { text := [], endpoint := asked }
          (List.mem_append_right s.list List.mem_cons_self) endpoint parsed
      · have failed : s.step decimals (.resume (.raises [])) =
            some (DialogState.answered { s with pending := pending } asked
              (.raises [])) := by
          simp only [DialogState.step, waiting]
        have later : (DialogState.answered { s with pending := pending } asked
            (.raises [])).Safe decimals :=
          safe.step rfl failed
        have rest := inductionHypothesis later isOpen rfl
        exact rest

/-- An open dialog can be accepted without a further edit with a buffer of
another server than the one in the combo box exactly when a row or a pending
query is of another one. -/
theorem safe_iff_matches {s : DialogState} (isOpen : s.result = none) :
    s.Safe decimals ↔ s.Matches decimals := by
  constructor
  · intro safe
    exact ⟨safe.rows isOpen, safe.queries isOpen⟩
  · intro matching actions t noEdits run
    have unanswered : s.Answers := by
      intro accepted
      rw [isOpen] at accepted
      cases accepted
    have steady : Meets (DialogState.step decimals)
        (DialogState.Steady decimals) s actions := by
      apply Meets.of_forall
      intro action member t
      exact steady_of_not_edit (noEdits action member)
    exact (steady_run_keeps steady run ⟨matching, unanswered⟩).2

/-! ### The buffer that is handed over -/

/-- Over every run of the dialog, queries inside queries included.  An accepted
dialog hands the window an endpoint that it read from the combo box and a
buffer that a queried server named.  It is the server at that endpoint when no
edit changed the endpoint while there were rows or pending queries; and while
the dialog is open, it can be another one without a further edit exactly when a
row or a pending query is of another endpoint than the one in the combo box. -/
theorem discovered_buffer_listed (decimals : Decimals) (history : List Text)
    (lastEndpoint : Text) {actions : List DialogAction} {s : DialogState}
    (run : Run (DialogState.step decimals)
      (DialogState.opened history lastEndpoint) actions s) :
    (s.result = some .accepted →
      (∀ window : SessionState,
        window.onDiscover decimals (some (s.comboText, s.selectedName)) =
          some (SessionState.beginConnect decimals
            { (if window.rx.isSome then window.disconnect
                else window).pushEndpointHistory s.endpointText with
              host := s.selectedHost
              port := str s.selectedPort
              buffer := s.selectedName })) ∧
      ∃ server names, s.selectedFrom = some server ∧
        (server, names) ∈ queryAnswers decimals
          (DialogState.opened history lastEndpoint) actions ∧
        s.selectedName ∈ names) ∧
    (Meets (DialogState.step decimals) (DialogState.Steady decimals)
        (DialogState.opened history lastEndpoint) actions →
      s.Answers) ∧
    (s.result = none → (s.Safe decimals ↔ s.Matches decimals)) := by
  have named := (named_opened decimals history lastEndpoint).run run
  rw [List.nil_append] at named
  refine ⟨?_, ?_, safe_iff_matches⟩
  · intro accepted
    exact ⟨fun window => onDiscover_accepted (named.parsed accepted),
      named.selected accepted⟩
  · intro steady
    have start : (DialogState.opened history lastEndpoint).Matches decimals :=
      ⟨List.forall_mem_nil _, List.forall_mem_nil _⟩
    exact (steady_run_keeps steady run ⟨start, (nomatch ·)⟩).2

/-- A query that is answered, and the choice of a row. -/
def pickSecond : List DialogAction :=
  [.query, .resume (.names ["A".toList, "B".toList]), .selectRow 1, .accept]

def pickSecondEnd : DialogState where
  comboText := "lab:7".toList
  list := [{ text := "A".toList, endpoint := ("lab".toList, 7) },
    { text := "B".toList, endpoint := ("lab".toList, 7) }]
  currentRow := some 1
  status := "lab:7: 2 buffer(s)".toList
  selectedHost := "lab".toList
  selectedPort := 7
  selectedName := "B".toList
  selectedFrom := some ("lab".toList, 7)
  result := some .accepted

/-- A query that is answered, and an edit of the port. -/
def editedPort : List DialogAction :=
  [.query, .resume (.names ["A".toList]), .edit "lab:8".toList]

def editedPortEnd : DialogState where
  comboText := "lab:8".toList
  list := [{ text := "A".toList, endpoint := ("lab".toList, 7) }]
  currentRow := some 0
  status := "lab:7: 1 buffer(s)".toList

theorem discovered_buffer_listed_lab :
    pickSecondEnd.Answers ∧ ¬ editedPortEnd.Safe asciiDecimals := by
  have picked : Run (DialogState.step asciiDecimals)
      (DialogState.opened [] "lab:7".toList) pickSecond pickSecondEnd := by
    decide +kernel
  have edited : Run (DialogState.step asciiDecimals)
      (DialogState.opened [] "lab:7".toList) editedPort editedPortEnd := by
    decide +kernel
  constructor
  · exact (discovered_buffer_listed asciiDecimals [] _ picked).2.1
      (by decide +kernel)
  · rw [(discovered_buffer_listed asciiDecimals [] _ edited).2.2 rfl]
    intro matching
    have same := matching.rows _ List.mem_cons_self ("lab".toList, 8)
      (by decide +kernel)
    exact absurd same (by decide)

end CycFlowPy.Viewer
