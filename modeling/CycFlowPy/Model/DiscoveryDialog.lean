/-
Module: CycFlowPy.Model.DiscoveryDialog
Purpose: The dialog in which the viewer queries a server for its buffers and
  picks one.
Trusted boundary: Qt runs one handler at a time, and other handlers of the
  dialog only inside `processEvents`; a dialog that was closed gets no events
Main exports: QueryAnswer, ListItem, DialogState, DialogAction,
  DialogState.step, queryAnswers, DialogState.Steady, DialogState.Answers,
  DialogState.Safe
-/
import CycFlowPy.Model.ViewerSession

namespace CycFlowPy.Viewer

open PyText Runs

/-!
`_on_query` clears the list, reads the endpoint and processes events before it
asks the server, so that the user may edit, query or accept in between; when
the answer is there, its names are appended to what the list then holds.

[SRC examples/tcp_viewer.py:217-316]
-/

/-- What `request_buffer_list` does: it raises, or returns names. -/
inductive QueryAnswer where
  | raises (text : Text)
  | names (names : List Text)
deriving Repr, DecidableEq

/-- A row of the list.  The code does not keep the endpoint whose server named
it. -/
structure ListItem where
  text : Text
  endpoint : Text × Int
deriving Repr, DecidableEq

inductive DialogCode where
  | accepted
  | rejected
deriving Repr, DecidableEq

/-- `pending` are the endpoints of the calls of `_on_query` inside
`processEvents`, innermost first; `selectedFrom` is the endpoint whose server
named the row that was accepted. -/
structure DialogState where
  comboText : Text := []
  list : List ListItem := []
  currentRow : Option Nat := none
  status : Text := []
  selectedHost : Text := []
  selectedPort : Int := 0
  selectedName : Text := []
  selectedFrom : Option (Text × Int) := none
  result : Option DialogCode := none
  pending : List (Text × Int) := []
deriving Repr, DecidableEq

/-- `__init__`: the combo box shows the last endpoint, or the first entry of
the history when there is none. -/
def DialogState.opened (history : List Text) (lastEndpoint : Text) :
    DialogState where
  comboText := if lastEndpoint = [] then history.headD [] else lastEndpoint

def DialogState.currentItem (s : DialogState) : Option ListItem :=
  s.currentRow.bind fun row => s.list[row]?

def DialogState.endpointText (s : DialogState) : Text :=
  strip s.comboText

/-- What the user does: an edit of the combo box or the choice of one of its
entries, the query button, another current row, OK or a double click, Cancel.
`resume` is the return of the innermost `processEvents`. -/
inductive DialogAction where
  | edit (text : Text)
  | query
  | selectRow (row : Nat)
  | accept
  | reject
  | resume (answer : QueryAnswer)
deriving Repr, DecidableEq

section Handlers

variable (decimals : Decimals)

/-- `_on_query` up to `processEvents`. -/
def DialogState.onQuery (s : DialogState) : DialogState :=
  let s := { s with list := [], currentRow := none }
  match parseEndpoint decimals s.comboText with
  | none => { s with status := "format: host:port".toList }
  | some (host, port) =>
      { s with
        status := "querying ".toList ++ Viewer.endpointText host port ++
          "…".toList
        pending := (host, port) :: s.pending }

/-- `_on_query` behind `processEvents`. -/
def DialogState.answered (s : DialogState) (endpoint : Text × Int) :
    QueryAnswer → DialogState
  | .raises text => { s with status := "failed: ".toList ++ text }
  | .names names =>
      let shown := Viewer.endpointText endpoint.1 endpoint.2
      if names = [] then
        { s with status := shown ++ ": no buffers".toList }
      else
        { s with
          list := s.list ++ names.map fun name =>
            { text := name, endpoint := endpoint }
          currentRow := some 0
          status := shown ++ ": ".toList ++ str names.length ++
            " buffer(s)".toList }

/-- `_accept`. -/
def DialogState.onAccept (s : DialogState) : DialogState :=
  match parseEndpoint decimals s.comboText with
  | none => { s with status := "format: host:port".toList }
  | some (host, port) =>
      match s.currentItem with
      | none => { s with status := "pick a buffer".toList }
      | some item =>
          { s with
            selectedHost := host
            selectedPort := port
            selectedName := item.text
            selectedFrom := some item.endpoint
            result := some .accepted }

def DialogState.step (s : DialogState) : DialogAction → Option DialogState
  | .edit text => whenever (s.result = none) { s with comboText := text }
  | .query => whenever (s.result = none) (s.onQuery decimals)
  | .selectRow row =>
      whenever (s.result = none ∧ row < s.list.length)
        { s with currentRow := some row }
  | .accept => whenever (s.result = none) (s.onAccept decimals)
  | .reject => whenever (s.result = none) { s with result := some .rejected }
  | .resume answer =>
      match s.pending with
      | [] => none
      | endpoint :: pending =>
          some ({ s with pending := pending }.answered endpoint answer)

/-- The names that a server returns in a step, with its endpoint. -/
def queryAnswersIn (s : DialogState) :
    DialogAction → List ((Text × Int) × List Text)
  | .resume (.names names) => (s.pending.take 1).map (·, names)
  | _ => []

/-- The names that the servers return in a run, in order. -/
def queryAnswers :
    DialogState → List DialogAction → List ((Text × Int) × List Text)
  | _, [] => []
  | s, action :: actions =>
      queryAnswersIn s action ++
        match s.step decimals action with
        | none => []
        | some t => queryAnswers t actions

/-- An edit keeps the endpoint while there are rows or a query is pending. -/
def DialogState.Steady (s : DialogState) : DialogAction → Prop
  | .edit text => (s.list = [] ∧ s.pending = []) ∨
      parseEndpoint decimals text = parseEndpoint decimals s.comboText
  | _ => True

instance (s : DialogState) :
    (action : DialogAction) → Decidable (s.Steady decimals action)
  | .edit _ => inferInstanceAs (Decidable ((_ ∧ _) ∨ _))
  | .query | .selectRow _ | .accept | .reject | .resume _ => isTrue trivial

/-- Every row and every pending query is of the endpoint in the combo box, if
it holds one. -/
structure DialogState.Matches (s : DialogState) : Prop where
  rows : ∀ item ∈ s.list, ∀ endpoint,
    parseEndpoint decimals s.comboText = some endpoint →
      item.endpoint = endpoint
  queries : ∀ asked ∈ s.pending, ∀ endpoint,
    parseEndpoint decimals s.comboText = some endpoint → asked = endpoint

end Handlers

def DialogAction.isEdit : DialogAction → Bool
  | .edit _ => true
  | _ => false

/-- If the dialog is accepted, the server at the accepted endpoint named the
buffer. -/
def DialogState.Answers (s : DialogState) : Prop :=
  s.result = some .accepted →
    s.selectedFrom = some (s.selectedHost, s.selectedPort)

/-- Without a further edit the dialog is accepted with a buffer of the accepted
endpoint only, whatever the servers answer. -/
def DialogState.Safe (decimals : Decimals) (s : DialogState) : Prop :=
  ∀ actions t, (∀ action ∈ actions, action.isEdit = false) →
    Run (DialogState.step decimals) s actions t → t.Answers

end CycFlowPy.Viewer
