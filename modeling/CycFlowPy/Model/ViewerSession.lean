/-
Module: CycFlowPy.Model.ViewerSession
Purpose: How the viewer connects and disconnects: the endpoint dialog, the
  history of endpoints, and the handlers that own the receiver, the reader and
  the timer.
Trusted boundary: Qt runs one handler at a time, and other handlers of the
  window only inside `processEvents`; which characters are digits is Unicode's,
  and the limit on the digits of an integer the default one; of a receiver and
  a reader only the calls of `stop()` are known
Main exports: parseEndpoint, ConnectAttempt, SessionState, ConnectOutcome,
  SessionAction, SessionState.step, SessionState.Tidy, endpointsPushed
-/
import CycFlowPy.Lib.PyText
import CycFlowPy.Lib.Runs

namespace CycFlowPy.Viewer

open PyText Runs

/-! ### Endpoints

[SRC examples/tcp_viewer.py:263-275]
[SRC examples/tcp_viewer.py:451-473]
-/

/-- `DiscoveryDialog._parse_endpoint` on the text of the combo box. -/
def parseEndpoint (decimals : Decimals) (currentText : Text) :
    Option (Text × Int) :=
  let text := strip currentText
  if ':' ∉ text then none
  else
    let (host, _, portS) := rpartition ':' text
    let host := strip host
    if host = [] then none
    else (int decimals (strip portS)).map fun port => (host, port)

/-- `f"{host}:{port}"`. -/
def endpointText (host : Text) (port : Int) : Text :=
  host ++ ':' :: str port

/-- A `_connect` that has read its line edits and processes events before it
connects. -/
structure ConnectAttempt where
  host : Text
  port : Int
  bufferName : Text
deriving Repr, DecidableEq

/-! ### The window

Receivers and their readers are numbered in the order in which `_connect`
creates them.  `connected` are the receivers whose `connect` returned true and
on which `stop` was not called since, and `readers` the readers that were
created and not stopped.

[SRC examples/tcp_viewer.py:318-372]
[SRC examples/tcp_viewer.py:475-528]
[SRC examples/tcp_viewer.py:683-685]
-/

/-- `plots` is the receiver whose tracks `_build_plots` made last, and
`pending` are the calls of `_connect` inside `processEvents`, innermost
first. -/
structure SessionState where
  host : Text := "127.0.0.1".toList
  port : Text := "5000".toList
  buffer : Text := "SensorStream".toList
  status : Text := "disconnected".toList
  button : Text := "Connect".toList
  endpointHistory : List Text := []
  rx : Option Nat := none
  reader : Option Nat := none
  timer : Bool := false
  plots : Option Nat := none
  pending : List ConnectAttempt := []
  created : Nat := 0
  connected : List Nat := []
  readers : List Nat := []
deriving Repr, DecidableEq

/-- `ENDPOINT_HISTORY_CAP`. -/
def endpointHistoryCap : Nat := 10

def SessionState.pushEndpointHistory (s : SessionState) (ep : Text) :
    SessionState :=
  if ep = [] then s
  else
    let others :=
      if ep ∈ s.endpointHistory then
        s.endpointHistory.eraseP fun other => other = ep
      else s.endpointHistory
    { s with endpointHistory := (ep :: others).take endpointHistoryCap }

/-- `stop()` on the object, if there is one. -/
def stopped (object : Option Nat) (unstopped : List Nat) : List Nat :=
  unstopped.filter fun other => object ≠ some other

def SessionState.disconnect (s : SessionState) : SessionState :=
  { s with
    timer := false
    readers := stopped s.reader s.readers
    reader := none
    connected := stopped s.rx s.connected
    rx := none
    button := "Connect".toList
    status := "disconnected".toList }

section Connect

variable (decimals : Decimals)

/-- `_connect` up to `processEvents`. -/
def SessionState.beginConnect (s : SessionState) : SessionState :=
  let host := strip s.host
  let bufferName := strip s.buffer
  match int decimals (strip s.port) with
  | none => { s with status := "invalid port".toList }
  | some port =>
      if host = [] ∨ bufferName = [] then
        { s with status := "fill host and buffer".toList }
      else
        { s with
          status := "connecting to ".toList ++ endpointText host port ++
            '/' :: bufferName ++ "…".toList
          pending :=
            { host := host, port := port, bufferName := bufferName } ::
              s.pending }

/-- What the calls behind `processEvents` do: the receiver's constructor or
`connect` raises; `connect` returns false; `connect` returns true and reading
the rule raises; or `connect` returns true and the rule has this number of
tracks, where the constructor of the reader may raise. -/
inductive ConnectOutcome where
  | raises
  | refused
  | ruleRaises
  | connected (tracks : Nat) (readerRaises : Bool)
deriving Repr, DecidableEq

/-- `_connect` behind `processEvents`, with `s.created` as the receiver. -/
def SessionState.connect (s : SessionState) (attempt : ConnectAttempt)
    (outcome : ConnectOutcome) : SessionState :=
  let rx := s.created
  let s := { s with created := s.created + 1 }
  match outcome with
  | .raises => s
  | .refused =>
      { s with
        status := "failed: ".toList ++
          endpointText attempt.host attempt.port ++ '/' :: attempt.bufferName }
  | .ruleRaises => { s with connected := rx :: s.connected }
  | .connected tracks readerRaises =>
      if tracks = 0 then
        { s with status := "no plottable fields in buffer".toList }
      else
        let s := s.pushEndpointHistory
          (endpointText attempt.host attempt.port)
        let s := { s with plots := some rx, connected := rx :: s.connected }
        if readerRaises then s
        else
          { s with
            reader := some rx
            readers := rx :: s.readers
            rx := some rx
            button := "Disconnect".toList
            status := "connected • ".toList ++ str tracks ++
              " track(s)".toList
            timer := true }

/-- What the user does: an edit of one of the line edits; the connect button;
the discover button, with the text of the combo box and the buffer the dialog
was accepted with, if it was; closing the window.  `resume` is the return of
the innermost `processEvents`. -/
inductive SessionAction where
  | editHost (text : Text)
  | editPort (text : Text)
  | editBuffer (text : Text)
  | toggleConnection
  | discover (answer : Option (Text × Text))
  | resume (outcome : ConnectOutcome)
  | close
deriving Repr, DecidableEq

/-- `_on_discover`; the dialog accepts an endpoint that it can parse only. -/
def SessionState.onDiscover (s : SessionState) :
    Option (Text × Text) → Option SessionState
  | none => some (if s.rx.isSome then s.disconnect else s)
  | some (comboText, name) => do
      let s := if s.rx.isSome then s.disconnect else s
      let (host, port) ← parseEndpoint decimals comboText
      let s := s.pushEndpointHistory (strip comboText)
      let s := { s with host := host, port := str port, buffer := name }
      return s.beginConnect decimals

def SessionState.step (s : SessionState) :
    SessionAction → Option SessionState
  | .editHost text => some { s with host := text }
  | .editPort text => some { s with port := text }
  | .editBuffer text => some { s with buffer := text }
  | .toggleConnection =>
      some (if s.rx.isNone then s.beginConnect decimals else s.disconnect)
  | .discover answer => s.onDiscover decimals answer
  | .resume outcome =>
      match s.pending with
      | [] => none
      | attempt :: pending =>
          some ({ s with pending := pending }.connect attempt outcome)
  | .close => some s.disconnect

/-- The texts that an action puts into the history, each with the host and the
port it stands for. -/
def endpointsPushedBy (s : SessionState) :
    SessionAction → List (Text × Text × Int)
  | .discover (some (comboText, _)) =>
      match parseEndpoint decimals comboText with
      | none => []
      | some (host, port) => [(strip comboText, host, port)]
  | .resume (.connected tracks _) =>
      match s.pending with
      | [] => []
      | attempt :: _ =>
          if tracks = 0 then []
          else [(endpointText attempt.host attempt.port, attempt.host,
            attempt.port)]
  | _ => []

/-- The texts that a run puts into the history, in order. -/
def endpointsPushed :
    SessionState → List SessionAction → List (Text × Text × Int)
  | _, [] => []
  | s, action :: actions =>
      endpointsPushedBy decimals s action ++
        match s.step decimals action with
        | none => []
        | some t => endpointsPushed t actions

end Connect

/-- `stop()` was called on every receiver that connected and on every reader,
those that the window has excepted, and its plots belong to what its reader
reads. -/
structure SessionState.Tidy (s : SessionState) : Prop where
  receivers : ∀ rx ∈ s.connected, s.rx = some rx
  readers : ∀ reader ∈ s.readers, s.reader = some reader
  plots : ∀ reader, s.reader = some reader → s.plots = some reader

end CycFlowPy.Viewer
