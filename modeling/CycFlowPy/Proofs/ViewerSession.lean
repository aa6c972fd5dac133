/-
Module: CycFlowPy.Proofs.ViewerSession
Purpose: Over every run of the viewer's connection handlers, nested ones
  included: the history of endpoints, what of the window belongs together, and
  when a receiver is left without a call of `stop()`.
Trusted boundary: none
Main exports: parse_endpointText, beginConnect_cases, connect_cases,
  SessionState.Consistent, endpoint_history_recent, session_tidy_iff
-/
import CycFlowPy.Lib.Recent
import CycFlowPy.Model.ViewerSession

namespace CycFlowPy.Viewer

open PyText Runs

variable {decimals : Decimals}

/-! ### Endpoints -/

theorem colon_not_mem_str (port : Int) : ':' ∉ str port := by
  intro member
  rcases mem_str member with sign | digit
  · cases sign
  · cases digit

/-- The dialog reads back the endpoint that `_connect` puts into the
history. -/
theorem parse_endpointText (decimals : Decimals) {host : Text} {port : Int}
    (stripped : strip host = host) (nonempty : host ≠ [])
    (small : port.natAbs < 10 ^ maxStrDigits) :
    parseEndpoint decimals (endpointText host port) = some (host, port) := by
  have joined : strip (endpointText host port) = endpointText host port :=
    strip_join ':' stripped nonempty (str_ne_nil port)
      fun _ member => not_space_of_mem_str member
  have colon : ':' ∈ endpointText host port := by
    simp [endpointText]
  have parts : rpartition ':' (endpointText host port) =
      (host, [':'], str port) :=
    rpartition_append host (colon_not_mem_str port)
  simp only [parseEndpoint, joined, parts, stripped, strip_str,
    int_str decimals small, not_not.mpr colon, if_neg nonempty, if_false,
    Option.map_some]

theorem parse_strip (decimals : Decimals) (text : Text) :
    parseEndpoint decimals (strip text) = parseEndpoint decimals text := by
  unfold parseEndpoint
  rw [strip_strip]

theorem ne_nil_of_parse {text : Text} {endpoint : Text × Int}
    (parsed : parseEndpoint decimals text = some endpoint) : text ≠ [] := by
  rintro rfl
  cases parsed

/-! ### What one handler does -/

theorem pushEndpointHistory_eq {s : SessionState} {ep : Text}
    (nonempty : ep ≠ []) :
    s.pushEndpointHistory ep =
      { s with
        endpointHistory :=
          Recent.push endpointHistoryCap ep s.endpointHistory } := by
  rw [SessionState.pushEndpointHistory, if_neg nonempty]
  by_cases known : ep ∈ s.endpointHistory
  · simp only [if_pos known, Recent.push]
  · have absent : ∀ other ∈ s.endpointHistory,
        ¬ decide (other = ep) = true := by
      intro other member
      rw [decide_eq_true_eq]
      rintro rfl
      exact known member
    simp only [if_neg known, Recent.push, List.eraseP_of_forall_not absent]

/-- An attempt to connect to a host without blanks around it, and to a port
that can be written as text. -/
structure ConnectAttempt.Sane (attempt : ConnectAttempt) : Prop where
  stripped : strip attempt.host = attempt.host
  nonempty : attempt.host ≠ []
  small : attempt.port.natAbs < 10 ^ maxStrDigits

/-- `_connect` refuses what the line edits hold, or waits in
`processEvents`. -/
theorem beginConnect_cases (decimals : Decimals) (s : SessionState) :
    ∃ status,
      s.beginConnect decimals = { s with status := status } ∨
      ∃ attempt : ConnectAttempt, attempt.Sane ∧
        s.beginConnect decimals =
          { s with status := status, pending := attempt :: s.pending } := by
  unfold SessionState.beginConnect
  cases read : int decimals (strip s.port) with
  | none => exact ⟨_, .inl rfl⟩
  | some port =>
      by_cases missing : strip s.host = [] ∨ strip s.buffer = []
      · exact ⟨_, .inl (if_pos missing)⟩
      · refine ⟨_, .inr ⟨_, ?_, if_neg missing⟩⟩
        rw [not_or] at missing
        exact ⟨strip_strip s.host, missing.1, natAbs_int_lt decimals read⟩

/-- Nothing has connected, or it was stopped again. -/
def ConnectOutcome.isIdle : ConnectOutcome → Bool
  | .raises | .refused => true
  | .ruleRaises => false
  | .connected tracks _ => tracks = 0

/-- `_connect` behind `processEvents`: it leaves the window as it is; it
leaves a receiver connected; it also rebuilds the plots; or it makes the
receiver, its reader and the plots those of the window. -/
theorem connect_cases (s : SessionState) (attempt : ConnectAttempt)
    (outcome : ConnectOutcome) :
    (outcome.isIdle = true ∧ ∃ status, s.connect attempt outcome =
      { s with created := s.created + 1, status := status }) ∨
    (outcome = .ruleRaises ∧ s.connect attempt outcome =
      { s with
        created := s.created + 1
        connected := s.created :: s.connected }) ∨
    ∃ tracks, tracks ≠ 0 ∧
      ((outcome = .connected tracks true ∧ s.connect attempt outcome =
        { s with
          created := s.created + 1
          endpointHistory := Recent.push endpointHistoryCap
            (endpointText attempt.host attempt.port) s.endpointHistory
          plots := some s.created
          connected := s.created :: s.connected }) ∨
      (outcome = .connected tracks false ∧ ∃ status,
        s.connect attempt outcome =
        { s with
          created := s.created + 1
          endpointHistory := Recent.push endpointHistoryCap
            (endpointText attempt.host attempt.port) s.endpointHistory
          plots := some s.created
          connected := s.created :: s.connected
          reader := some s.created
          readers := s.created :: s.readers
          rx := some s.created
          button := "Disconnect".toList
          status := status
          timer := true })) := by
  have nonempty : endpointText attempt.host attempt.port ≠ [] := by
    simp [endpointText]
  cases outcome with
  | raises => exact .inl ⟨rfl, s.status, rfl⟩
  | refused => exact .inl ⟨rfl, _, rfl⟩
  | ruleRaises => exact .inr (.inl ⟨rfl, rfl⟩)
  | connected tracks readerRaises =>
      by_cases none : tracks = 0
      · left
        exact ⟨by simp [ConnectOutcome.isIdle, none], _, if_pos none⟩
      · right
        right
        refine ⟨tracks, none, ?_⟩
        simp only [SessionState.connect, if_neg none,
          pushEndpointHistory_eq nonempty]
        cases readerRaises with
        | true => exact .inl ⟨rfl, rfl⟩
        | false => exact .inr ⟨rfl, _, rfl⟩

/-! ### The history of endpoints -/

/-- Every call of `_connect` in `processEvents` has a host and a port. -/
def SessionState.Sane (s : SessionState) : Prop :=
  ∀ attempt ∈ s.pending, attempt.Sane

theorem SessionState.Sane.beginConnect {s : SessionState} (sane : s.Sane) :
    (s.beginConnect decimals).Sane := by
  rcases beginConnect_cases decimals s with ⟨status, same | waiting⟩
  · rw [same]
    exact sane
  · rcases waiting with ⟨attempt, first, begun⟩
    rw [begun]
    exact List.forall_mem_cons.mpr ⟨first, sane⟩

theorem beginConnect_history (decimals : Decimals) (s : SessionState) :
    (s.beginConnect decimals).endpointHistory = s.endpointHistory := by
  rcases beginConnect_cases decimals s with ⟨status, same | waiting⟩
  · rw [same]
  · rcases waiting with ⟨attempt, _, begun⟩
    rw [begun]

/-- The entries of a history and those pushed onto it. -/
def pushAll (history : List Text) (pushed : List (Text × Text × Int)) :
    List Text :=
  (pushed.map (·.1)).foldl
    (fun entries ep => Recent.push endpointHistoryCap ep entries) history

/-- Each entry that is pushed reads as the endpoint it stands for. -/
def AllParse (decimals : Decimals) (pushed : List (Text × Text × Int)) :
    Prop :=
  ∀ entry ∈ pushed, parseEndpoint decimals entry.1 = some entry.2

theorem connect_history (decimals : Decimals) {s : SessionState}
    {attempt : ConnectAttempt} {pending : List ConnectAttempt}
    (sane : attempt.Sane)
    (waiting : s.pending = attempt :: pending) (outcome : ConnectOutcome) :
    let t := SessionState.connect { s with pending := pending } attempt outcome
    let pushed := endpointsPushedBy decimals s (.resume outcome)
    t.pending = pending ∧ t.endpointHistory = pushAll s.endpointHistory pushed ∧
      AllParse decimals pushed := by
  have parses := parse_endpointText decimals sane.stripped sane.nonempty
    sane.small
  rcases connect_cases { s with pending := pending } attempt outcome with
    ⟨idle, status, connects⟩ | ⟨rfl, connects⟩ | ⟨tracks, some, shape⟩
  · have none : endpointsPushedBy decimals s (.resume outcome) = [] := by
      cases outcome with
      | raises | refused | ruleRaises => rfl
      | connected tracks readerRaises =>
          rw [ConnectOutcome.isIdle, decide_eq_true_eq] at idle
          simp only [endpointsPushedBy, waiting, if_pos idle]
    simp only [connects, none]
    exact ⟨trivial, rfl, fun entry member => by cases member⟩
  · simp only [connects]
    exact ⟨trivial, rfl, fun entry member => by cases member⟩
  · rcases shape with ⟨rfl, connects⟩ | ⟨rfl, status, connects⟩
    · simp only [connects, endpointsPushedBy, waiting, if_neg some]
      exact ⟨trivial, rfl, List.forall_mem_singleton.mpr parses⟩
    · simp only [connects, endpointsPushedBy, waiting, if_neg some]
      exact ⟨trivial, rfl, List.forall_mem_singleton.mpr parses⟩

theorem onDiscover_history {s t : SessionState} (sane : s.Sane)
    {answer : Option (Text × Text)}
    (next : s.onDiscover decimals answer = some t) :
    t.Sane ∧
      t.endpointHistory = pushAll s.endpointHistory
        (endpointsPushedBy decimals s (.discover answer)) ∧
      AllParse decimals (endpointsPushedBy decimals s (.discover answer)) := by
  have disconnected (P : SessionState → Prop) (as : P s)
      (without : P s.disconnect) :
      P (if s.rx.isSome = true then s.disconnect else s) := by
    split
    · exact without
    · exact as
  cases answer with
  | none =>
      cases next
      refine ⟨disconnected _ sane sane, ?_, fun entry member => by cases member⟩
      exact disconnected (fun t => t.endpointHistory = s.endpointHistory) rfl
        rfl
  | some answer =>
      rcases answer with ⟨comboText, name⟩
      cases parsed : parseEndpoint decimals comboText with
      | none =>
          rw [SessionState.onDiscover, parsed] at next
          cases next
      | some endpoint =>
          rcases endpoint with ⟨host, port⟩
          have stripped := parse_strip decimals comboText
          rw [parsed] at stripped
          simp only [SessionState.onDiscover, parsed, Option.bind_eq_bind,
            Option.bind_some, Option.pure_def, Option.some.injEq,
            pushEndpointHistory_eq (ne_nil_of_parse stripped)] at next
          simp only [endpointsPushedBy, parsed]
          subst next
          refine ⟨?_, ?_, List.forall_mem_singleton.mpr stripped⟩
          · apply SessionState.Sane.beginConnect
            exact disconnected _ sane sane
          · rw [beginConnect_history]
            exact disconnected (fun t =>
              Recent.push endpointHistoryCap (strip comboText)
                t.endpointHistory =
              Recent.push endpointHistoryCap (strip comboText)
                s.endpointHistory) rfl rfl

/-- One handler, and what it pushes. -/
theorem SessionState.Sane.step {s t : SessionState} {action : SessionAction}
    (sane : s.Sane) (next : s.step decimals action = some t) :
    t.Sane ∧
      t.endpointHistory = pushAll s.endpointHistory
        (endpointsPushedBy decimals s action) ∧
      AllParse decimals (endpointsPushedBy decimals s action) := by
  have nothing : AllParse decimals [] := by
    intro entry member
    cases member
  cases action with
  | editHost | editPort | editBuffer | close =>
      cases next
      exact ⟨sane, rfl, nothing⟩
  | toggleConnection =>
      cases next
      split
      · exact ⟨sane.beginConnect, beginConnect_history decimals s, nothing⟩
      · exact ⟨sane, rfl, nothing⟩
  | discover answer => exact onDiscover_history sane next
  | resume outcome =>
      cases waiting : s.pending with
      | nil =>
          simp [SessionState.step, waiting] at next
      | cons attempt pending =>
          simp only [SessionState.step, waiting, Option.some.injEq] at next
          subst next
          unfold SessionState.Sane at sane
          rw [waiting, List.forall_mem_cons] at sane
          have history := connect_history decimals sane.1 waiting
            outcome
          refine ⟨?_, history.2⟩
          unfold SessionState.Sane
          rw [history.1]
          exact sane.2

theorem SessionState.Sane.run {s t : SessionState}
    {schedule : List SessionAction} (sane : s.Sane) {entries : List Text}
    (history : s.endpointHistory = Recent.recent endpointHistoryCap entries)
    (run : Run (SessionState.step decimals) s schedule t) :
    t.endpointHistory = Recent.recent endpointHistoryCap
        (entries ++ (endpointsPushed decimals s schedule).map (·.1)) ∧
      AllParse decimals (endpointsPushed decimals s schedule) := by
  induction schedule generalizing s entries with
  | nil =>
      obtain rfl := Run.nil_iff.mp run
      refine ⟨?_, fun entry member => by cases member⟩
      simpa [endpointsPushed] using history
  | cons action schedule inductionHypothesis =>
      rcases Run.cons_iff.mp run with ⟨middle, next, tail⟩
      rcases sane.step next with ⟨saneMiddle, pushed, parses⟩
      rw [history, pushAll, Recent.foldl_push_recent] at pushed
      rcases inductionHypothesis saneMiddle pushed tail with
        ⟨rest, parsesRest⟩
      simp only [endpointsPushed, next, List.map_append]
      rw [← List.append_assoc]
      refine ⟨rest, ?_⟩
      intro entry member
      rcases List.mem_append.mp member with now | later
      · exact parses entry now
      · exact parsesRest entry later

/-- After every run of the handlers, nested ones included, the history holds
the last ten different texts of endpoints that were connected to or accepted in
the dialog, newest first and no text twice, and the dialog reads each of them
as the host and the port it stands for.  Two texts may stand for one endpoint,
such as `lab:7` and `lab:07`. -/
theorem endpoint_history_recent (decimals : Decimals)
    {schedule : List SessionAction} {s : SessionState}
    (run : Run (SessionState.step decimals) {} schedule s) :
    s.endpointHistory = Recent.recent 10
        ((endpointsPushed decimals {} schedule).map (·.1)) ∧
      s.endpointHistory.Nodup ∧ s.endpointHistory.length ≤ 10 ∧
      ∀ ep ∈ s.endpointHistory, ∃ host port,
        (ep, host, port) ∈ endpointsPushed decimals {} schedule ∧
          parseEndpoint decimals ep = some (host, port) := by
  have start : SessionState.Sane {} := by
    intro attempt member
    cases member
  have empty : SessionState.endpointHistory {} =
      Recent.recent endpointHistoryCap [] := rfl
  rcases start.run empty run with ⟨history, parses⟩
  rw [List.nil_append] at history
  refine ⟨history, ?_, ?_, ?_⟩
  · rw [history]
    exact Recent.nodup_recent _ _
  · rw [history]
    exact Recent.length_recent_le _ _
  · intro ep member
    rw [history] at member
    rcases List.mem_map.mp (Recent.mem_of_mem_recent member) with
      ⟨⟨_, host, port⟩, pushed, rfl⟩
    exact ⟨host, port, pushed, parses _ pushed⟩

/-- A connection by the button, a second one from the dialog in its place, and
closing the window. -/
def twoEndpoints : List SessionAction :=
  [.toggleConnection, .resume (.connected 2 false),
    .discover (some (" lab:7 ".toList, "Sensors".toList)),
    .resume (.connected 1 false), .close]

def twoEndpointsEnd : SessionState where
  host := "lab".toList
  port := "7".toList
  buffer := "Sensors".toList
  endpointHistory := ["lab:7".toList, "127.0.0.1:5000".toList]
  plots := some 1
  created := 2

theorem endpoint_history_recent_twoEndpoints :
    twoEndpointsEnd.endpointHistory = Recent.recent 10
        ((endpointsPushed asciiDecimals {} twoEndpoints).map (·.1)) ∧
      twoEndpointsEnd.endpointHistory.Nodup ∧
      twoEndpointsEnd.endpointHistory.length ≤ 10 ∧
      ∀ ep ∈ twoEndpointsEnd.endpointHistory, ∃ host port,
        (ep, host, port) ∈ endpointsPushed asciiDecimals {} twoEndpoints ∧
          parseEndpoint asciiDecimals ep = some (host, port) :=
  endpoint_history_recent asciiDecimals (by decide +kernel)

/-! ### What is left unstopped -/

/-- The reader and the timer are those of the window's receiver, the button
says so, and receivers are numbered as they are created. -/
structure SessionState.Consistent (s : SessionState) : Prop where
  reader : s.reader = s.rx
  timer : s.timer = s.rx.isSome
  button : s.button =
    if s.rx.isSome then "Disconnect".toList else "Connect".toList
  running : ∀ rx, s.rx = some rx → rx ∈ s.connected ∧ rx ∈ s.readers
  numbered : ∀ rx, rx ∈ s.connected ∨ rx ∈ s.readers → rx < s.created

theorem consistent_session_start : SessionState.Consistent {} where
  reader := rfl
  timer := rfl
  button := rfl
  running := by
    intro rx connected
    cases connected
  numbered := by
    rintro rx (connected | reader)
    · cases connected
    · cases reader

theorem mem_stopped {object : Option Nat} {unstopped : List Nat} {other : Nat} :
    other ∈ stopped object unstopped ↔
      other ∈ unstopped ∧ object ≠ some other := by
  simp [stopped]

theorem SessionState.Consistent.disconnect {s : SessionState}
    (consistent : s.Consistent) : s.disconnect.Consistent where
  reader := rfl
  timer := rfl
  button := rfl
  running := by
    intro rx connected
    cases connected
  numbered := by
    rintro rx (connected | reader)
    · exact consistent.numbered rx (.inl (mem_stopped.mp connected).1)
    · exact consistent.numbered rx (.inr (mem_stopped.mp reader).1)

/-- Disconnecting stops the window's receiver and reader. -/
theorem SessionState.Tidy.stops {s : SessionState} (tidy : s.Tidy) :
    s.disconnect.connected = [] ∧ s.disconnect.readers = [] := by
  constructor
  · apply List.eq_nil_iff_forall_not_mem.mpr
    intro rx member
    rcases mem_stopped.mp member with ⟨connected, other⟩
    exact other (tidy.receivers rx connected)
  · apply List.eq_nil_iff_forall_not_mem.mpr
    intro reader member
    rcases mem_stopped.mp member with ⟨unstopped, other⟩
    exact other (tidy.readers reader unstopped)

theorem SessionState.Tidy.disconnect {s : SessionState} (tidy : s.Tidy) :
    s.disconnect.Tidy where
  receivers := by simp [tidy.stops.1]
  readers := by simp [tidy.stops.2]
  plots := by
    intro reader current
    cases current

theorem SessionState.Consistent.beginConnect {s : SessionState}
    (consistent : s.Consistent) : (s.beginConnect decimals).Consistent := by
  rcases beginConnect_cases decimals s with ⟨status, same | waiting⟩
  · rw [same]
    exact { consistent with }
  · rcases waiting with ⟨attempt, _, begun⟩
    rw [begun]
    exact { consistent with }

theorem SessionState.Tidy.beginConnect {s : SessionState}
    (tidy : s.Tidy) : (s.beginConnect decimals).Tidy := by
  rcases beginConnect_cases decimals s with ⟨status, same | waiting⟩
  · rw [same]
    exact { tidy with }
  · rcases waiting with ⟨attempt, _, begun⟩
    rw [begun]
    exact { tidy with }

/-- When `_connect` goes on with a receiver that has connected and tracks to
show, the window has no receiver, and neither reading the rule nor the reader's
constructor raises. -/
def ConnectsAlone (s : SessionState) : SessionAction → Prop
  | .resume .ruleRaises => False
  | .resume (.connected tracks readerRaises) =>
      tracks ≠ 0 → readerRaises = false ∧ s.rx = none
  | _ => True

instance (s : SessionState) (action : SessionAction) :
    Decidable (ConnectsAlone s action) := by
  unfold ConnectsAlone
  split <;> infer_instance

theorem SessionState.Consistent.connect {s : SessionState}
    (consistent : s.Consistent) (attempt : ConnectAttempt)
    (outcome : ConnectOutcome) : (s.connect attempt outcome).Consistent := by
  have older : ∀ rx, rx ∈ s.connected ∨ rx ∈ s.readers →
      rx < s.created + 1 := by
    intro rx known
    exact Nat.lt_succ_of_lt (consistent.numbered rx known)
  have newer : ∀ rx, rx ∈ s.created :: s.connected ∨ rx ∈ s.readers →
      rx < s.created + 1 := by
    rintro rx (connected | reader)
    · rcases List.mem_cons.mp connected with rfl | before
      · exact Nat.lt_succ_self _
      · exact older rx (.inl before)
    · exact older rx (.inr reader)
  have running : ∀ rx, s.rx = some rx →
      rx ∈ s.created :: s.connected ∧ rx ∈ s.readers := by
    intro rx current
    exact ⟨List.mem_cons_of_mem _ (consistent.running rx current).1,
      (consistent.running rx current).2⟩
  rcases connect_cases s attempt outcome with
    ⟨_, status, connects⟩ | ⟨_, connects⟩ |
    ⟨_, _, ⟨_, connects⟩ | ⟨_, status, connects⟩⟩
  · rw [connects]
    exact { consistent with numbered := older }
  · rw [connects]
    exact { consistent with running := running, numbered := newer }
  · rw [connects]
    exact { consistent with running := running, numbered := newer }
  · rw [connects]
    refine ⟨rfl, rfl, rfl, ?_, ?_⟩
    · intro rx current
      cases current
      exact ⟨List.mem_cons_self, List.mem_cons_self⟩
    · rintro rx (connected | reader)
      · exact newer rx (.inl connected)
      · rcases List.mem_cons.mp reader with rfl | before
        · exact Nat.lt_succ_self _
        · exact older rx (.inr before)

theorem SessionState.Tidy.connect {s : SessionState} (tidy : s.Tidy)
    (consistent : s.Consistent) {attempt : ConnectAttempt}
    {outcome : ConnectOutcome} (alone : ConnectsAlone s (.resume outcome)) :
    (s.connect attempt outcome).Tidy := by
  rcases connect_cases s attempt outcome with
    ⟨_, status, connects⟩ | ⟨rfl, _⟩ |
    ⟨tracks, some, ⟨rfl, _⟩ | ⟨rfl, status, connects⟩⟩
  · rw [connects]
    exact { tidy with }
  · exact absurd alone id
  · exact absurd (alone some).1 (by decide)
  · have noReceiver := (alone some).2
    rw [connects]
    constructor
    · intro rx connected
      rcases List.mem_cons.mp connected with rfl | before
      · rfl
      · rw [tidy.receivers rx before] at noReceiver
        cases noReceiver
    · intro reader unstopped
      rcases List.mem_cons.mp unstopped with rfl | before
      · rfl
      · have current := tidy.readers reader before
        rw [consistent.reader, noReceiver] at current
        cases current
    · exact fun reader current => current

/-- Otherwise a receiver that connected is not the window's, and `stop()` was
not called on it. -/
theorem not_tidy_connect {s : SessionState} (consistent : s.Consistent)
    {attempt : ConnectAttempt} {outcome : ConnectOutcome}
    (notAlone : ¬ ConnectsAlone s (.resume outcome)) :
    ¬ (s.connect attempt outcome).Tidy := by
  -- the new receiver is not the one the window had
  have newReceiver {rx : Nat} (current : s.rx = some rx) :
      rx ≠ s.created := by
    rintro rfl
    exact Nat.lt_irrefl _
      (consistent.numbered _ (.inl (consistent.running _ current).1))
  rcases connect_cases s attempt outcome with
    ⟨idle, _⟩ | ⟨_, connects⟩ |
    ⟨tracks, some, ⟨_, connects⟩ | ⟨rfl, status, connects⟩⟩
  · cases outcome with
    | raises | refused => exact absurd trivial notAlone
    | ruleRaises => cases idle
    | connected tracks readerRaises =>
        rw [ConnectOutcome.isIdle, decide_eq_true_eq] at idle
        exact absurd (fun more => absurd idle more) notAlone
  · rw [connects]
    intro tidy
    exact newReceiver (tidy.receivers s.created List.mem_cons_self) rfl
  · rw [connects]
    intro tidy
    exact newReceiver (tidy.receivers s.created List.mem_cons_self) rfl
  · rw [connects]
    intro tidy
    cases current : s.rx with
    | none => exact notAlone fun _ => ⟨rfl, current⟩
    | some rx =>
        have kept := tidy.receivers rx
          (List.mem_cons_of_mem _ (consistent.running rx current).1)
        exact newReceiver current (Option.some.inj kept).symm

/-- What every handler keeps that neither opens nor closes a connection. -/
def SessionState.KeepsConnection (P : SessionState → Prop) : Prop :=
  ∀ (s : SessionState) host port buffer endpointHistory, P s →
    P { s with
      host := host
      port := port
      buffer := buffer
      endpointHistory := endpointHistory }

theorem keepsConnection_consistent :
    SessionState.KeepsConnection SessionState.Consistent := by
  intro s host port buffer endpointHistory consistent
  exact { consistent with }

theorem keepsConnection_tidy :
    SessionState.KeepsConnection SessionState.Tidy := by
  intro s host port buffer endpointHistory tidy
  exact { tidy with }

/-- `_on_discover` keeps what `_disconnect` and the first part of `_connect`
keep. -/
theorem onDiscover_keeps {P : SessionState → Prop}
    (keeps : SessionState.KeepsConnection P)
    (disconnects : ∀ s : SessionState, P s → P s.disconnect)
    (begins : ∀ s : SessionState, P s → P (s.beginConnect decimals))
    {s t : SessionState} (holds : P s) {answer : Option (Text × Text)}
    (next : s.onDiscover decimals answer = some t) : P t := by
  have disconnected : P (if s.rx.isSome = true then s.disconnect else s) := by
    split
    · exact disconnects s holds
    · exact holds
  cases answer with
  | none =>
      cases next
      exact disconnected
  | some answer =>
      rcases answer with ⟨comboText, name⟩
      cases parsed : parseEndpoint decimals comboText with
      | none =>
          rw [SessionState.onDiscover, parsed] at next
          cases next
      | some endpoint =>
          have stripped := parse_strip decimals comboText
          rw [parsed] at stripped
          simp only [SessionState.onDiscover, parsed, Option.bind_eq_bind,
            Option.bind_some, Option.pure_def, Option.some.injEq,
            pushEndpointHistory_eq (ne_nil_of_parse stripped)] at next
          subst next
          exact begins _ (keeps _ _ _ _ _ disconnected)

/-- Every handler keeps what the parts of `_connect`, `_disconnect` and the
edits keep. -/
theorem step_keeps {P : SessionState → Prop}
    (keeps : SessionState.KeepsConnection P)
    (disconnects : ∀ s : SessionState, P s → P s.disconnect)
    (begins : ∀ s : SessionState, P s → P (s.beginConnect decimals))
    {s t : SessionState} {action : SessionAction} (holds : P s)
    (resumes : ∀ outcome attempt pending, action = .resume outcome →
      P (SessionState.connect { s with pending := pending } attempt outcome))
    (next : s.step decimals action = some t) : P t := by
  cases action with
  | editHost | editPort | editBuffer =>
      cases next
      exact keeps s _ _ _ _ holds
  | toggleConnection =>
      cases next
      split
      · exact begins s holds
      · exact disconnects s holds
  | discover answer =>
      exact onDiscover_keeps keeps disconnects begins holds next
  | resume outcome =>
      cases waiting : s.pending with
      | nil => simp [SessionState.step, waiting] at next
      | cons attempt pending =>
          simp only [SessionState.step, waiting, Option.some.injEq] at next
          subst next
          exact resumes outcome attempt pending rfl
  | close =>
      cases next
      exact disconnects s holds

theorem SessionState.Consistent.step {s t : SessionState}
    {action : SessionAction} (consistent : s.Consistent)
    (next : s.step decimals action = some t) : t.Consistent := by
  apply step_keeps keepsConnection_consistent
    (fun _ consistent => consistent.disconnect)
    (fun _ consistent => consistent.beginConnect) consistent ?_ next
  intro outcome attempt pending _
  have waiting : SessionState.Consistent { s with pending := pending } :=
    { consistent with }
  exact waiting.connect attempt outcome

theorem SessionState.Tidy.step {s t : SessionState} {action : SessionAction}
    (tidy : s.Tidy) (consistent : s.Consistent)
    (alone : ConnectsAlone s action)
    (next : s.step decimals action = some t) : t.Tidy := by
  apply step_keeps keepsConnection_tidy (fun _ tidy => tidy.disconnect)
    (fun _ tidy => tidy.beginConnect) tidy ?_ next
  rintro outcome attempt pending rfl
  have waiting : SessionState.Tidy { s with pending := pending } :=
    { tidy with }
  exact waiting.connect { consistent with } alone

/-- A step that does not connect alone. -/
theorem not_tidy_step {s t : SessionState} {action : SessionAction}
    (consistent : s.Consistent) (notAlone : ¬ ConnectsAlone s action)
    (next : s.step decimals action = some t) : ¬ t.Tidy := by
  cases action with
  | editHost | editPort | editBuffer | toggleConnection | discover | close =>
      exact absurd trivial notAlone
  | resume outcome =>
      cases waiting : s.pending with
      | nil => simp [SessionState.step, waiting] at next
      | cons attempt pending =>
          simp only [SessionState.step, waiting, Option.some.injEq] at next
          subst next
          have kept : SessionState.Consistent { s with pending := pending } :=
            { consistent with }
          exact not_tidy_connect kept notAlone

/-- In every run of the handlers, nested ones included, the reader, the timer
and the button are those of the window's receiver.  Exactly when every
`_connect` goes on alone was `stop()` called on every other receiver that
connected and on every other reader in every state of the run, and then closing
the window calls it on the last ones.  A `_connect` that waits in
`processEvents` goes on after the window was closed, and its receiver is one
more. -/
theorem session_tidy_iff (decimals : Decimals)
    {schedule : List SessionAction} {s : SessionState}
    (run : Run (SessionState.step decimals) {} schedule s) :
    s.Consistent ∧
      (Meets (SessionState.step decimals) ConnectsAlone {} schedule ↔
        Visits (SessionState.step decimals) SessionState.Tidy {} schedule) ∧
      (Meets (SessionState.step decimals) ConnectsAlone {} schedule →
        s.disconnect.connected = [] ∧ s.disconnect.readers = []) := by
  have tidyStart : SessionState.Tidy {} := by
    constructor
    · intro rx connected
      cases connected
    · intro reader unstopped
      cases unstopped
    · intro reader current
      cases current
  have kept : ∀ (s : SessionState) action t, s.Consistent ∧ s.Tidy →
      ConnectsAlone s action → s.step decimals action = some t →
      t.Consistent ∧ t.Tidy := by
    intro s action t both alone next
    exact ⟨both.1.step next, both.2.step both.1 alone next⟩
  refine ⟨?_, ?_, ?_⟩
  · exact run.invariant (fun s action t consistent next =>
      SessionState.Consistent.step consistent next) consistent_session_start
  · exact run.meets_iff_visits (fun s both => both.2) kept
      (fun s action t both notAlone next =>
        not_tidy_step both.1 notAlone next)
      ⟨consistent_session_start, tidyStart⟩
  · intro alone
    have both := alone.invariant kept run ⟨consistent_session_start, tidyStart⟩
    exact both.2.stops

/-- A second click while the first `_connect` processes events. -/
def doubleClick : List SessionAction :=
  [.toggleConnection, .toggleConnection, .resume (.connected 2 false),
    .resume (.connected 2 false)]

/-- The first of the two receivers is dropped without `stop`. -/
theorem session_tidy_iff_doubleClick :
    Visits (SessionState.step asciiDecimals) SessionState.Tidy {}
        twoEndpoints ∧
      ¬ Visits (SessionState.step asciiDecimals) SessionState.Tidy {}
        doubleClick := by
  have once : Run (SessionState.step asciiDecimals) {} twoEndpoints
      twoEndpointsEnd := by
    decide +kernel
  cases twice : doubleClick.foldlM (SessionState.step asciiDecimals) {} with
  | none => exact absurd twice (by decide +kernel)
  | some s =>
      constructor
      · exact (session_tidy_iff asciiDecimals once).2.1.mp
          (by decide +kernel)
      · intro tidy
        have alone := (session_tidy_iff asciiDecimals twice).2.1.mpr tidy
        exact absurd alone (by decide +kernel)

end CycFlowPy.Viewer
