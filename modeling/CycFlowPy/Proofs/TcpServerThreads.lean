/-
Module: CycFlowPy.Proofs.TcpServerThreads
Purpose: Concurrent calls of one server terminate the process only where an
  exchange of the running flag overtakes the call that made the one before.
Trusted boundary: none
Main exports: start_uninterrupted, stop_uninterrupted, ExchangeInOrder,
  Process.Orderly, calls_safe_until_overtaken
-/
import CycFlowPy.Model.TcpServerThreads

namespace CycFlowPy.Server

open Runs

variable {n : Nat}

@[simp] theorem Process.set_server (s : Process n) (t : Fin n)
    (server : TcpServer) (point : CallPoint) :
    (s.set t server point).server = server := rfl

@[simp] theorem Process.set_terminated (s : Process n) (t : Fin n)
    (server : TcpServer) (point : CallPoint) :
    (s.set t server point).terminated = s.terminated := rfl

theorem Process.set_point (s : Process n) (t u : Fin n)
    (server : TcpServer) (point : CallPoint) :
    (s.set t server point).point u = if u = t then point else s.point u :=
  Function.update_apply ..

@[simp] theorem Process.set_point_self (s : Process n) (t : Fin n)
    (server : TcpServer) (point : CallPoint) :
    (s.set t server point).point t = point :=
  Function.update_self ..

@[simp] theorem Process.set_set (s : Process n) (t : Fin n)
    (server server' : TcpServer) (point point' : CallPoint) :
    (s.set t server point).set t server' point' = s.set t server' point' := by
  simp [Process.set]

@[simp] theorem Process.set_same (s : Process n) (t : Fin n) :
    s.set t s.server (s.point t) = s := by
  simp [Process.set]

/-! ### A call that nobody interrupts is the call of the sequential server -/

/-- A statement that does not terminate the process is its effect on the
server and on the point of its thread. -/
theorem step_set {s : Process n} {t : Fin n} {server : TcpServer}
    {point : CallPoint} (notTerminated : s.terminated = false)
    (busy : point ≠ .idle)
    (harmless : point = .assignThread → server.joinable = false)
    (innerRaises : Bool) :
    (s.set t server point).step (.advance t innerRaises) =
      some (s.set t (point.advance innerRaises server).1
        (point.advance innerRaises server).2) := by
  have survives : decide (point = .assignThread ∧ server.joinable = true) =
      s.terminated := by
    rw [notTerminated, decide_eq_false_iff_not]
    rintro ⟨assigns, joinable⟩
    rw [harmless assigns] at joinable
    cases joinable
  simp only [Process.step, Process.set_point_self, Process.set_terminated,
    Process.set_server, Process.set_set]
  rw [whenever_of ⟨notTerminated, busy⟩, survives]
  rfl

/-- The statements of one thread, as many as it takes. -/
def alone (t : Fin n) (innerRaises : Bool) (count : Nat) :
    List (ProcessAction n) :=
  List.replicate count (.advance t innerRaises)

theorem start_uninterrupted {s : Process n} {t : Fin n}
    (notTerminated : s.terminated = false) (alive : s.alive = true)
    (idle : s.point t = .idle)
    (joined : s.server.running = false → s.server.joinable = false)
    (innerRaises : Bool) :
    ∃ count, Run Process.step s
      (.callStart t :: alone t innerRaises count)
      (s.set t (s.server.start innerRaises).1 .idle) := by
  have called : s.step (.callStart t) =
      some (s.set t s.server .startExchange) :=
    whenever_of ⟨notTerminated, alive, idle⟩ _
  cases running : s.server.running with
  | true =>
      refine ⟨1, ?_⟩
      simp [alone, called, step_set notTerminated, CallPoint.advance,
        TcpServer.start, running]
  | false =>
      have joined := joined running
      cases innerRaises with
      | true =>
          refine ⟨2, ?_⟩
          simp [alone, List.replicate, called, step_set notTerminated,
            CallPoint.advance, TcpServer.start, running]
      | false =>
          refine ⟨4, ?_⟩
          simp [alone, List.replicate, called, step_set notTerminated,
            CallPoint.advance, TcpServer.start, TcpServer.exchange, running,
            joined]

theorem stop_uninterrupted {s : Process n} {t : Fin n}
    (notTerminated : s.terminated = false) (alive : s.alive = true)
    (idle : s.point t = .idle) (innerRaises : Bool) :
    ∃ count, Run Process.step s
      (.callStop t :: alone t innerRaises count)
      (s.set t s.server.stop.1 .idle) := by
  have called : s.step (.callStop t) =
      some (s.set t s.server .stopExchange) :=
    whenever_of ⟨notTerminated, alive, idle⟩ _
  cases running : s.server.running with
  | false =>
      refine ⟨1, ?_⟩
      simp [alone, called, step_set notTerminated, CallPoint.advance,
        TcpServer.stop, running]
  | true =>
      cases joinable : s.server.joinable with
      | true =>
          refine ⟨5, ?_⟩
          simp [alone, List.replicate, called, step_set notTerminated,
            CallPoint.advance, TcpServer.stop, TcpServer.exchange,
            TcpServer.resetWork, TcpServer.stopIo, running, joinable]
      | false =>
          refine ⟨4, ?_⟩
          simp [alone, List.replicate, called, step_set notTerminated,
            CallPoint.advance, TcpServer.stop, TcpServer.exchange,
            TcpServer.resetWork, TcpServer.stopIo, running, joinable]

/-! ### Exchanges that do not overtake a call -/

/-- The thread has set the flag and not assigned its I/O thread yet. -/
def CallPoint.starting : CallPoint → Bool
  | .innerStart | .createThread | .assignThread => true
  | _ => false

/-- The thread has cleared the flag and not joined the I/O thread yet. -/
def CallPoint.stopping : CallPoint → Bool
  | .resetWork | .stopIo | .testJoinable | .join => true
  | _ => false

/-- An exchange that sets the flag finds the I/O thread joined, and one that
clears it finds no thread between setting it and the assignment. -/
def ExchangeInOrder (s : Process n) : ProcessAction n → Prop
  | .advance t _ =>
      match s.point t with
      | .startExchange =>
          s.server.running = false → s.server.joinable = false
      | .stopExchange =>
          s.server.running = true → ∀ u, (s.point u).starting = false
      | _ => True
  | _ => True

instance (s : Process n) (action : ProcessAction n) :
    Decidable (ExchangeInOrder s action) := by
  unfold ExchangeInOrder
  split
  · split <;> infer_instance
  · infer_instance

/-- What holds between two steps as long as the exchanges are in order. -/
structure Process.Orderly (s : Process n) : Prop where
  notTerminated : s.terminated = false
  starting : ∀ t, (s.point t).starting = true →
    s.server.running = true ∧ s.server.joinable = false
  atMostOne : ∀ t u, (s.point t).starting = true →
    (s.point u).starting = true → t = u
  stopping : s.server.joinable = true →
    s.server.running = true ∨ ∃ t, (s.point t).stopping = true
  closing : s.alive = false →
    (∀ t, s.point t ≠ .startExchange ∧ (s.point t).starting = false) ∧
      (s.server.running = false ∨ ∃ t, s.point t = .stopExchange)

theorem Process.Orderly.fresh : Process.Orderly ({} : Process n) where
  notTerminated := rfl
  starting := by
    intro t starts
    cases starts
  atMostOne := by
    intro t u starts
    cases starts
  stopping := by
    intro joinable
    cases joinable
  closing := by
    intro closed
    cases closed

/-- A thread that is starting is the only one. -/
theorem Process.Orderly.starting_alone {s : Process n} {t u : Fin n}
    (orderly : s.Orderly) (starts : (s.point t).starting = true)
    (other : u ≠ t) : (s.point u).starting = false := by
  by_contra starting
  rw [Bool.not_eq_false] at starting
  exact other (orderly.atMostOne u t starting starts)

/-- What a step of one thread has to show: the other threads stay where they
are. -/
theorem Process.Orderly.set {s : Process n} {t : Fin n} {server : TcpServer}
    {point : CallPoint} (orderly : s.Orderly)
    (starts : point.starting = true →
      server.running = true ∧ server.joinable = false ∧
        ∀ u, u ≠ t → (s.point u).starting = false)
    (others : ∀ u, u ≠ t → (s.point u).starting = true →
      server.running = true ∧ server.joinable = false)
    (joins : server.joinable = true →
      server.running = true ∨ point.stopping = true ∨
        ∃ u, u ≠ t ∧ (s.point u).stopping = true)
    (closes : s.alive = false →
      (point ≠ .startExchange ∧ point.starting = false) ∧
        (server.running = false ∨ ∃ u, u ≠ t ∧ s.point u = .stopExchange)) :
    (s.set t server point).Orderly := by
  constructor
  case notTerminated => exact orderly.notTerminated
  case starting =>
      intro u starting
      rw [Process.set_point] at starting
      split at starting
      · exact ⟨(starts starting).1, (starts starting).2.1⟩
      · exact others u ‹_› starting
  case atMostOne =>
      intro u v uStarts vStarts
      rw [Process.set_point] at uStarts vStarts
      split at uStarts <;> split at vStarts
      · rw [‹u = t›, ‹v = t›]
      · rw [(starts uStarts).2.2 v ‹_›] at vStarts
        cases vStarts
      · rw [(starts vStarts).2.2 u ‹_›] at uStarts
        cases uStarts
      · exact orderly.atMostOne u v uStarts vStarts
  case stopping =>
      intro joinable
      rcases joins joinable with running | stops | ⟨u, other, stops⟩
      · exact .inl running
      · exact .inr ⟨t, by rw [Process.set_point_self]; exact stops⟩
      · exact .inr ⟨u, by rw [Process.set_point, if_neg other]; exact stops⟩
  case closing =>
      intro closed
      rcases closes closed with ⟨begins, off⟩
      constructor
      · intro u
        rw [Process.set_point]
        split
        · exact begins
        · exact (orderly.closing closed).1 u
      · rcases off with notRunning | ⟨u, other, exchanges⟩
        · exact .inl notRunning
        · exact .inr ⟨u, by
            rw [Process.set_point, if_neg other]
            exact exchanges⟩

/-- A step that keeps the flag and the I/O thread, does not set out to start
and does not give up a join that is due. -/
theorem Process.Orderly.move {s : Process n} {t : Fin n} {server : TcpServer}
    {point : CallPoint} (orderly : s.Orderly)
    (running : server.running = s.server.running)
    (joinable : server.joinable = s.server.joinable)
    (begins : s.alive = false → point ≠ .startExchange)
    (starts : point.starting = true → (s.point t).starting = true)
    (stops : s.server.joinable = true → (s.point t).stopping = true →
      point.stopping = true)
    (exchanges : s.point t = .stopExchange → s.server.running = false) :
    (s.set t server point).Orderly := by
  apply orderly.set
  case starts =>
      intro starting
      rw [running, joinable]
      rcases orderly.starting t (starts starting) with ⟨on, joined⟩
      exact ⟨on, joined, fun _ => orderly.starting_alone (starts starting)⟩
  case others =>
      intro u _ starting
      rw [running, joinable]
      exact orderly.starting u starting
  case joins =>
      rw [running, joinable]
      intro unjoined
      rcases orderly.stopping unjoined with on | ⟨u, stopping⟩
      · exact .inl on
      · by_cases same : u = t
        · subst same
          exact .inr (.inl (stops unjoined stopping))
        · exact .inr (.inr ⟨u, same, stopping⟩)
  case closes =>
      intro closed
      rcases orderly.closing closed with ⟨none, off⟩
      constructor
      · refine ⟨begins closed, ?_⟩
        by_contra starting
        rw [Bool.not_eq_false] at starting
        have started := starts starting
        rw [(none t).2] at started
        cases started
      · rw [running]
        rcases off with notRunning | ⟨u, exchange⟩
        · exact .inl notRunning
        · by_cases same : u = t
          · subst same
            exact .inl (exchanges exchange)
          · exact .inr ⟨u, same, exchange⟩

/-- A call that begins is between no exchange and its end. -/
theorem Process.Orderly.call {s : Process n} {t : Fin n} {point : CallPoint}
    (orderly : s.Orderly) (alive : s.alive = true)
    (idle : s.point t = .idle)
    (begins : point = .startExchange ∨ point = .stopExchange) :
    (s.set t s.server point).Orderly := by
  apply orderly.move rfl rfl
  case begins =>
      intro closed
      rw [alive] at closed
      cases closed
  case starts =>
      intro starting
      rcases begins with rfl | rfl <;> cases starting
  case stops =>
      intro _ stopping
      rw [idle] at stopping
      cases stopping
  case exchanges =>
      intro exchange
      rw [idle] at exchange
      cases exchange

/-- The destructor enters `stop()` when no call is in progress. -/
theorem Process.Orderly.destroy {s : Process n} {t : Fin n}
    (orderly : s.Orderly) (idle : ∀ u, s.point u = .idle) :
    Process.Orderly
      { s.set t s.server .stopExchange with alive := false } := by
  have entered : (s.set t s.server .stopExchange).Orderly := by
    apply orderly.move rfl rfl
    case begins => exact fun _ => by decide
    case starts => exact fun starting => by cases starting
    case stops =>
        intro _ stopping
        rw [idle t] at stopping
        cases stopping
    case exchanges =>
        intro exchange
        rw [idle t] at exchange
        cases exchange
  refine { entered with closing := fun _ => ⟨fun u => ?_, .inr ⟨t, ?_⟩⟩ }
  · show (s.set t s.server .stopExchange).point u ≠ _ ∧ _
    rw [Process.set_point]
    split
    · decide
    · rw [idle u]
      decide
  · exact Process.set_point_self s t s.server .stopExchange

/-- When the destructor has returned from `stop()`, the I/O thread was
joined. -/
theorem Process.Orderly.joined {s : Process n} (orderly : s.Orderly)
    (closed : s.alive = false) (idle : ∀ u, s.point u = .idle) :
    s.server.joinable = false := by
  obtain ⟨_, _, _, stopping, closing⟩ := orderly
  have notRunning : s.server.running = false := by
    rcases (closing closed).2 with notRunning | ⟨u, exchanges⟩
    · exact notRunning
    · simp [idle u] at exchanges
  by_contra joinable
  rw [Bool.not_eq_false] at joinable
  rcases stopping joinable with running | ⟨u, stops⟩
  · rw [notRunning] at running
    cases running
  · simp [idle u, CallPoint.stopping] at stops

/-- A thread that sets the flag finds no I/O thread to be assigned over. -/
theorem Process.Orderly.startExchange {s : Process n} {t : Fin n}
    (orderly : s.Orderly) (before : s.point t = .startExchange)
    (notRunning : s.server.running = false)
    (joined : s.server.joinable = false) :
    (s.set t (s.server.exchange true) .innerStart).Orderly := by
  apply orderly.set
  case starts =>
      intro _
      refine ⟨rfl, joined, ?_⟩
      intro u _
      by_contra starting
      rw [Bool.not_eq_false] at starting
      have running := (orderly.starting u starting).1
      rw [notRunning] at running
      cases running
  case others => exact fun _ _ _ => ⟨rfl, joined⟩
  case joins => exact fun _ => .inl rfl
  case closes =>
      intro closed
      exact absurd before ((orderly.closing closed).1 t).1

/-- The thread that assigns the I/O thread is the only one starting. -/
theorem Process.Orderly.assignThread {s : Process n} {t : Fin n}
    (orderly : s.Orderly) (before : s.point t = .assignThread) :
    (s.set t s.server.assignThread .idle).Orderly := by
  have starts : (s.point t).starting = true := by
    rw [before]
    rfl
  apply orderly.set
  case starts => exact fun starting => by cases starting
  case others =>
      intro u other starting
      rw [orderly.starting_alone starts other] at starting
      cases starting
  case joins => exact fun _ => .inl (orderly.starting t starts).1
  case closes =>
      intro closed
      have none := ((orderly.closing closed).1 t).2
      rw [starts] at none
      cases none

/-- A thread that clears the flag is the one that joins. -/
theorem Process.Orderly.stopExchange {s : Process n} {t : Fin n}
    (orderly : s.Orderly)
    (alone : ∀ u, (s.point u).starting = false) :
    (s.set t (s.server.exchange false) .resetWork).Orderly := by
  apply orderly.set
  case starts => exact fun starting => by cases starting
  case others =>
      intro u _ starting
      rw [alone u] at starting
      cases starting
  case joins => exact fun _ => .inr (.inl rfl)
  case closes => exact fun _ => ⟨by decide, .inl rfl⟩

/-- A thread that joins leaves no I/O thread behind. -/
theorem Process.Orderly.join {s : Process n} {t : Fin n}
    (orderly : s.Orderly) (before : s.point t = .join) :
    (s.set t s.server.join .idle).Orderly := by
  apply orderly.set
  case starts => exact fun starting => by cases starting
  case others =>
      intro u _ starting
      exact ⟨(orderly.starting u starting).1, rfl⟩
  case joins => exact fun joinable => by cases joinable
  case closes =>
      intro closed
      refine ⟨by decide, ?_⟩
      rcases (orderly.closing closed).2 with notRunning | ⟨u, exchange⟩
      · exact .inl notRunning
      · refine .inr ⟨u, ?_, exchange⟩
        rintro rfl
        rw [before] at exchange
        cases exchange

/-- Every statement of a thread keeps the order, if its exchange does. -/
theorem Process.Orderly.advance {s : Process n} {t : Fin n}
    {innerRaises : Bool} (orderly : s.Orderly)
    (inOrder : ExchangeInOrder s (.advance t innerRaises))
    (busy : s.point t ≠ .idle) :
    (s.set t ((s.point t).advance innerRaises s.server).1
      ((s.point t).advance innerRaises s.server).2).Orderly := by
  cases before : s.point t with
  | idle => exact absurd before busy
  | startExchange =>
      simp only [ExchangeInOrder, before] at inOrder
      cases running : s.server.running with
      | true =>
          simp only [CallPoint.advance, running, if_true]
          apply orderly.move <;>
            simp [before, running, TcpServer.exchange, CallPoint.starting,
              CallPoint.stopping]
      | false =>
          simp only [CallPoint.advance, running]
          exact orderly.startExchange before running (inOrder running)
  | stopExchange =>
      simp only [ExchangeInOrder, before] at inOrder
      cases running : s.server.running with
      | true =>
          simp only [CallPoint.advance, running, if_true]
          exact orderly.stopExchange (inOrder running)
      | false =>
          simp only [CallPoint.advance, running]
          apply orderly.move <;>
            simp [before, running, TcpServer.exchange, CallPoint.starting,
              CallPoint.stopping]
  | assignThread => exact orderly.assignThread before
  | join => exact orderly.join before
  | innerStart =>
      apply orderly.move <;> cases innerRaises <;>
        simp [before, CallPoint.advance, CallPoint.starting,
          CallPoint.stopping]
  | testJoinable =>
      apply orderly.move <;> cases joinable : s.server.joinable <;>
        simp [before, joinable, CallPoint.advance, CallPoint.starting,
          CallPoint.stopping]
  | createThread | resetWork | stopIo =>
      apply orderly.move <;>
        simp [before, CallPoint.advance, TcpServer.resetWork,
          TcpServer.stopIo, CallPoint.starting, CallPoint.stopping]

/-- Nothing is assigned over a joinable I/O thread. -/
theorem Process.Orderly.harmless {s : Process n} {t : Fin n}
    (orderly : s.Orderly) :
    decide (s.point t = .assignThread ∧ s.server.joinable = true) =
      false := by
  rw [decide_eq_false_iff_not]
  rintro ⟨assigns, joinable⟩
  have starts : (s.point t).starting = true := by
    rw [assigns]
    rfl
  rw [(orderly.starting t starts).2] at joinable
  cases joinable

theorem Process.Orderly.step {s s' : Process n} {action : ProcessAction n}
    (orderly : s.Orderly) (inOrder : ExchangeInOrder s action)
    (next : s.step action = some s') : s'.Orderly := by
  cases action with
  | callStart t =>
      rcases whenever_eq_some.mp next with ⟨⟨_, alive, idle⟩, rfl⟩
      exact orderly.call alive idle (.inl rfl)
  | callStop t =>
      rcases whenever_eq_some.mp next with ⟨⟨_, alive, idle⟩, rfl⟩
      exact orderly.call alive idle (.inr rfl)
  | destroy t =>
      rcases whenever_eq_some.mp next with ⟨⟨_, _, idle⟩, rfl⟩
      exact orderly.destroy idle
  | advance t innerRaises =>
      rcases whenever_eq_some.mp next with ⟨⟨_, busy⟩, rfl⟩
      exact { orderly.advance inOrder busy with
        notTerminated := orderly.harmless }
  | destroyMembers =>
      rcases whenever_eq_some.mp next with ⟨⟨_, closed, _, idle⟩, rfl⟩
      exact { orderly with notTerminated := orderly.joined closed idle }

theorem Process.Orderly.run {s : Process n}
    {schedule : List (ProcessAction n)}
    (run : Run Process.step {} schedule s)
    (inOrder : Meets Process.step ExchangeInOrder {} schedule) : s.Orderly :=
  Meets.invariant (fun _ _ _ orderly inOrder next =>
    orderly.step inOrder next) run inOrder .fresh

/-! ### An exchange that overtakes a call lets the process terminate -/

/-- The process can go on to call `std::terminate`. -/
def Process.CanTerminate (s : Process n) : Prop :=
  ∃ schedule final, Run Process.step s schedule final ∧
    final.terminated = true

theorem Process.CanTerminate.of_run {s middle : Process n}
    {schedule : List (ProcessAction n)} (can : middle.CanTerminate)
    (run : Run Process.step s schedule middle) : s.CanTerminate := by
  rcases can with ⟨rest, final, tail, terminated⟩
  exact ⟨schedule ++ rest, final, run.append tail, terminated⟩

theorem canTerminate_of_assigning {s : Process n} {t : Fin n}
    (notTerminated : s.terminated = false)
    (assigns : s.point t = .assignThread)
    (joinable : s.server.joinable = true) : s.CanTerminate := by
  have enabled : s.terminated = false ∧ s.point t ≠ .idle := by
    simp [notTerminated, assigns]
  have next := whenever_of enabled
    { s.set t s.server.assignThread .idle with terminated := true }
  refine ⟨[.advance t false],
    { s.set t s.server.assignThread .idle with terminated := true }, ?_, rfl⟩
  simpa [Process.step, CallPoint.advance, assigns, joinable] using next

/-- A thread on its way to the assignment assigns over a joinable I/O
thread. -/
theorem canTerminate_of_starting {s : Process n} {t : Fin n}
    (notTerminated : s.terminated = false)
    (starts : (s.point t).starting = true)
    (joinable : s.server.joinable = true) : s.CanTerminate := by
  have assigned : (s.set t s.server .assignThread).CanTerminate := by
    apply canTerminate_of_assigning (t := t)
    · exact notTerminated
    · simp
    · exact joinable
  cases point : s.point t with
  | assignThread => exact canTerminate_of_assigning notTerminated point joinable
  | createThread =>
      have creates : Run Process.step s (alone t false 1)
          (s.set t s.server .assignThread) := by
        rw [← s.set_same t, point]
        simp [alone, step_set notTerminated, CallPoint.advance]
      exact assigned.of_run creates
  | innerStart =>
      have creates : Run Process.step s (alone t false 2)
          (s.set t s.server .assignThread) := by
        rw [← s.set_same t, point]
        simp [alone, List.replicate, step_set notTerminated,
          CallPoint.advance]
      exact assigned.of_run creates
  | idle | startExchange | stopExchange | resetWork | stopIo | testJoinable
  | join => simp [point, CallPoint.starting] at starts

/-- A start that overtakes the join of a stop assigns over the I/O thread
that is not joined yet. -/
theorem canTerminate_of_unjoined {s s' : Process n} {t : Fin n}
    {innerRaises : Bool} (notTerminated : s.terminated = false)
    (exchanges : s.point t = .startExchange)
    (notRunning : s.server.running = false)
    (joinable : s.server.joinable = true)
    (next : s.step (.advance t innerRaises) = some s') :
    s'.CanTerminate := by
  have performed : (s.set t s.server .startExchange).step
      (.advance t innerRaises) =
        some (s.set t (s.server.exchange true) .innerStart) := by
    simp [step_set notTerminated, CallPoint.advance, notRunning]
  rw [← s.set_same t, exchanges, performed] at next
  obtain rfl := Option.some.inj next
  apply canTerminate_of_starting (t := t)
  · exact notTerminated
  · simp [CallPoint.starting]
  · exact joinable

/-- A stop that overtakes the assignment of a start finds no thread to join;
the thread that stopped starts the server again before the assignment. -/
theorem canTerminate_of_unassigned {s s' : Process n} {t u : Fin n}
    {innerRaises : Bool} (orderly : s.Orderly)
    (exchanges : s.point t = .stopExchange)
    (running : s.server.running = true)
    (starts : (s.point u).starting = true)
    (next : s.step (.advance t innerRaises) = some s') :
    s'.CanTerminate := by
  have notTerminated := orderly.notTerminated
  have notJoinable : s.server.joinable = false := (orderly.starting u starts).2
  have alive : s.alive = true := by
    by_contra closed
    rw [Bool.not_eq_true] at closed
    rw [((orderly.closing closed).1 u).2] at starts
    cases starts
  have other : u ≠ t := by
    rintro rfl
    simp [exchanges, CallPoint.starting] at starts
  have performed : (s.set t s.server .stopExchange).step
      (.advance t innerRaises) =
        some (s.set t (s.server.exchange false) .resetWork) := by
    simp [step_set notTerminated, CallPoint.advance, running]
  rw [← s.set_same t, exchanges, performed] at next
  obtain rfl := Option.some.inj next
  let stopped := (s.server.exchange false).resetWork.stopIo
  have stops : Run Process.step
      (s.set t (s.server.exchange false) .resetWork)
      (alone t false 3) (s.set t stopped .idle) := by
    simp [alone, List.replicate, step_set notTerminated, CallPoint.advance,
      TcpServer.exchange, TcpServer.resetWork, TcpServer.stopIo, stopped,
      notJoinable]
  have idle : (s.set t stopped .idle).point t = .idle := by
    simp
  have survives : (s.set t stopped .idle).terminated = false := notTerminated
  rcases start_uninterrupted survives alive idle
      (fun _ => notJoinable) false with ⟨count, restarts⟩
  refine .of_run ?_ (stops.append restarts)
  apply canTerminate_of_starting (t := u)
  · exact notTerminated
  · simpa [Process.set_point, other] using starts
  · simp [stopped, TcpServer.start, TcpServer.exchange, TcpServer.resetWork,
      TcpServer.stopIo, TcpServer.assignThread]

theorem canTerminate_of_not_inOrder {s s' : Process n}
    {action : ProcessAction n} (orderly : s.Orderly)
    (overtakes : ¬ ExchangeInOrder s action)
    (next : s.step action = some s') : s'.CanTerminate := by
  cases action with
  | callStart | callStop | destroy | destroyMembers =>
      exact absurd trivial overtakes
  | advance t innerRaises =>
      simp only [ExchangeInOrder] at overtakes
      split at overtakes
      case h_1 exchanges =>
        simp only [Classical.not_imp, Bool.not_eq_false] at overtakes
        exact canTerminate_of_unjoined orderly.notTerminated exchanges
          overtakes.1 overtakes.2 next
      case h_2 exchanges =>
        simp only [Classical.not_imp, not_forall,
          Bool.not_eq_false] at overtakes
        rcases overtakes with ⟨running, u, starts⟩
        exact canTerminate_of_unassigned orderly exchanges running starts next
      case h_3 => exact absurd trivial overtakes

/-- A run of any number of threads never terminates the process as long as no
exchange of the running flag overtakes the start or the stop that made the
one before; the first exchange that does so lets the process terminate. -/
theorem calls_safe_until_overtaken {s : Process n}
    {schedule : List (ProcessAction n)}
    (run : Run Process.step {} schedule s)
    (inOrder : Meets Process.step ExchangeInOrder {} schedule) :
    s.terminated = false ∧
      ∀ action s', s.step action = some s' → ¬ ExchangeInOrder s action →
        s'.CanTerminate := by
  have orderly := Process.Orderly.run run inOrder
  constructor
  · exact orderly.notTerminated
  · intro action s' next overtakes
    exact canTerminate_of_not_inOrder orderly overtakes next

/-- Thread 1 calls `stop()` while thread 0 is inside `start()`, but clears the
flag only after the assignment. -/
def stopAfterStart : List (ProcessAction 2) :=
  .callStart 0 :: .callStop 1 :: alone 0 false 4

theorem calls_safe_until_overtaken_stopAfterStart :
    ∃ s, Run Process.step {} stopAfterStart s ∧ s.terminated = false := by
  have enabled : (stopAfterStart.foldlM Process.step {}).isSome = true := by
    decide
  have inOrder : Meets Process.step ExchangeInOrder {} stopAfterStart := by
    decide
  rcases Option.isSome_iff_exists.mp enabled with ⟨s, run⟩
  exact ⟨s, run, (calls_safe_until_overtaken run inOrder).1⟩

/-- Thread 1 stops the server and starts it again while thread 0 is between
the exchange and the inner start of its own `start()`. -/
def stopOvertakesStart : List (ProcessAction 2) :=
  [.callStart 0, .advance 0 false, .callStop 1] ++ alone 1 false 4 ++
    [.callStart 1] ++ alone 1 false 4 ++ alone 0 false 3

theorem calls_terminate :
    ¬ ∀ s, Reachable Process.step ({} : Process 2) s →
      s.terminated = false := by
  intro safe
  have terminates : (stopOvertakesStart.foldlM Process.step {}).any
      Process.terminated = true := by
    decide
  rcases (Option.any_eq_true ..).mp terminates with ⟨s, run, terminated⟩
  rw [safe s ⟨stopOvertakesStart, run⟩] at terminated
  cases terminated

end CycFlowPy.Server
