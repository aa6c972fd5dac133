/-
Module: CycFlowPy.Proofs.TcpServerCalls
Purpose: `is_running()` tells the truth after every call exactly when a server
  is started at most once, by a start that does not raise.
Trusted boundary: none
Main exports: startedOnce, running_truthful_iff
-/
import CycFlowPy.Model.TcpServer

namespace CycFlowPy.Server

open Runs

/-- The call goes through `start`. -/
def TcpServerCall.starts : TcpServerCall → Bool
  | .start _ | .enter _ => true
  | .stop | .exit => false

/-- The inner `start()` raises if this call reaches it. -/
def TcpServerCall.innerRaises : TcpServerCall → Bool
  | .start innerRaises | .enter innerRaises => innerRaises
  | .stop | .exit => false

/-- Either no call starts the server, or the first one that does not raise
inside and none starts it again after a stop that follows. -/
def startedOnce (calls : List TcpServerCall) : Bool :=
  match calls.dropWhile fun call => !call.starts with
  | [] => true
  | first :: rest =>
      !first.innerRaises &&
        (rest.dropWhile TcpServerCall.starts).all fun call => !call.starts

theorem perform_of_starts {call : TcpServerCall} (starts : call.starts = true)
    (s : TcpServer) : s.perform call = s.start call.innerRaises := by
  cases call with
  | start | enter => rfl
  | stop | exit => cases starts

theorem perform_of_stops {call : TcpServerCall} (stops : call.starts = false)
    (s : TcpServer) : s.perform call = s.stop := by
  cases call with
  | start | enter => cases stops
  | stop | exit => rfl

/-! ### The states a server is truthful in, besides `fresh` -/

/-- A server that was started and not stopped. -/
def serving : TcpServer := { running := true, joinable := true }

/-- A server that was started and stopped. -/
def closed : TcpServer := { workHeld := false, ioStopped := true }

/-- The first call of a sequence is judged by the state it leads to and by
its outcome. -/
theorem meets_cons_iff {s t : TcpServer} {call : TcpServerCall}
    {outcome : Outcome} (performed : s.perform call = (t, outcome))
    (rest : List TcpServerCall) :
    Meets TcpServer.step TruthfulCall s (call :: rest) ↔
      ((t.running = true ↔ t.Serves) ∧ (outcome = .raised → t = s)) ∧
        Meets TcpServer.step TruthfulCall t rest := by
  simp [Meets, TcpServer.step, TruthfulCall, performed]

/-- A closed server stays truthful as long as it is not started: its
io_context and its work guard are gone for good. -/
theorem meets_closed_iff (calls : List TcpServerCall) :
    Meets TcpServer.step TruthfulCall closed calls ↔
      calls.all (fun call => !call.starts) = true := by
  induction calls with
  | nil => simp [Meets]
  | cons call rest inductionHypothesis =>
      cases starts : call.starts with
      | true =>
          have untruthful : ¬ TruthfulCall closed call := by
            unfold TruthfulCall
            rw [perform_of_starts starts]
            cases call.innerRaises <;> decide
          simp [Meets, untruthful, starts]
      | false =>
          have unchanged : closed.perform call = (closed, .returned) := by
            rw [perform_of_stops starts]
            rfl
          rw [meets_cons_iff unchanged, inductionHypothesis]
          simp [starts, closed, TcpServer.Serves]

/-- A serving server stays truthful until its first stop, and is closed
then. -/
theorem meets_serving_iff (calls : List TcpServerCall) :
    Meets TcpServer.step TruthfulCall serving calls ↔
      ((calls.dropWhile TcpServerCall.starts).all
        fun call => !call.starts) = true := by
  induction calls with
  | nil => simp [Meets]
  | cons call rest inductionHypothesis =>
      cases starts : call.starts with
      | true =>
          have unchanged : serving.perform call = (serving, .returned) := by
            rw [perform_of_starts starts]
            rfl
          rw [meets_cons_iff unchanged, inductionHypothesis,
            List.dropWhile_cons_of_pos starts]
          simp [serving, TcpServer.Serves]
      | false =>
          have stopped : serving.perform call = (closed, .returned) := by
            rw [perform_of_stops starts]
            rfl
          rw [meets_cons_iff stopped, meets_closed_iff,
            List.dropWhile_cons_of_neg (by simp [starts])]
          simp [starts, closed, TcpServer.Serves]

/-- Every call of a sequence made on a new server leaves `is_running()`
truthful, and every one that raises leaves the server unchanged, if and only
if the server is started at most once, by a start that does not raise. -/
theorem running_truthful_iff (calls : List TcpServerCall) :
    Meets TcpServer.step TruthfulCall fresh calls ↔
      startedOnce calls = true := by
  induction calls with
  | nil => simp [Meets, startedOnce]
  | cons call rest inductionHypothesis =>
      cases starts : call.starts with
      | false =>
          have unchanged : fresh.perform call = (fresh, .returned) := by
            rw [perform_of_stops starts]
            rfl
          rw [meets_cons_iff unchanged, inductionHypothesis]
          simp [startedOnce, starts, fresh, TcpServer.Serves]
      | true =>
          have condition : startedOnce (call :: rest) =
              (!call.innerRaises && (rest.dropWhile TcpServerCall.starts).all
                fun other => !other.starts) := by
            simp [startedOnce, starts]
          rw [condition, Bool.and_eq_true, ← meets_serving_iff]
          cases raises : call.innerRaises with
          | true =>
              -- the flag was set before the inner start raised
              have untruthful : ¬ TruthfulCall fresh call := by
                unfold TruthfulCall
                rw [perform_of_starts starts, raises]
                decide
              simp [Meets, untruthful]
          | false =>
              have started : fresh.perform call = (serving, .returned) := by
                rw [perform_of_starts starts, raises]
                rfl
              rw [meets_cons_iff started]
              simp [serving, TcpServer.Serves]

/-- A start that raises leaves `is_running()` true without an I/O thread, and
a stopped server that is started again has an I/O thread that does not
serve. -/
theorem running_untruthful :
    ¬ Meets TcpServer.step TruthfulCall fresh [.start true] ∧
      ¬ Meets TcpServer.step TruthfulCall fresh
        [.start false, .stop, .start false] := by
  decide

end CycFlowPy.Server
