import NativeLaunch.Failure
import NativeLaunch.Invocation

/-!
# Workers

A worker owns one native call.  Its state only moves forward, from not started through scheduled
and running to stopped, and a stop is a request: it wins before the call starts, and after that the
call ends by itself.  This file defines:

* `WorkerState` with the edges it allows;
* `Worker` — the cells that all holders of one worker share, with one function for each access
  that happens in one indivisible step;
* `Worker.markScheduled`, `Worker.stop`, and a run in its two halves `Worker.begin` and
  `Worker.finish`, between which the native call takes place.

A run raises the activity flag before it competes for the running state, so that whoever sees the
state running also sees the flag; a run that loses lowers the flag again.
-/

namespace NativeLaunch

/-- Where the single call of a worker stands. -/
inductive WorkerState
  | notStarted
  | scheduled
  | running
  | stopped
deriving DecidableEq, Repr, Inhabited

namespace WorkerState

/-- The allowed edges. -/
def canMoveTo : WorkerState → WorkerState → Bool
  | .notStarted, .scheduled => true
  | .notStarted, .stopped => true
  | .scheduled, .running => true
  | .scheduled, .stopped => true
  | .running, .stopped => true
  | _, _ => false

/-- The state in words. -/
def display : WorkerState → String
  | .notStarted => "not started"
  | .scheduled => "scheduled"
  | .running => "running"
  | .stopped => "stopped"

end WorkerState

/-- What a stop achieved. -/
inductive StopReport
  /-- The call had not started and never will. -/
  | cancelled
  /-- The worker is stopped and its call goes on until it returns by itself. -/
  | nativeStillRunning
  /-- The worker was stopped already and no call is in progress. -/
  | alreadyStopped
deriving DecidableEq, Repr

/-- How the call of a worker ended. -/
inductive WorkerOutcome
  | exited (status : ExitStatus)
  | bridgeFailed (message : String)
  /-- Stopped before the call started. -/
  | skipped
deriving DecidableEq, Repr

/-- The outcome that a launch's result amounts to. -/
def WorkerOutcome.ofLaunch : Except Failure ExitStatus → WorkerOutcome
  | .ok status => .exited status
  | .error failure => .bridgeFailed failure.message

/-- The cells of a worker, shared by all who hold it, and the arguments of its call. -/
structure Worker where
  invocation : Invocation
  state : WorkerState := .notStarted
  nativeActive : Bool := false
  stopRequests : Nat := 0
  launches : Nat := 0
  outcome : Option WorkerOutcome := none
deriving DecidableEq, Repr

namespace Worker

/-- A worker whose call has not been handed to anyone. -/
def new (invocation : Invocation) : Worker := { invocation := invocation }

/-! ## Indivisible steps -/

/-- Moves along an edge, answering the state left behind; a missing edge is refused with the
state found. -/
def move (next : WorkerState) (worker : Worker) : Except WorkerState WorkerState × Worker :=
  if worker.state.canMoveTo next then
    (.ok worker.state, { worker with state := next })
  else
    (.error worker.state, worker)

/-- Sets the activity flag. -/
def setActive (active : Bool) (worker : Worker) : Worker :=
  { worker with nativeActive := active }

/-- Counts a stop request. -/
def countStop (worker : Worker) : Worker :=
  { worker with stopRequests := worker.stopRequests + 1 }

/-- Counts an entry into the launcher. -/
def countLaunch (worker : Worker) : Worker :=
  { worker with launches := worker.launches + 1 }

/-- Records an outcome, over an earlier one only if told so. -/
def record (outcome : WorkerOutcome) (overwrite : Bool) (worker : Worker) : Worker :=
  if overwrite || worker.outcome.isNone then { worker with outcome := some outcome } else worker

/-! ## Calls -/

/-- Notes that the call was handed to an executor; refused with the state found unless the worker
is new. -/
def markScheduled (worker : Worker) : Except WorkerState Unit × Worker :=
  match worker.move .scheduled with
  | (.ok _, moved) => (.ok (), moved)
  | (.error found, same) => (.error found, same)

/-- The half of a run before the native call: whether the call is to be made.  A run that comes
too early or too late is skipped. -/
def begin (worker : Worker) : Bool × Worker :=
  match (worker.setActive true).move .running with
  | (.ok _, moved) => (true, moved.countLaunch)
  | (.error _, raised) => (false, (raised.setActive false).record .skipped false)

/-- The half of a run after the native call.  The outcome of the call replaces any other. -/
def finish (outcome : WorkerOutcome) (worker : Worker) : Worker :=
  ((worker.setActive false).move .stopped).2.record outcome true

/-- Requests a stop. -/
def stop (worker : Worker) : StopReport × Worker :=
  match worker.countStop.move .stopped with
  | (.ok .running, moved) =>
    (if moved.nativeActive then .nativeStillRunning else .alreadyStopped, moved)
  | (.ok _, moved) => (.cancelled, moved.record .skipped false)
  | (.error _, counted) =>
    (if counted.nativeActive then .nativeStillRunning else .alreadyStopped, counted)

/-- A whole run over a launch that does not touch the worker. -/
def run (launch : Invocation → Except Failure ExitStatus) (worker : Worker) : Worker :=
  match worker.begin with
  | (true, running) => running.finish (.ofLaunch (launch running.invocation))
  | (false, skipped) => skipped

end Worker

end NativeLaunch
