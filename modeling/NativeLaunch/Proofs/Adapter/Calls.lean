import NativeLaunch.Adapter
import NativeLaunch.Proofs.Worker.Interleaving

/-!
# Calls on an adapter, step by step

A host may deliver its events at any time and from any thread, and the executor runs the job that it
was given when it likes.  What they see of each other is decided between indivisible steps: a look
at the cell of the worker or the write that fills it, a section under the lock of the task, the entry
into code of the host and the return from it, and each single step of the worker.  This file
defines:

* `Call` and `Answer` — the events of a host and what comes of them;
* `Cells` — what the calls share: the adapter, the calls on its worker, and the jobs handed over;
* `Stage` — where a call or a job stands, named for the step that it takes next;
* `Stage.advance` — that step, each being one of the functions of `Adapter` and `Worker`;
* `Stage.Takes` — the same as a relation, together with the steps that others decide: whether the
  data directory could be made, what the executor answers, and when a launch comes back.

The executor and the launcher are anything at all.  A job that was handed over can be started on any
thread that is free for it, once, at any time or never; a thread is free that has nothing to do, or
that is in code of the host.
-/

namespace NativeLaunch

/-- The answer with which a call on a worker ends. -/
def Worker.Event.answer? : Worker.Event → Option Worker.Answer
  | .returned _ answer => some answer
  | _ => none

namespace Adapter

/-! ## Calls -/

inductive Call
  | init
  | shutdown
deriving DecidableEq, Repr

inductive Answer
  | initialized (result : Except InitFault Unit)
  -- A shutdown tells its host nothing; whether it found a worker to stop is for the record.
  | shutDown (found : Bool)
  | ranJob

inductive Event
  | called (thread : Nat) (call : Call)
  | made (thread : Nat)
  | submitted (thread : Nat)
  | answered (thread : Nat) (submission : Submission)
  | started (thread : Nat)
  | dropped
  | cancelled (thread : Nat)
  | released (thread : Nat)
  | returned (thread : Nat) (answer : Answer)

namespace Event

def isMaking : Event → Bool
  | .made _ => true
  | _ => false

def isSubmission : Event → Bool
  | .submitted _ => true
  | _ => false

def isStart : Event → Bool
  | .started _ => true
  | _ => false

end Event

inductive Stage
  -- An init looks for a worker, has the data directory made, and makes a worker of its own.
  | look
  | prepare
  | make
  -- If it was the first, it marks the worker as scheduled and submits the job; then it keeps the
  -- task, or stops the worker because the job was refused.
  | mark
  | submit
  | accept
  | keep (task : Bool)
  | abandon (reason : String)
  -- A shutdown looks for a worker and stops it, takes the task and cancels it, and has the launcher
  -- clean up.
  | check
  | stop
  | take (found : Bool)
  | cancel (found : Bool)
  | release (found : Bool)
  -- The executor runs the worker.
  | job
deriving DecidableEq, Repr

def Stage.isCancel : Stage → Bool
  | .cancel _ => true
  | _ => false

def Call.first : Call → Stage
  | .init => .look
  | .shutdown => .check

/-- A call on the worker is in progress on the same thread, and it is that call that goes on. -/
def Stage.waits : Stage → Bool
  | .mark => true
  | .abandon _ => true
  | .stop => true
  | .job => true
  | _ => false

/-! ## Cells -/

/-- What the calls on an adapter share. -/
structure Cells where
  adapter : Adapter
  calls : List Worker.Frame := []
  past : List Worker.Event := []
  /-- Jobs handed over and not yet started or dropped. -/
  jobs : Nat := 0

namespace Cells

/-- The worker with the calls on it, once there is one. -/
def shared? (cells : Cells) : Option Worker.Shared :=
  cells.adapter.worker.map fun worker => ⟨worker, cells.calls, cells.past⟩

/-- Puts a worker and the calls on it in place. -/
def put (cells : Cells) (shared : Worker.Shared) : Cells :=
  { cells with
    adapter := { cells.adapter with worker := some shared.worker }
    calls := shared.calls
    past := shared.past }

/-- The worker takes a turn, if there is one. -/
def work (turn : Worker.Turn) (cells : Cells) : Cells :=
  match cells.shared? with
  | none => cells
  | some shared => cells.put (shared.step turn)

/-- What a thread's call on the worker is about to be answered, if its next step is the last. -/
def heard (thread : Nat) (cells : Cells) : Option Worker.Answer :=
  cells.shared?.bind fun shared =>
    (Worker.latest? thread shared.calls).bind fun stage =>
      (stage.advance thread shared.worker).events.findSome? Worker.Event.answer?

def setTask (task : Bool) (cells : Cells) : Cells :=
  { cells with adapter := { cells.adapter with task := task } }

def handJob (cells : Cells) : Cells := { cells with jobs := cells.jobs + 1 }

def takeJob (cells : Cells) : Cells := { cells with jobs := cells.jobs - 1 }

section Worker

variable (cells : Cells) (shared : Worker.Shared) (turn : Worker.Turn)

@[simp] theorem shared?_put : (cells.put shared).shared? = some shared := rfl

@[simp] theorem shared?_work : (cells.work turn).shared? = cells.shared?.map (·.step turn) := by
  unfold work
  cases hshared : cells.shared? with
  | none =>
      simp [hshared]
  | some shared =>
      simp

@[simp] theorem shared?_takeJob : cells.takeJob.shared? = cells.shared? := rfl

@[simp] theorem adapter_takeJob : cells.takeJob.adapter = cells.adapter := rfl

@[simp] theorem past_takeJob : cells.takeJob.past = cells.past := rfl

@[simp] theorem jobs_takeJob : cells.takeJob.jobs = cells.jobs - 1 := rfl

@[simp] theorem jobs_work : (cells.work turn).jobs = cells.jobs := by
  unfold work
  split <;> rfl

@[simp] theorem invocation_work :
    (cells.work turn).adapter.invocation = cells.adapter.invocation := by
  unfold work
  split <;> rfl

theorem shared?_eq_none_iff : cells.shared? = none ↔ cells.adapter.worker = none := by
  simp [shared?]

theorem past_of_shared? {cells : Cells} {shared : Worker.Shared} (h : cells.shared? = some shared) :
    shared.past = cells.past := by
  rcases Option.map_eq_some_iff.1 h with ⟨worker, _, rfl⟩
  rfl

end Worker

end Cells

/-! ## Steps -/

/-- What a step leads to, as for calls on a worker. -/
structure Progress where
  next : Option Stage
  cells : Cells
  events : List Event

def returns (thread : Nat) (answer : Answer) (cells : Cells) : Progress :=
  ⟨none, cells, [.returned thread answer]⟩

/-- What becomes of a call whose own call on the worker has been answered.  Each waits for one kind
of answer and gets no other. -/
def Stage.resume (thread : Nat) (cells : Cells) : Stage → Worker.Answer → Progress
  | .mark, .marked (.ok _) => ⟨some .submit, cells, []⟩
  | .mark, .marked (.error _) => returns thread (.initialized (.ok ())) cells
  | .abandon reason, .stopped _ => returns thread (.initialized (.error (.executor reason))) cells
  | .stop, .stopped _ => ⟨some (.take true), cells, []⟩
  | .job, .ran => returns thread .ranJob cells
  | stage, _ => ⟨some stage, cells, []⟩

/-- A call goes on when there is an answer. -/
def Stage.hear (thread : Nat) (cells : Cells) (stage : Stage) : Option Worker.Answer → Progress
  | some answer => stage.resume thread cells answer
  | none => ⟨some stage, cells, []⟩

/-- A call waits for its call on the worker, whose step it is. -/
def Stage.await (thread : Nat) (cells : Cells) (stage : Stage) : Progress :=
  stage.hear thread (cells.work (.advance thread)) (cells.heard thread)

/-- The step that a call takes by itself; `locked` says that another call holds the lock of the
task. -/
def Stage.advance (thread : Nat) (cells : Cells) (locked : Bool) : Stage → Progress
  | .look =>
    match cells.adapter.worker with
    | some _ => returns thread (.initialized (.ok ())) cells
    | none => ⟨some .prepare, cells, []⟩
  | .make =>
    match cells.adapter.makeWorker with
    | (true, adapter) =>
      ⟨some .mark, { cells with adapter := adapter }.work (.call thread .markScheduled),
        [.made thread]⟩
    | (false, _) => returns thread (.initialized (.ok ())) cells
  | .submit => ⟨some .accept, cells.handJob, [.submitted thread]⟩
  | .keep task =>
    if locked then ⟨some (.keep task), cells, []⟩
    else returns thread (.initialized (.ok ())) (cells.setTask task)
  | .check =>
    match cells.adapter.worker with
    | some _ => ⟨some .stop, cells.work (.call thread .stop), []⟩
    | none => ⟨some (.take false), cells, []⟩
  | .take found =>
    if locked then ⟨some (.take found), cells, []⟩
    -- The task is cancelled with the lock still held.
    else if cells.adapter.task then ⟨some (.cancel found), cells.setTask false, []⟩
    else ⟨some (.release found), cells, []⟩
  | .cancel found => ⟨some (.release found), cells, [.cancelled thread]⟩
  | .release found =>
    ⟨none, cells, [.returned thread (.shutDown found), .released thread]⟩
  | .prepare => ⟨some .prepare, cells, []⟩
  | .accept => ⟨some .accept, cells, []⟩
  | stage => stage.await thread cells

/-- The data directory is there, or it is not and could not be made. -/
def prepared (thread : Nat) (cells : Cells) (made : Bool) : Progress :=
  if made then ⟨some .make, cells, []⟩
  else
    returns thread
      (.initialized (.error (.dataDirectory cells.adapter.host.dataDirectory))) cells

/-- The executor answers a submission. -/
def answered (thread : Nat) (cells : Cells) : Submission → Progress
  | .accepted task => ⟨some (.keep task), cells, [.answered thread (.accepted task)]⟩
  | .refused reason =>
    ⟨some (.abandon reason), cells.work (.call thread .stop), [.answered thread (.refused reason)]⟩

/-! ## What a step can do -/

/-- The steps that are possible at a stage, one way each, with what allows it. -/
inductive Stage.Takes (thread : Nat) (cells : Cells) : Stage → Progress → Prop
  | wait (stage : Stage) : Takes thread cells stage ⟨some stage, cells, []⟩
  | lookFound (worker : Worker) (found : cells.adapter.worker = some worker) :
      Takes thread cells .look (returns thread (.initialized (.ok ())) cells)
  | look (empty : cells.adapter.worker = none) :
      Takes thread cells .look ⟨some .prepare, cells, []⟩
  | prepared (made : Bool) : Takes thread cells .prepare (Adapter.prepared thread cells made)
  | make (empty : cells.adapter.worker = none) :
      Takes thread cells .make
        ⟨some .mark,
          { cells with adapter := cells.adapter.makeWorker.2 }.work (.call thread .markScheduled),
          [.made thread]⟩
  | makeLate (worker : Worker) (found : cells.adapter.worker = some worker) :
      Takes thread cells .make (returns thread (.initialized (.ok ())) cells)
  -- The worker takes a step of the thread's call, which goes on.
  | workOn (stage : Stage) (waits : stage.waits = true) :
      Takes thread cells stage ⟨some stage, cells.work (.advance thread), []⟩
  | comeBack (result : Except Failure ExitStatus) :
      Takes thread cells .job ⟨some .job, cells.work (.comeBack thread result), []⟩
  -- The thread's call on the worker returns.
  | marked (heard : cells.heard thread = some (.marked (.ok ()))) :
      Takes thread cells .mark ⟨some .submit, cells.work (.advance thread), []⟩
  | markRefused (found : WorkerState) (heard : cells.heard thread = some (.marked (.error found))) :
      Takes thread cells .mark
        (returns thread (.initialized (.ok ())) (cells.work (.advance thread)))
  | abandoned (reason : String) (report : StopReport)
      (heard : cells.heard thread = some (.stopped report)) :
      Takes thread cells (.abandon reason)
        (returns thread (.initialized (.error (.executor reason)))
          (cells.work (.advance thread)))
  | stopped (report : StopReport) (heard : cells.heard thread = some (.stopped report)) :
      Takes thread cells .stop ⟨some (.take true), cells.work (.advance thread), []⟩
  | ran (heard : cells.heard thread = some .ran) :
      Takes thread cells .job (returns thread .ranJob (cells.work (.advance thread)))
  | submit :
      Takes thread cells .submit ⟨some .accept, cells.handJob, [.submitted thread]⟩
  | accepted (task : Bool) :
      Takes thread cells .accept (answered thread cells (.accepted task))
  | refused (reason : String) :
      Takes thread cells .accept (answered thread cells (.refused reason))
  | keep (task : Bool) :
      Takes thread cells (.keep task)
        (returns thread (.initialized (.ok ())) (cells.setTask task))
  | checkFound (worker : Worker) (found : cells.adapter.worker = some worker) :
      Takes thread cells .check ⟨some .stop, cells.work (.call thread .stop), []⟩
  | check (empty : cells.adapter.worker = none) :
      Takes thread cells .check ⟨some (.take false), cells, []⟩
  | takeTask (found : Bool) (kept : cells.adapter.task = true) :
      Takes thread cells (.take found) ⟨some (.cancel found), cells.setTask false, []⟩
  | take (found : Bool) (free : cells.adapter.task = false) :
      Takes thread cells (.take found) ⟨some (.release found), cells, []⟩
  | cancel (found : Bool) :
      Takes thread cells (.cancel found) ⟨some (.release found), cells, [.cancelled thread]⟩
  | release (found : Bool) :
      Takes thread cells (.release found)
        ⟨none, cells, [.returned thread (.shutDown found), .released thread]⟩

/-- Waiting for the worker is a step of it, and an answer if it was the last. -/
theorem Stage.takes_await (thread : Nat) (cells : Cells) {stage : Stage}
    (hwaits : stage.waits = true) : stage.Takes thread cells (stage.await thread cells) := by
  unfold Stage.await
  cases hheard : cells.heard thread with
  | none =>
      exact .workOn stage hwaits
  | some answer =>
      -- An answer that a stage does not wait for leaves it where it is.
      cases stage with
      | mark =>
          cases answer with
          | marked result =>
              cases result with
              | ok done =>
                  exact .marked hheard
              | error found =>
                  exact .markRefused found hheard
          | _ =>
              exact .workOn _ rfl
      | abandon reason =>
          cases answer with
          | stopped report =>
              exact .abandoned reason report hheard
          | _ =>
              exact .workOn _ rfl
      | stop =>
          cases answer with
          | stopped report =>
              exact .stopped report hheard
          | _ =>
              exact .workOn _ rfl
      | job =>
          cases answer with
          | ran =>
              exact .ran hheard
          | _ =>
              exact .workOn _ rfl
      | _ =>
          cases hwaits

theorem Stage.takes_advance (thread : Nat) (cells : Cells) (locked : Bool) (stage : Stage) :
    stage.Takes thread cells (stage.advance thread cells locked) := by
  cases stage with
  | look =>
      cases hworker : cells.adapter.worker with
      | none =>
          simpa [Stage.advance, hworker] using Stage.Takes.look hworker
      | some worker =>
          simpa [Stage.advance, hworker] using Stage.Takes.lookFound worker hworker
  | make =>
      cases hworker : cells.adapter.worker with
      | none =>
          simpa [Stage.advance, makeWorker, hworker] using Stage.Takes.make hworker
      | some worker =>
          simpa [Stage.advance, makeWorker, hworker] using Stage.Takes.makeLate worker hworker
  | keep task =>
      cases locked with
      | true =>
          exact .wait _
      | false =>
          exact .keep task
  | check =>
      cases hworker : cells.adapter.worker with
      | none =>
          simpa [Stage.advance, hworker] using Stage.Takes.check hworker
      | some worker =>
          simpa [Stage.advance, hworker] using Stage.Takes.checkFound worker hworker
  | take found =>
      cases locked with
      | true =>
          exact .wait _
      | false =>
          by_cases htask : cells.adapter.task = true
          · simpa [Stage.advance, htask] using Stage.Takes.takeTask found htask
          · simpa [Stage.advance, htask] using Stage.Takes.take found (by simpa using htask)
  | submit => exact .submit
  | cancel found => exact .cancel found
  | release found => exact .release found
  | prepare => exact .wait _
  | accept => exact .wait _
  | mark => exact Stage.takes_await thread cells rfl
  | abandon reason => exact Stage.takes_await thread cells rfl
  | stop => exact Stage.takes_await thread cells rfl
  | job => exact Stage.takes_await thread cells rfl

end Adapter
end NativeLaunch
