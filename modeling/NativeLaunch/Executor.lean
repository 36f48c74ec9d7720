/-!
# Executors

Where a plugin host runs work in the background.  An executor is known by how it treats a job that
is submitted to it: it runs the job on the spot or keeps it for later, it accepts with or without a
task in return, or it refuses in words.  The jobs it keeps are all alike, so their number says
everything about them.
-/

namespace NativeLaunch

/-- The answer to a submission. -/
inductive Submission
  /-- Accepted; there may be a task with which the job can be cancelled. -/
  | accepted (task : Bool)
  | refused (reason : String)
deriving DecidableEq, Repr

/-- How an executor treats a job, the jobs it keeps, and what it was asked to do so far. -/
structure Executor where
  answer : Submission
  /-- Whether a job is run before the submission is answered. -/
  runsInline : Bool := false
  /-- Whether cancelling a task takes a job back that is still kept. -/
  cancelDrops : Bool := false
  queued : Nat := 0
  submissions : Nat := 0
  cancellations : Nat := 0
deriving DecidableEq, Repr

namespace Executor

/-- Runs each job on a thread of its own and has no task to give back. -/
def thread : Executor := { answer := .accepted false }

/-- Keeps jobs until one of its threads is free; a task can take a job back until then. -/
def pool : Executor := { answer := .accepted true, cancelDrops := true }

/-- Whether a submitted job will run at all: it does unless it was refused before it could. -/
def takesJob (executor : Executor) : Bool :=
  match executor.answer with
  | .accepted _ => true
  | .refused _ => executor.runsInline

/-- Takes in a job.  One that is run on the spot counts as kept until it starts. -/
def submit (executor : Executor) : Submission × Executor :=
  (executor.answer,
    { executor with
      submissions := executor.submissions + 1
      queued := if executor.takesJob then executor.queued + 1 else executor.queued })

/-- Hands out the oldest job that is kept. -/
def takeJob? (executor : Executor) : Option Executor :=
  if executor.queued = 0 then none else some { executor with queued := executor.queued - 1 }

/-- Cancels a task.  A job that has started is not touched by this. -/
def cancel (executor : Executor) : Executor :=
  { executor with
    cancellations := executor.cancellations + 1
    queued := if executor.cancelDrops then executor.queued - 1 else executor.queued }

end Executor

end NativeLaunch
