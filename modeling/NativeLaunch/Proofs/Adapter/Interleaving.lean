import Mathlib.Data.List.Induction
import NativeLaunch.Proofs.Adapter.Calls
import NativeLaunch.Proofs.Frames

/-!
# Interleavings of calls on one adapter

Any number of threads deliver events to one adapter, each as often as it likes, while the executor
runs jobs and the launcher comes back when they like.  This file defines:

* `Setting` and `configured` — the choices made before an adapter is in use, in order;
* `Hosted` — an adapter in use, with the calls in progress on it and what has happened;
* `Turn`, `Hosted.step` and `Hosted.run` — whose turn it is, what it does, and whole schedules.

The calls on the worker are those of `Worker.Shared`, step for step: whatever the adapter and its
host do, the worker goes through a schedule of its own (`Lawful.reachable`), so that all that holds
of every schedule of a worker holds here.
-/

namespace NativeLaunch
namespace Adapter

/-! ## Settings -/

/-- A choice made before the adapter is in use. -/
inductive Setting
  | programName (name : String)
  | extraArguments (arguments : List String)
deriving DecidableEq, Repr

def configure (adapter : Adapter) : Setting → Adapter
  | .programName name => adapter.withProgramName name
  | .extraArguments arguments => adapter.withExtraArguments arguments

/-- An adapter after all the choices, the earliest first. -/
def configured (host : PluginHost) (settings : List Setting) : Adapter :=
  settings.foldl configure (new host)

theorem worker_configured (host : PluginHost) (settings : List Setting) :
    (configured host settings).worker = none := by
  induction settings using List.reverseRecOn with
  | nil =>
      rfl
  | append_singleton settings last ih =>
      rw [configured, List.foldl_append]
      cases last <;> exact ih

/-! ## Schedules -/

/-- An adapter in use, the calls and jobs in progress, and the events so far, the latest first. -/
structure Hosted where
  cells : Cells
  frames : List (Nat × Stage) := []
  past : List Event := []

/-- Whose turn it is, and what for. -/
inductive Turn
  | call (thread : Nat) (call : Call)
  | advance (thread : Nat)
  | prepared (thread : Nat) (made : Bool)
  | answered (thread : Nat) (submission : Submission)
  | start (thread : Nat)
  | drop
  | comeBack (thread : Nat) (result : Except Failure ExitStatus)

namespace Hosted

/-- An adapter that no event has reached. -/
def new (host : PluginHost) (settings : List Setting) : Hosted :=
  { cells := { adapter := configured host settings } }

def stages (hosted : Hosted) : List Stage := hosted.frames.map Prod.snd

/-- How many of the events so far are of a kind. -/
def tally (hosted : Hosted) (kind : Event → Bool) : Nat := hosted.past.countP kind

/-- Whether a thread can begin a call or start a job: it has nothing to do, or is in code of the
host, which may do both. -/
def isFree (hosted : Hosted) (thread : Nat) : Bool :=
  match hosted.frames.lookup thread with
  | none => true
  | some .accept => true
  | some (.cancel _) => true
  | some (.release _) => true
  | some .job => Worker.latest? thread hosted.cells.calls = some .inside
  | some _ => false

/-- Whether a call holds the lock of the task. -/
def isLocked (hosted : Hosted) : Bool := hosted.stages.any Stage.isCancel

/-- A thread's latest call makes progress.  It goes to the front; only the order of calls of the
same thread matters. -/
def proceed (hosted : Hosted) (thread : Nat) (progress : Progress) : Hosted where
  cells := progress.cells
  frames := progress.next.toList.map (Prod.mk thread) ++
    hosted.frames.eraseP fun frame => thread == frame.1
  past := progress.events ++ hosted.past

/-- What a turn does. -/
def step (hosted : Hosted) : Turn → Hosted
  | .call thread call =>
    if hosted.isFree thread then
      { hosted with
        frames := (thread, call.first) :: hosted.frames
        past := .called thread call :: hosted.past }
    else hosted
  | .advance thread =>
    match hosted.frames.lookup thread with
    | some stage => hosted.proceed thread (stage.advance thread hosted.cells hosted.isLocked)
    | none => hosted
  | .prepared thread made =>
    match hosted.frames.lookup thread with
    | some .prepare => hosted.proceed thread (Adapter.prepared thread hosted.cells made)
    | _ => hosted
  | .answered thread submission =>
    match hosted.frames.lookup thread with
    | some .accept => hosted.proceed thread (Adapter.answered thread hosted.cells submission)
    | _ => hosted
  | .start thread =>
    if hosted.isFree thread && 0 < hosted.cells.jobs then
      { cells := hosted.cells.takeJob.work (.call thread .run)
        frames := (thread, .job) :: hosted.frames
        past := .started thread :: hosted.past }
    else hosted
  | .drop =>
    if 0 < hosted.cells.jobs then
      { hosted with cells := hosted.cells.takeJob, past := .dropped :: hosted.past }
    else hosted
  | .comeBack thread result =>
    match hosted.frames.lookup thread with
    | some .job =>
      hosted.proceed thread ⟨some .job, hosted.cells.work (.comeBack thread result), []⟩
    | _ => hosted

/-- What a schedule does. -/
def run (hosted : Hosted) (schedule : List Turn) : Hosted := schedule.foldl step hosted

@[simp] theorem run_nil (hosted : Hosted) : hosted.run [] = hosted := rfl

@[simp] theorem run_cons (hosted : Hosted) (turn : Turn) (schedule : List Turn) :
    hosted.run (turn :: schedule) = (hosted.step turn).run schedule := rfl

theorem run_append (hosted : Hosted) (first second : List Turn) :
    hosted.run (first ++ second) = (hosted.run first).run second :=
  List.foldl_append

theorem run_concat (hosted : Hosted) (schedule : List Turn) (turn : Turn) :
    hosted.run (schedule ++ [turn]) = (hosted.run schedule).step turn := by
  simp [run_append]

/-! ## One turn -/

/-- A turn does nothing, begins a call, starts or drops a job, or lets one call in progress take a
step. -/
inductive Stepped (before : Hosted) : Hosted → Prop
  | idle : Stepped before before
  | called (thread : Nat) (call : Call) :
      Stepped before
        { before with
          frames := (thread, call.first) :: before.frames
          past := .called thread call :: before.past }
  | started (thread : Nat) (handed : 0 < before.cells.jobs) :
      Stepped before
        { cells := before.cells.takeJob.work (.call thread .run)
          frames := (thread, .job) :: before.frames
          past := .started thread :: before.past }
  | dropped (handed : 0 < before.cells.jobs) :
      Stepped before
        { before with cells := before.cells.takeJob, past := .dropped :: before.past }
  | proceeded (thread : Nat) (stage : Stage) (progress : Progress) (rest : List (Nat × Stage))
      (perm : before.frames.Perm ((thread, stage) :: rest))
      (takes : stage.Takes thread before.cells progress) :
      Stepped before
        ⟨progress.cells, progress.next.toList.map (Prod.mk thread) ++ rest,
          progress.events ++ before.past⟩

theorem stepped_proceed {hosted : Hosted} {thread : Nat} {stage : Stage} {progress : Progress}
    (hlatest : hosted.frames.lookup thread = some stage)
    (htakes : stage.Takes thread hosted.cells progress) :
    Stepped hosted (hosted.proceed thread progress) :=
  .proceeded thread stage progress _ (perm_of_lookup hlatest) htakes

theorem stepped (hosted : Hosted) (turn : Turn) : Stepped hosted (hosted.step turn) := by
  -- A turn that nobody can take is idle; otherwise it is the step of the stage found.
  cases turn with
  | call thread call =>
      by_cases hfree : hosted.isFree thread = true
      · simpa [step, hfree] using Stepped.called thread call
      · simpa [step, hfree] using Stepped.idle
  | advance thread =>
      cases hlatest : hosted.frames.lookup thread with
      | none =>
          simpa [step, hlatest] using Stepped.idle
      | some stage =>
          simpa [step, hlatest] using
            stepped_proceed hlatest (stage.takes_advance thread hosted.cells hosted.isLocked)
  | prepared thread made =>
      by_cases hlatest : hosted.frames.lookup thread = some .prepare
      · simpa [step, hlatest] using stepped_proceed hlatest (.prepared made)
      · have hidle : hosted.step (.prepared thread made) = hosted := by
          unfold step
          split <;> simp_all
        rw [hidle]
        exact .idle
  | answered thread submission =>
      by_cases hlatest : hosted.frames.lookup thread = some .accept
      · cases submission with
        | accepted task =>
            simpa [step, hlatest] using stepped_proceed hlatest (.accepted task)
        | refused reason =>
            simpa [step, hlatest] using stepped_proceed hlatest (.refused reason)
      · have hidle : hosted.step (.answered thread submission) = hosted := by
          unfold step
          split <;> simp_all
        rw [hidle]
        exact .idle
  | start thread =>
      by_cases hready : (hosted.isFree thread && 0 < hosted.cells.jobs) = true
      · rw [Bool.and_eq_true, decide_eq_true_eq] at hready
        simpa [step, hready] using Stepped.started thread hready.2
      · simpa [step, hready] using Stepped.idle
  | drop =>
      by_cases hjobs : 0 < hosted.cells.jobs
      · simpa [step, hjobs] using Stepped.dropped hjobs
      · simpa [step, hjobs] using Stepped.idle
  | comeBack thread result =>
      by_cases hlatest : hosted.frames.lookup thread = some .job
      · simpa [step, hlatest] using stepped_proceed hlatest (.comeBack result)
      · have hidle : hosted.step (.comeBack thread result) = hosted := by
          unfold step
          split <;> simp_all
        rw [hidle]
        exact .idle

/-- What holds of a new adapter and is kept by every turn holds after every schedule. -/
theorem run_induction {motive : Hosted → Prop} (host : PluginHost) (settings : List Setting)
    (start : motive (new host settings))
    (turn : ∀ before after, Stepped before after → motive before → motive after)
    (schedule : List Turn) : motive ((new host settings).run schedule) := by
  induction schedule using List.reverseRecOn with
  | nil =>
      exact start
  | append_singleton schedule last ih =>
      rw [run_concat]
      exact turn _ _ (stepped _ last) ih

end Hosted
end Adapter
end NativeLaunch
