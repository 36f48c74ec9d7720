import NativeLaunch.Worker

/-!
# Calls on a worker, step by step

All who hold a worker may call it at the same time.  What one of them sees of another is decided
between indivisible steps: a section under the lock of the state, one access to an atomic cell, the
entry into the launcher and the return from it.  This file defines:

* `Call` and `Answer` — what holders ask of a worker and what they are told;
* `Stage` — where a call stands, each stage named for the indivisible step that it takes next;
* `Stage.advance` — that step: the stage after it, the cells after it, and the events it amounts
  to, each step being one of the functions of `Worker`;
* `Stage.Takes` — the same as a relation, one constructor a step, with the states that allow it.

After every change a call wakes those who wait for one.  That is a step of its own, which touches no
cell; `Notice` says what comes after it.  A return follows the last step of a call at once, since
nothing that others could see lies in between.
-/

namespace NativeLaunch
namespace Worker

/-! ## Calls -/

/-- What holders ask of a worker. -/
inductive Call
  | markScheduled
  | run
  | stop
deriving DecidableEq, Repr

/-- What they are told. -/
inductive Answer
  | marked (answer : Except WorkerState Unit)
  | ran
  | stopped (report : StopReport)

/-- What has happened to a worker.  Each event names the thread that it happened on. -/
inductive Event
  | called (thread : Nat) (call : Call)
  | moved (thread : Nat) (call : Call) (source target : WorkerState)
  -- Every run raises the flag.  It is taken down by a run that was refused, and by the run whose
  -- launch came back: two events, since the first may happen while another run is in the launcher.
  | raised (thread : Nat)
  | withdrew (thread : Nat)
  | lowered (thread : Nat)
  | counted (thread : Nat)
  | requested (thread : Nat)
  | entered (thread : Nat) (invocation : Invocation)
  | left (thread : Nat) (result : Except Failure ExitStatus)
  -- A refused run and a stop that came in time record that there is no call, each its own way.
  | skipped (thread : Nat)
  | forwent (thread : Nat)
  | concluded (thread : Nat) (outcome : WorkerOutcome)
  | returned (thread : Nat) (answer : Answer)

namespace Event

def isFirstMove : Event → Bool
  | .moved _ _ .notStarted _ => true
  | _ => false

def isMarking : Event → Bool
  | .moved _ _ .notStarted .scheduled => true
  | _ => false

/-- A run won the right to make the launch. -/
def isWin : Event → Bool
  | .moved _ _ _ .running => true
  | _ => false

/-- The worker was stopped before any run had won. -/
def isForestalling : Event → Bool
  | .moved _ _ .running .stopped => false
  | .moved _ _ _ .stopped => true
  | _ => false

/-- A stop came in time. -/
def isTimelyStop : Event → Bool
  | .moved _ .stop .running .stopped => false
  | .moved _ .stop _ .stopped => true
  | _ => false

/-- The worker was stopped after a run had won. -/
def isEnding : Event → Bool
  | .moved _ _ .running .stopped => true
  | _ => false

/-- Whether there will be a launch was decided, one way or the other. -/
def isDecision (event : Event) : Bool := event.isWin || event.isForestalling

def isRaise : Event → Bool
  | .raised _ => true
  | _ => false

def isWithdrawal : Event → Bool
  | .withdrew _ => true
  | _ => false

def isLowering : Event → Bool
  | .lowered _ => true
  | _ => false

def writesFlag (event : Event) : Bool := event.isRaise || event.isWithdrawal || event.isLowering

def isEntry : Event → Bool
  | .entered _ _ => true
  | _ => false

/-- The launcher was left with a result that amounts to an outcome. -/
def isExitWith (outcome : WorkerOutcome) : Event → Bool
  | .left _ result => .ofLaunch result = outcome
  | _ => false

def isExit : Event → Bool
  | .left _ _ => true
  | _ => false

def isConclusion : Event → Bool
  | .concluded _ _ => true
  | _ => false

def isConclusionWith (outcome : WorkerOutcome) : Event → Bool
  | .concluded _ recorded => recorded = outcome
  | _ => false

def isSkip : Event → Bool
  | .skipped _ => true
  | .forwent _ => true
  | _ => false

def isForgoing : Event → Bool
  | .forwent _ => true
  | _ => false

def isMarked : Event → Bool
  | .returned _ (.marked (.ok _)) => true
  | _ => false

/-- A stop reported that it came in time. -/
def isCancelled : Event → Bool
  | .returned _ (.stopped .cancelled) => true
  | _ => false

end Event

/-- The change that a call is about to announce to those who wait. -/
inductive Notice
  | scheduled
  | running
  | refusal
  | settled (outcome : WorkerOutcome)
  | conclusion
  -- A stop moved the state from running, or from before.
  | stopping
  | forestalled
  | cancellation
deriving DecidableEq, Repr

/-- Where a call stands: the step that it takes next. -/
inductive Stage
  | mark
  -- A run raises the flag and tries to move to running.  If it is refused, it lowers the flag
  -- again and records that it was skipped.
  | raise
  | start
  | withdraw
  | skip
  -- If it wins, it counts its launch and makes it; when that has come back, it lowers the flag,
  -- tries to move to stopped, and records how the launch ended.
  | count
  | enter
  | inside
  | lower (outcome : WorkerOutcome)
  | settle (outcome : WorkerOutcome)
  | conclude (outcome : WorkerOutcome)
  -- A stop counts itself and tries to move to stopped.  In time, it records that the call was
  -- skipped; too late, it reads the flag.
  | request
  | cancel
  | forgo
  | look
  | announce (notice : Notice)
deriving DecidableEq, Repr

namespace Stage

def isUncounted : Stage → Bool
  | .announce .running => true
  | .count => true
  | _ => false

/-- A run has won and not yet entered the launcher. -/
def isBeforeLaunch : Stage → Bool
  | .announce .running => true
  | .count => true
  | .enter => true
  | _ => false

def isInside (stage : Stage) : Bool := stage = .inside

/-- A run has won and has not come back from the launcher. -/
def isCommitted (stage : Stage) : Bool := stage.isBeforeLaunch || stage.isInside

/-- A run has raised the flag, and has neither won nor lowered it. -/
def isContending : Stage → Bool
  | .start => true
  | .withdraw => true
  | _ => false

def isLower : Stage → Bool
  | .lower _ => true
  | _ => false

/-- The outcome of a launch that came back, until it is recorded. -/
def outcome? : Stage → Option WorkerOutcome
  | .lower outcome => some outcome
  | .settle outcome => some outcome
  | .announce (.settled outcome) => some outcome
  | .conclude outcome => some outcome
  | _ => none

/-- A stop has come in time and not yet returned. -/
def isTimely : Stage → Bool
  | .announce .forestalled => true
  | .forgo => true
  | .announce .cancellation => true
  | _ => false

end Stage

/-- The stage at which a call begins. -/
def Call.first : Call → Stage
  | .markScheduled => .mark
  | .run => .raise
  | .stop => .request

/-! ## Cells

Each of these writes one cell and leaves the others alone. -/

section Cells

variable (worker : Worker) (active overwrite : Bool) (outcome : WorkerOutcome)

@[simp] theorem setActive_state : (worker.setActive active).state = worker.state := rfl

@[simp] theorem setActive_nativeActive : (worker.setActive active).nativeActive = active := rfl

@[simp] theorem setActive_launches : (worker.setActive active).launches = worker.launches := rfl

@[simp] theorem countStop_state : worker.countStop.state = worker.state := rfl

@[simp] theorem countStop_launches : worker.countStop.launches = worker.launches := rfl

@[simp] theorem countStop_nativeActive : worker.countStop.nativeActive = worker.nativeActive := rfl

@[simp] theorem countLaunch_state : worker.countLaunch.state = worker.state := rfl

@[simp] theorem countLaunch_launches : worker.countLaunch.launches = worker.launches + 1 := rfl

@[simp] theorem countLaunch_nativeActive :
    worker.countLaunch.nativeActive = worker.nativeActive := rfl

@[simp] theorem record_state : (worker.record outcome overwrite).state = worker.state := by
  unfold record
  split <;> rfl

@[simp] theorem record_launches : (worker.record outcome overwrite).launches = worker.launches := by
  unfold record
  split <;> rfl

@[simp] theorem record_nativeActive :
    (worker.record outcome overwrite).nativeActive = worker.nativeActive := by
  unfold record
  split <;> rfl

@[simp] theorem record_invocation :
    (worker.record outcome overwrite).invocation = worker.invocation := by
  unfold record
  split <;> rfl

@[simp] theorem record_stopRequests :
    (worker.record outcome overwrite).stopRequests = worker.stopRequests := by
  unfold record
  split <;> rfl

end Cells

/-! ## Steps -/

/-- What a step leads to: the next stage unless the call is over, the cells, and the events, the
latest first. -/
structure Progress where
  next : Option Stage
  worker : Worker
  events : List Event

/-- What a stop that came too late reports. -/
def lateReport (worker : Worker) : StopReport :=
  if worker.nativeActive then .nativeStillRunning else .alreadyStopped

/-- Wakes those who wait, and goes on. -/
def Notice.advance (thread : Nat) (worker : Worker) : Notice → Progress
  | .scheduled => ⟨none, worker, [.returned thread (.marked (.ok ()))]⟩
  | .running => ⟨some .count, worker, []⟩
  | .refusal => ⟨none, worker, [.returned thread .ran]⟩
  | .settled outcome => ⟨some (.conclude outcome), worker, []⟩
  | .conclusion => ⟨none, worker, [.returned thread .ran]⟩
  | .stopping => ⟨some .look, worker, []⟩
  | .forestalled => ⟨some .forgo, worker, []⟩
  | .cancellation => ⟨none, worker, [.returned thread (.stopped .cancelled)]⟩

/-- The step that a call takes by itself.  Inside the launcher there is none: see `comeBack`. -/
def Stage.advance (thread : Nat) (worker : Worker) : Stage → Progress
  | .mark =>
    match worker.move .scheduled with
    | (.ok source, moved) =>
      ⟨some (.announce .scheduled), moved, [.moved thread .markScheduled source .scheduled]⟩
    | (.error found, same) => ⟨none, same, [.returned thread (.marked (.error found))]⟩
  | .raise => ⟨some .start, worker.setActive true, [.raised thread]⟩
  | .start =>
    match worker.move .running with
    | (.ok source, moved) => ⟨some (.announce .running), moved, [.moved thread .run source .running]⟩
    | (.error _, same) => ⟨some .withdraw, same, []⟩
  | .withdraw => ⟨some .skip, worker.setActive false, [.withdrew thread]⟩
  | .skip => ⟨some (.announce .refusal), worker.record .skipped false, [.skipped thread]⟩
  | .count => ⟨some .enter, worker.countLaunch, [.counted thread]⟩
  | .enter => ⟨some .inside, worker, [.entered thread worker.invocation]⟩
  | .inside => ⟨some .inside, worker, []⟩
  | .lower outcome => ⟨some (.settle outcome), worker.setActive false, [.lowered thread]⟩
  | .settle outcome =>
    match worker.move .stopped with
    | (.ok source, moved) =>
      ⟨some (.announce (.settled outcome)), moved, [.moved thread .run source .stopped]⟩
    | (.error _, same) => ⟨some (.conclude outcome), same, []⟩
  | .conclude outcome =>
    ⟨some (.announce .conclusion), worker.record outcome true, [.concluded thread outcome]⟩
  | .request => ⟨some .cancel, worker.countStop, [.requested thread]⟩
  | .cancel =>
    match worker.move .stopped with
    | (.ok .running, moved) =>
      ⟨some (.announce .stopping), moved, [.moved thread .stop .running .stopped]⟩
    | (.ok source, moved) =>
      ⟨some (.announce .forestalled), moved, [.moved thread .stop source .stopped]⟩
    | (.error _, same) => ⟨some .look, same, []⟩
  | .forgo => ⟨some (.announce .cancellation), worker.record .skipped false, [.forwent thread]⟩
  | .look => ⟨none, worker, [.returned thread (.stopped worker.lateReport)]⟩
  | .announce notice => notice.advance thread worker

/-- The launch of a call comes back with a result. -/
def comeBack (thread : Nat) (worker : Worker) (result : Except Failure ExitStatus) : Progress :=
  ⟨some (.lower (.ofLaunch result)), worker, [.left thread result]⟩

/-! ## What a step can do -/

/-- The steps that a call can take at a stage, one way each, with the states that allow it. -/
inductive Stage.Takes (thread : Nat) (worker : Worker) : Stage → Progress → Prop
  | mark (free : worker.state = .notStarted) :
      Takes thread worker .mark
        ⟨some (.announce .scheduled), { worker with state := .scheduled },
          [.moved thread .markScheduled .notStarted .scheduled]⟩
  | markRefused (taken : worker.state ≠ .notStarted) :
      Takes thread worker .mark
        ⟨none, worker, [.returned thread (.marked (.error worker.state))]⟩
  | raise :
      Takes thread worker .raise ⟨some .start, worker.setActive true, [.raised thread]⟩
  | start (ready : worker.state = .scheduled) :
      Takes thread worker .start
        ⟨some (.announce .running), { worker with state := .running },
          [.moved thread .run .scheduled .running]⟩
  | startRefused (unready : worker.state ≠ .scheduled) :
      Takes thread worker .start ⟨some .withdraw, worker, []⟩
  | withdraw :
      Takes thread worker .withdraw ⟨some .skip, worker.setActive false, [.withdrew thread]⟩
  | skip :
      Takes thread worker .skip
        ⟨some (.announce .refusal), worker.record .skipped false, [.skipped thread]⟩
  | count :
      Takes thread worker .count ⟨some .enter, worker.countLaunch, [.counted thread]⟩
  | enter :
      Takes thread worker .enter
        ⟨some .inside, worker, [.entered thread worker.invocation]⟩
  | wait :
      Takes thread worker .inside ⟨some .inside, worker, []⟩
  | comeBack (result : Except Failure ExitStatus) :
      Takes thread worker .inside (worker.comeBack thread result)
  | lower (outcome : WorkerOutcome) :
      Takes thread worker (.lower outcome)
        ⟨some (.settle outcome), worker.setActive false, [.lowered thread]⟩
  | settle (outcome : WorkerOutcome) (going : worker.state ≠ .stopped) :
      Takes thread worker (.settle outcome)
        ⟨some (.announce (.settled outcome)), { worker with state := .stopped },
          [.moved thread .run worker.state .stopped]⟩
  | settleRefused (outcome : WorkerOutcome) (stopped : worker.state = .stopped) :
      Takes thread worker (.settle outcome) ⟨some (.conclude outcome), worker, []⟩
  | conclude (outcome : WorkerOutcome) :
      Takes thread worker (.conclude outcome)
        ⟨some (.announce .conclusion), worker.record outcome true,
          [.concluded thread outcome]⟩
  | request :
      Takes thread worker .request ⟨some .cancel, worker.countStop, [.requested thread]⟩
  | stopRunning (running : worker.state = .running) :
      Takes thread worker .cancel
        ⟨some (.announce .stopping), { worker with state := .stopped },
          [.moved thread .stop .running .stopped]⟩
  | forestall (early : worker.state = .notStarted ∨ worker.state = .scheduled) :
      Takes thread worker .cancel
        ⟨some (.announce .forestalled), { worker with state := .stopped },
          [.moved thread .stop worker.state .stopped]⟩
  | stopRefused (stopped : worker.state = .stopped) :
      Takes thread worker .cancel ⟨some .look, worker, []⟩
  | forgo :
      Takes thread worker .forgo
        ⟨some (.announce .cancellation), worker.record .skipped false, [.forwent thread]⟩
  | look :
      Takes thread worker .look
        ⟨none, worker, [.returned thread (.stopped worker.lateReport)]⟩
  | wake (notice : Notice) :
      Takes thread worker (.announce notice) (notice.advance thread worker)

theorem Stage.takes_advance (thread : Nat) (worker : Worker) (stage : Stage) :
    stage.Takes thread worker (stage.advance thread worker) := by
  -- The stages that try to move the state split on whether it lets them; the others have one way.
  cases stage with
  | mark =>
      by_cases hfree : worker.state = .notStarted
      · simpa [Stage.advance, move, hfree, WorkerState.canMoveTo] using Stage.Takes.mark hfree
      · have hrefused : worker.state.canMoveTo .scheduled = false := by
          cases hstate : worker.state <;> simp_all [WorkerState.canMoveTo]
        simpa [Stage.advance, move, hrefused] using Stage.Takes.markRefused hfree
  | start =>
      by_cases hready : worker.state = .scheduled
      · simpa [Stage.advance, move, hready, WorkerState.canMoveTo] using Stage.Takes.start hready
      · have hrefused : worker.state.canMoveTo .running = false := by
          cases hstate : worker.state <;> simp_all [WorkerState.canMoveTo]
        simpa [Stage.advance, move, hrefused] using Stage.Takes.startRefused hready
  | settle outcome =>
      by_cases hover : worker.state = .stopped
      · simpa [Stage.advance, move, hover, WorkerState.canMoveTo] using
          Stage.Takes.settleRefused outcome hover
      · have hallowed : worker.state.canMoveTo .stopped = true := by
          cases hstate : worker.state <;> simp_all [WorkerState.canMoveTo]
        simpa [Stage.advance, move, hallowed] using Stage.Takes.settle outcome hover
  | cancel =>
      cases hstate : worker.state with
      | notStarted =>
          simpa [Stage.advance, move, hstate, WorkerState.canMoveTo] using
            Stage.Takes.forestall (.inl hstate)
      | scheduled =>
          simpa [Stage.advance, move, hstate, WorkerState.canMoveTo] using
            Stage.Takes.forestall (.inr hstate)
      | running =>
          simpa [Stage.advance, move, hstate, WorkerState.canMoveTo] using
            Stage.Takes.stopRunning hstate
      | stopped =>
          simpa [Stage.advance, move, hstate, WorkerState.canMoveTo] using
            Stage.Takes.stopRefused hstate
  | raise => exact .raise
  | withdraw => exact .withdraw
  | skip => exact .skip
  | count => exact .count
  | enter => exact .enter
  | inside => exact .wait
  | lower outcome => exact .lower outcome
  | conclude outcome => exact .conclude outcome
  | request => exact .request
  | forgo => exact .forgo
  | look => exact .look
  | announce notice => exact .wake notice

end Worker
end NativeLaunch
