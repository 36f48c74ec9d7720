import NativeLaunch.Proofs.Worker.Interleaving

/-!
# Replaying the past

The cells of a worker are what its events made of them.  This file defines:

* `Event.act` — what an event does to the cells;
* `Event.conclusion?` — the outcome that an event records over any other.

Every step acts on the cells as its events do (`Stage.Takes.worker_eq`), so that the cells can be
read off the past: the flag is as the latest event that wrote it left it, and the outcome is that of
the latest conclusion, or skipped if there was none and some call skipped.
-/

namespace NativeLaunch
namespace Worker

namespace Event

/-- What an event does to the cells. -/
def act : Event → Worker → Worker
  | .moved _ _ _ target, worker => { worker with state := target }
  | .raised _, worker => worker.setActive true
  | .withdrew _, worker => worker.setActive false
  | .lowered _, worker => worker.setActive false
  | .counted _, worker => worker.countLaunch
  | .requested _, worker => worker.countStop
  | .skipped _, worker => worker.record .skipped false
  | .forwent _, worker => worker.record .skipped false
  | .concluded _ outcome, worker => worker.record outcome true
  | .called _ _, worker => worker
  | .entered _ _, worker => worker
  | .left _ _, worker => worker
  | .returned _ _, worker => worker

/-- The outcome that an event records over any other. -/
def conclusion? : Event → Option WorkerOutcome
  | .concluded _ outcome => some outcome
  | _ => none

theorem isConclusion_eq (event : Event) : event.isConclusion = event.conclusion?.isSome := by
  cases event <;> rfl

end Event

/-- A step acts on the cells as its events do. -/
theorem Stage.Takes.worker_eq {thread : Nat} {worker : Worker} {stage : Stage}
    {progress : Progress} (h : stage.Takes thread worker progress) :
    progress.worker = progress.events.foldr Event.act worker := by
  cases h with
  | wake notice =>
      cases notice <;> rfl
  | _ =>
      rfl

/-! ## Single cells -/

theorem nativeActive_act (event : Event) (worker : Worker) :
    (event.act worker).nativeActive =
      if event.writesFlag then event.isRaise else worker.nativeActive := by
  cases event <;>
    simp [Event.act, Event.writesFlag, Event.isRaise, Event.isWithdrawal, Event.isLowering]

/-- The flag is as the latest event that wrote it left it. -/
theorem nativeActive_replay (past : List Event) (worker : Worker) :
    (past.foldr Event.act worker).nativeActive =
      ((past.find? Event.writesFlag).map Event.isRaise).getD worker.nativeActive := by
  induction past with
  | nil =>
      rfl
  | cons event past ih =>
      rw [List.foldr_cons, nativeActive_act, ih]
      cases hwrites : event.writesFlag <;> simp [hwrites]

theorem outcome_act (event : Event) (worker : Worker) :
    (event.act worker).outcome =
      (event.conclusion?.or worker.outcome).or (if event.isSkip then some .skipped else none) := by
  cases event with
  | concluded thread outcome =>
      rfl
  | skipped thread =>
      cases hbefore : worker.outcome <;> simp [Event.act, Event.isSkip, record, hbefore,
        Event.conclusion?]
  | forwent thread =>
      cases hbefore : worker.outcome <;> simp [Event.act, Event.isSkip, record, hbefore,
        Event.conclusion?]
  | _ =>
      simp [Event.act, Event.conclusion?, Event.isSkip, setActive, countLaunch, countStop]

/-- The outcome is that of the latest conclusion; without one it is kept, and where there was none,
a skip shows. -/
theorem outcome_replay (past : List Event) (worker : Worker) :
    (past.foldr Event.act worker).outcome =
      ((past.findSome? Event.conclusion?).or worker.outcome).or
        (if past.any Event.isSkip then some .skipped else none) := by
  induction past with
  | nil =>
      simp
  | cons event past ih =>
      rw [List.foldr_cons, outcome_act, ih, List.any_cons]
      cases hconclusion : event.conclusion? with
      | some outcome =>
          simp [hconclusion]
      | none =>
          -- What is left is a law of three optional values.
          have hfind : (event :: past).findSome? Event.conclusion? =
              past.findSome? Event.conclusion? := by
            simp [hconclusion]
          rw [hfind]
          generalize past.findSome? Event.conclusion? = found
          generalize past.any Event.isSkip = skipped
          cases event.isSkip <;> cases found <;> cases worker.outcome <;> cases skipped <;> rfl

namespace Shared

/-! ## The past of a worker -/

theorem worker_step (shared : Shared) (turn : Turn) :
    (shared.step turn).worker = (shared.news turn).foldr Event.act shared.worker := by
  have hpast : (shared.step turn).past = shared.news turn ++ shared.past := past_step shared turn
  have hstep : Stepped shared (shared.step turn) := stepped shared turn
  generalize hafter : shared.step turn = after at hpast hstep
  cases hstep with
  | idle =>
      have hnone : shared.news turn = [] := List.self_eq_append_left.1 hpast
      rw [hnone]
      rfl
  | called thread call _ =>
      have hone : [.called thread call] = shared.news turn := List.append_cancel_right hpast
      rw [← hone]
      rfl
  | proceeded thread stage progress newer older _ _ htakes =>
      have hsame : progress.events = shared.news turn := List.append_cancel_right hpast
      rw [← hsame]
      exact htakes.worker_eq

/-- The cells are what the past made of those of a new worker. -/
theorem worker_run (invocation : Invocation) (schedule : List Turn) :
    ((new invocation).run schedule).worker =
      ((new invocation).run schedule).past.foldr Event.act (Worker.new invocation) := by
  induction schedule using List.reverseRecOn with
  | nil =>
      rfl
  | append_singleton schedule turn ih =>
      rw [run_concat, worker_step, past_step, List.foldr_append, ← ih]

theorem nativeActive_run (invocation : Invocation) (schedule : List Turn) :
    ((new invocation).run schedule).worker.nativeActive =
      ((((new invocation).run schedule).past.find? Event.writesFlag).map Event.isRaise).getD
        false := by
  rw [worker_run, nativeActive_replay]
  rfl

theorem outcome_run (invocation : Invocation) (schedule : List Turn) :
    ((new invocation).run schedule).worker.outcome =
      (((new invocation).run schedule).past.findSome? Event.conclusion?).or
        (if ((new invocation).run schedule).past.any Event.isSkip then some .skipped
          else none) := by
  rw [worker_run, outcome_replay]
  simp [Worker.new]

/-- The arguments of a worker are what it was made with. -/
theorem invocation_run (invocation : Invocation) (schedule : List Turn) :
    ((new invocation).run schedule).worker.invocation = invocation := by
  have hact : ∀ (event : Event) (worker : Worker),
      (event.act worker).invocation = worker.invocation := by
    intro event worker
    cases event with
    | skipped thread =>
        exact record_invocation ..
    | forwent thread =>
        exact record_invocation ..
    | concluded thread outcome =>
        exact record_invocation ..
    | _ =>
        rfl
  rw [worker_run]
  induction ((new invocation).run schedule).past with
  | nil =>
      rfl
  | cons event past ih =>
      rw [List.foldr_cons, hact, ih]

/-- Every entry into the launcher is with the arguments that the worker was made with. -/
theorem invocation_of_entered {invocation given : Invocation} {schedule : List Turn} {thread : Nat}
    (h : .entered thread given ∈ ((new invocation).run schedule).past) : given = invocation := by
  rcases exists_takes_of_mem_past h (by simp) with
    ⟨early, actor, stage, progress, _, _, htakes, hevent⟩
  cases htakes with
  | enter =>
      cases List.mem_singleton.1 hevent
      exact invocation_run invocation early
  | wake notice =>
      cases notice <;> simp [Notice.advance] at hevent
  | _ =>
      simp [comeBack] at hevent

end Shared

end Worker
end NativeLaunch
