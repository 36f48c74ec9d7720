import Mathlib.Data.List.Chain
import NativeLaunch.Proofs.Worker.Interleaving

/-!
# The states of a worker, in order

Whatever the calls on a worker do, its state moves forward along the allowed edges, each move being
an event.  This file defines:

* the order of states, from not started through scheduled and running to stopped;
* `Shared.trail` — the states taken so far, the latest first.

What one step can do to the state is said once, in `Stage.Takes.moves`; the rest follows from it.
-/

namespace NativeLaunch

namespace WorkerState

/-- How far a worker has come. -/
def rank : WorkerState → Nat
  | .notStarted => 0
  | .scheduled => 1
  | .running => 2
  | .stopped => 3

instance : LT WorkerState := ⟨fun earlier later => earlier.rank < later.rank⟩

instance : LE WorkerState := ⟨fun earlier later => earlier.rank ≤ later.rank⟩

theorem lt_iff {earlier later : WorkerState} : earlier < later ↔ earlier.rank < later.rank :=
  Iff.rfl

theorem le_iff {earlier later : WorkerState} : earlier ≤ later ↔ earlier.rank ≤ later.rank :=
  Iff.rfl

/-- Every allowed edge goes forward. -/
theorem lt_of_canMoveTo {source target : WorkerState} (h : source.canMoveTo target = true) :
    source < target := by
  cases source <;> cases target <;> simp_all [canMoveTo, lt_iff, rank]

theorem eq_scheduled_of_canMoveTo_running {source : WorkerState}
    (h : source.canMoveTo .running = true) : source = .scheduled := by
  cases source <;> simp_all [canMoveTo]

theorem eq_stopped_of_le {state : WorkerState} (h : .stopped ≤ state) : state = .stopped := by
  cases state <;> simp_all [le_iff, rank]

end WorkerState

namespace Worker

/-- The state that an event enters. -/
def Event.target? : Event → Option WorkerState
  | .moved _ _ _ target => some target
  | _ => none

/-- A step leaves the state alone, or moves it along an allowed edge and says so. -/
theorem Stage.Takes.moves {thread : Nat} {worker : Worker} {stage : Stage} {progress : Progress}
    (h : stage.Takes thread worker progress) :
    (progress.worker.state = worker.state ∧ progress.events.filterMap Event.target? = []) ∨
      ∃ call target, worker.state.canMoveTo target = true ∧ progress.worker.state = target ∧
        progress.events = [.moved thread call worker.state target] := by
  cases h with
  | mark hfree =>
      exact .inr ⟨.markScheduled, .scheduled, by simp [hfree, WorkerState.canMoveTo], rfl,
        by rw [hfree]⟩
  | start hready =>
      exact .inr ⟨.run, .running, by simp [hready, WorkerState.canMoveTo], rfl, by rw [hready]⟩
  | settle outcome hgoing =>
      have hedge : worker.state.canMoveTo .stopped = true := by
        cases hstate : worker.state <;> simp_all [WorkerState.canMoveTo]
      exact .inr ⟨.run, .stopped, hedge, rfl, rfl⟩
  | stopRunning hrunning =>
      exact .inr ⟨.stop, .stopped, by simp [hrunning, WorkerState.canMoveTo], rfl, by rw [hrunning]⟩
  | forestall hearly =>
      have hedge : worker.state.canMoveTo .stopped = true := by
        rcases hearly with hstate | hstate <;> simp [hstate, WorkerState.canMoveTo]
      exact .inr ⟨.stop, .stopped, hedge, rfl, rfl⟩
  | wake notice =>
      cases notice <;> exact .inl ⟨rfl, rfl⟩
  | skip =>
      exact .inl ⟨record_state .., rfl⟩
  | forgo =>
      exact .inl ⟨record_state .., rfl⟩
  | conclude outcome =>
      exact .inl ⟨record_state .., rfl⟩
  | _ =>
      exact .inl ⟨rfl, rfl⟩

namespace Shared

/-- The states that a worker has taken so far, the latest first. -/
def trail (shared : Shared) : List WorkerState :=
  shared.past.filterMap Event.target? ++ [.notStarted]

/-- A turn leaves the state and the trail alone, or extends the trail along an allowed edge. -/
theorem Stepped.moves {before after : Shared} (h : Stepped before after) :
    (after.worker.state = before.worker.state ∧ after.trail = before.trail) ∨
      (before.worker.state.canMoveTo after.worker.state = true ∧
        after.trail = after.worker.state :: before.trail) := by
  cases h with
  | idle =>
      exact .inl ⟨rfl, rfl⟩
  | called thread call _ =>
      exact .inl ⟨rfl, rfl⟩
  | proceeded thread stage progress newer older _ _ htakes =>
      rcases htakes.moves with ⟨hstate, hnone⟩ | ⟨call, target, hedge, hstate, hevents⟩
      · exact .inl ⟨hstate, by simp [trail, hnone]⟩
      · refine .inr ⟨by rw [hstate]; exact hedge, ?_⟩
        simp [trail, hevents, hstate, Event.target?]

/-- The trail leads along allowed edges to the state. -/
theorem trail_run (invocation : Invocation) (schedule : List Turn) :
    (∃ earlier, ((new invocation).run schedule).trail =
      ((new invocation).run schedule).worker.state :: earlier) ∧
        ((new invocation).run schedule).trail.IsChain
          (fun later earlier => earlier.canMoveTo later = true) := by
  refine run_induction (motive := fun shared =>
    (∃ earlier, shared.trail = shared.worker.state :: earlier) ∧
      shared.trail.IsChain (fun later earlier => earlier.canMoveTo later = true))
    invocation ?_ ?_ schedule
  · exact ⟨⟨[], rfl⟩, List.IsChain.singleton _⟩
  · intro before after hstep hbefore
    rcases hbefore with ⟨⟨earlier, hcurrent⟩, hchain⟩
    rcases hstep.moves with ⟨hstate, htrail⟩ | ⟨hedge, htrail⟩
    · rw [hstate, htrail]
      exact ⟨⟨earlier, hcurrent⟩, hchain⟩
    -- The edge taken starts where the trail ends.
    · refine ⟨⟨before.trail, htrail⟩, ?_⟩
      rw [htrail]
      rw [hcurrent] at hchain ⊢
      exact hchain.cons_cons hedge

theorem trail_increasing (invocation : Invocation) (schedule : List Turn) :
    ((new invocation).run schedule).trail.Pairwise (· > ·) := by
  have htrans : IsTrans WorkerState (· > ·) := ⟨by
    intro first second third hfirst hsecond
    exact Nat.lt_trans hsecond hfirst⟩
  have hchain : ((new invocation).run schedule).trail.IsChain (· > ·) := by
    refine (trail_run invocation schedule).2.imp ?_
    intro later earlier hedge
    exact WorkerState.lt_of_canMoveTo hedge
  exact hchain.pairwise

/-- The worker has been running as soon as a run has won. -/
theorem running_mem_trail_iff {shared : Shared} :
    .running ∈ shared.trail ↔ 0 < shared.tally Event.isWin := by
  have hwin : ∀ event : Event, event.target? = some .running ↔ event.isWin = true := by
    intro event
    cases event with
    | moved thread call source target =>
        cases target <;> simp [Event.target?, Event.isWin]
    | _ =>
        simp [Event.target?, Event.isWin]
  simp [trail, tally_pos_iff, hwin]

/-- The state moves forward only. -/
theorem state_le_run (shared : Shared) (schedule : List Turn) :
    shared.worker.state ≤ (shared.run schedule).worker.state := by
  induction schedule generalizing shared with
  | nil =>
      exact Nat.le_refl _
  | cons turn schedule ih =>
      have hturn : shared.worker.state ≤ (shared.step turn).worker.state := by
        rcases (stepped shared turn).moves with ⟨hstate, _⟩ | ⟨hedge, _⟩
        · rw [hstate]
          exact Nat.le_refl _
        · exact Nat.le_of_lt (WorkerState.lt_of_canMoveTo hedge)
      exact Nat.le_trans hturn (ih (shared.step turn))

/-- Once stopped, a worker stays so. -/
theorem stopped_run {shared : Shared} (h : shared.worker.state = .stopped)
    (schedule : List Turn) : (shared.run schedule).worker.state = .stopped := by
  apply WorkerState.eq_stopped_of_le
  rw [← h]
  exact state_le_run shared schedule

theorem state_eq_stopped_of_prefix {invocation : Invocation} {early schedule : List Turn}
    (hearlier : early <+: schedule)
    (h : ((new invocation).run early).worker.state = .stopped) :
    ((new invocation).run schedule).worker.state = .stopped := by
  rcases hearlier with ⟨later, rfl⟩
  rw [run_append]
  exact stopped_run h later

end Shared

/-! ## Calls that leave the worker stopped

A stop that has tried to move the state, and a run that has done so after its launch, know that the
worker is stopped: either they stopped it or it was stopped before. -/

/-- The call has moved the state to stopped, or found it there. -/
def Stage.knowsStopped : Stage → Bool
  | .announce (.settled _) => true
  | .conclude _ => true
  | .announce .conclusion => true
  | .announce .stopping => true
  | .look => true
  | .announce .forestalled => true
  | .forgo => true
  | .announce .cancellation => true
  | _ => false

theorem Stage.Takes.stopped {thread : Nat} {worker : Worker} {stage next : Stage}
    {progress : Progress} (h : stage.Takes thread worker progress)
    (hnext : progress.next = some next) (hknows : next.knowsStopped = true)
    (hbefore : stage.knowsStopped = true → worker.state = .stopped) :
    progress.worker.state = .stopped := by
  cases h with
  -- These steps move the state themselves.
  | settle outcome hgoing =>
      rfl
  | stopRunning hrunning =>
      rfl
  | forestall hearly =>
      rfl
  -- These find it moved.
  | settleRefused outcome hstopped =>
      exact hstopped
  | stopRefused hstopped =>
      exact hstopped
  | conclude outcome =>
      rw [record_state]
      exact hbefore rfl
  | forgo =>
      rw [record_state]
      exact hbefore rfl
  | wake notice =>
      cases notice with
      | settled outcome =>
          exact hbefore rfl
      | stopping =>
          exact hbefore rfl
      | forestalled =>
          exact hbefore rfl
      | _ =>
          cases hnext <;> cases hknows
  | _ =>
      cases hnext <;> cases hknows

namespace Shared

theorem stopped_of_knowsStopped (invocation : Invocation) (schedule : List Turn) :
    ∀ stage ∈ ((new invocation).run schedule).stages, stage.knowsStopped = true →
      ((new invocation).run schedule).worker.state = .stopped := by
  refine run_induction (motive := fun shared =>
    ∀ stage ∈ shared.stages, stage.knowsStopped = true → shared.worker.state = .stopped)
    invocation ?_ ?_ schedule
  · intro stage hmem
    cases hmem
  · intro before after hstep hbefore stage hmem hknows
    have hstays : before.worker.state = .stopped → after.worker.state = .stopped := by
      intro hstopped
      rcases hstep.moves with ⟨hstate, _⟩ | ⟨hedge, _⟩
      · rw [hstate, hstopped]
      · rw [hstopped] at hedge
        cases hedge
    rcases hstep.mem_stages hmem with hold | ⟨call, rfl⟩ |
      ⟨thread, current, progress, hcurrent, htakes, hnext, hworker⟩
    · exact hstays (hbefore stage hold hknows)
    · cases call <;> cases hknows
    · rw [hworker]
      exact htakes.stopped hnext hknows (hbefore current hcurrent)

/-- A stop that has returned, whatever its report, leaves the worker stopped. -/
theorem stopped_of_reported {invocation : Invocation} {schedule : List Turn} {thread : Nat}
    {report : StopReport}
    (h : .returned thread (.stopped report) ∈ ((new invocation).run schedule).past) :
    ((new invocation).run schedule).worker.state = .stopped := by
  rcases exists_takes_of_mem_past h (by simp) with
    ⟨early, actor, stage, progress, hearlier, hmem, htakes, hevent⟩
  apply state_eq_stopped_of_prefix hearlier
  cases htakes with
  | look =>
      exact stopped_of_knowsStopped invocation early _ hmem rfl
  | wake notice =>
      cases notice with
      | cancellation =>
          exact stopped_of_knowsStopped invocation early _ hmem rfl
      | _ =>
          simp [Notice.advance] at hevent
  | _ =>
      simp [comeBack] at hevent

/-- So does a run that has recorded how its launch ended. -/
theorem stopped_of_concluded {invocation : Invocation} {schedule : List Turn} {thread : Nat}
    {outcome : WorkerOutcome}
    (h : .concluded thread outcome ∈ ((new invocation).run schedule).past) :
    ((new invocation).run schedule).worker.state = .stopped := by
  rcases exists_takes_of_mem_past h (by simp) with
    ⟨early, actor, stage, progress, hearlier, hmem, htakes, hevent⟩
  apply state_eq_stopped_of_prefix hearlier
  cases htakes with
  | conclude recorded =>
      exact stopped_of_knowsStopped invocation early _ hmem rfl
  | wake notice =>
      cases notice <;> simp [Notice.advance] at hevent
  | _ =>
      simp [comeBack] at hevent

end Shared

end Worker
end NativeLaunch
