import NativeLaunch.Proofs.Worker.Cancellation
import NativeLaunch.Proofs.Worker.NativeActivity

/-!
# What the report of a running call tells

A stop that comes too late reads the activity flag after it has lost its move, outside the lock, and
reports what it saw.  A run raises that flag before it competes for the running state, so that the
flag may be up although no run has won and none ever will.  This file defines:

* `StillRunningTrusted` — what holders rely on at one moment: that a worker reported as running has
  been running, and that after a cancellation only `alreadyStopped` is reported;
* `FlaggedAhead` — a run has raised the flag ahead of its defeat, and a stop is about to look.

The two exclude each other, and there is no third (`stillRunningTrusted_iff`).
-/

namespace NativeLaunch
namespace Worker
namespace Shared

/-- What holders rely on at one moment. -/
structure StillRunningTrusted (shared : Shared) : Prop where
  -- A running call is reported only of a worker that has reached running, so that a launch has been
  -- entered, or a run is on its way to it.
  reached : ∀ turn thread, .returned thread (.stopped .nativeStillRunning) ∈ shared.news turn →
    .running ∈ shared.trail ∧ (0 < shared.tally Event.isEntry ∨ shared.committed = true)
  -- Where a stop began after a cancellation had been reported, it reports that there was nothing
  -- left to stop.
  afterCancelled : ∀ turn thread report newer older,
    .returned thread (.stopped report) ∈ shared.news turn →
      shared.past = newer ++ .called thread .stop :: older →
        (∃ other, .returned other (.stopped .cancelled) ∈ older) → report = .alreadyStopped

/-- The latest write of the flag was that of a run that began. -/
def raisedLast (shared : Shared) : Bool :=
  (shared.past.find? Event.writesFlag).any Event.isRaise

/-- No run has won, a run has raised the flag all the same, and a stop is about to look at it. -/
def FlaggedAhead (shared : Shared) : Prop :=
  .running ∉ shared.trail ∧ shared.raisedLast = true ∧
    ∃ thread, latest? thread shared.calls = some .look

theorem nativeActive_eq_raisedLast (invocation : Invocation) (schedule : List Turn) :
    ((new invocation).run schedule).worker.nativeActive =
      ((new invocation).run schedule).raisedLast := by
  rw [nativeActive_run, raisedLast]
  cases ((new invocation).run schedule).past.find? Event.writesFlag <;> rfl

/-- Whoever has won has entered the launcher or is committed to it. -/
theorem entered_or_committed {shared : Shared} (h : Accounts shared)
    (hwin : 0 < shared.tally Event.isWin) :
    0 < shared.tally Event.isEntry ∨ shared.committed = true := by
  by_cases hcommitted : shared.committed = true
  · exact .inr hcommitted
  · have hentries := entries_of_not_committed h (by simpa using hcommitted)
    exact .inl (by omega)

/-- The flag that is up ahead belongs to a run that is about to be refused, or has been and is about
to lower it: no launch will come of it. -/
theorem contending_of_flaggedAhead {invocation : Invocation} {schedule : List Turn}
    (h : FlaggedAhead ((new invocation).run schedule)) :
    ((new invocation).run schedule).worker.state = .stopped ∧
      ∃ stage ∈ ((new invocation).run schedule).stages, stage.isContending = true := by
  rcases h with ⟨hnever, hraised, thread, hlook⟩
  have haccounts := accounts invocation schedule
  rw [running_mem_trail_iff] at hnever
  refine ⟨stopped_of_late invocation schedule .look (mem_stages_of_latest? hlook) rfl, ?_⟩
  rcases exists_raised invocation schedule
    ((nativeActive_eq_raisedLast invocation schedule).trans hraised) with ⟨stage, hmem, hstage⟩
  rw [Stage.isRaised, Bool.or_eq_true, Bool.or_eq_true] at hstage
  -- Without a win there is neither a committed run nor one that has come back.
  rcases hstage with (hcontending | hcommitted) | hlower
  · exact ⟨stage, hmem, hcontending⟩
  · have hwins := (wins_of_committed haccounts (List.any_eq_true.2 ⟨stage, hmem, hcommitted⟩)).1
    omega
  · have hheld : 0 < ((new invocation).run schedule).stages.countP Stage.isLower :=
      List.countP_pos_iff.2 ⟨stage, hmem, hlower⟩
    have hlowerings := haccounts.lowerings
    have hexits := haccounts.exits_le_wins
    omega

/-- The report of a running call can be trusted at all moments but those at which a run has raised
the flag ahead of its defeat and a stop is about to look. -/
theorem stillRunningTrusted_iff (invocation : Invocation) (schedule : List Turn) :
    StillRunningTrusted ((new invocation).run schedule) ↔
      ¬ FlaggedAhead ((new invocation).run schedule) := by
  have haccounts := accounts invocation schedule
  have hflag := nativeActive_eq_raisedLast invocation schedule
  constructor
  · rintro htrusted ⟨hnever, hraised, thread, hlook⟩
    have hreport : ((new invocation).run schedule).worker.lateReport = .nativeStillRunning := by
      simp [lateReport, hflag, hraised]
    have hnews := (step_look hlook).1
    rw [hreport] at hnews
    exact hnever (htrusted.reached (.advance thread) thread (by simp [hnews])).1
  · intro hclear
    have hreached : ∀ turn thread,
        .returned thread (.stopped .nativeStillRunning) ∈
          ((new invocation).run schedule).news turn →
        .running ∈ ((new invocation).run schedule).trail := by
      intro turn thread hreturned
      rcases look_of_mem_news hreturned (by simp) with ⟨hlook, hlate, _⟩
      have hactive : ((new invocation).run schedule).worker.nativeActive = true := by
        by_contra hdown
        simp [lateReport, hdown] at hlate
      by_contra hnever
      exact hclear ⟨hnever, hflag ▸ hactive, thread, hlook⟩
    refine ⟨?_, ?_⟩
    · intro turn thread hreturned
      have hrunning := hreached turn thread hreturned
      exact ⟨hrunning, entered_or_committed haccounts (running_mem_trail_iff.1 hrunning)⟩
    · rintro turn thread report newer older hreturned hpast ⟨other, hcancelled⟩
      have hearlier : .returned other (.stopped .cancelled) ∈
          ((new invocation).run schedule).past := by
        rw [hpast]
        exact List.mem_append_right _ (List.mem_cons_of_mem _ hcancelled)
      cases report with
      | alreadyStopped =>
          rfl
      -- There is one cancellation at most, and the one reported before is it.
      | cancelled =>
          have hbefore : 0 < ((new invocation).run schedule).tally Event.isCancelled :=
            tally_pos_iff.2 ⟨_, hearlier, rfl⟩
          have hnews : 0 < (((new invocation).run schedule).news turn).countP Event.isCancelled :=
            List.countP_pos_iff.2 ⟨_, hreturned, rfl⟩
          have hone := (accounts invocation (schedule ++ [turn])).cancelled_le_one
          rw [run_concat, tally, past_step, List.countP_append] at hone
          rw [tally] at hbefore
          omega
      -- A worker that was cancelled has not been running.
      | nativeStillRunning =>
          have hwins := running_mem_trail_iff.1 (hreached turn thread hreturned)
          have htimely := (stopped_in_time haccounts hearlier).1
          have hexclusive := haccounts.timelyStops_add_wins_le_one
          omega

/-- A run raises the flag, a stop comes in time and reports so, and the run has yet to be refused. -/
def forestalledAhead : List Turn :=
  .call 0 .markScheduled :: alone 0 ++ [.call 0 .run, .advance 0] ++ .call 1 .stop :: alone 1

/-- After a cancellation was reported, another stop reports a running call; yet the launcher is
never entered. -/
theorem stillRunning_forestalledAhead :
    ((new ⟨"limbo_bridge", "server.toml", []⟩).run forestalledAhead).past.head? =
        some (.returned 1 (.stopped .cancelled)) ∧
      ¬ StillRunningTrusted ((new ⟨"limbo_bridge", "server.toml", []⟩).run
        (forestalledAhead ++ [.call 1 .stop, .advance 1, .advance 1])) ∧
      ((new ⟨"limbo_bridge", "server.toml", []⟩).run
        (forestalledAhead ++ .call 1 .stop :: alone 1)).past.head? =
          some (.returned 1 (.stopped .nativeStillRunning)) ∧
      ((new ⟨"limbo_bridge", "server.toml", []⟩).run
        (forestalledAhead ++ .call 1 .stop :: alone 1 ++ alone 0)).calls = [] ∧
      ((new ⟨"limbo_bridge", "server.toml", []⟩).run
        (forestalledAhead ++ .call 1 .stop :: alone 1 ++ alone 0)).tally Event.isEntry = 0 := by
  refine ⟨rfl, ?_, rfl, rfl, rfl⟩
  intro htrusted
  have hnews : ((new ⟨"limbo_bridge", "server.toml", []⟩).run
      (forestalledAhead ++ [.call 1 .stop, .advance 1, .advance 1])).news (.advance 1) =
        [.returned 1 (.stopped .nativeStillRunning)] := rfl
  have hrunning := (htrusted.reached (.advance 1) 1 (by simp [hnews])).1
  have htrail : ((new ⟨"limbo_bridge", "server.toml", []⟩).run
      (forestalledAhead ++ [.call 1 .stop, .advance 1, .advance 1])).trail =
        [.stopped, .scheduled, .notStarted] := rfl
  rw [htrail] at hrunning
  simp at hrunning

end Shared
end Worker
end NativeLaunch
