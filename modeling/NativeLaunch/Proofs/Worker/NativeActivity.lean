import NativeLaunch.Proofs.Worker.Commitment
import NativeLaunch.Proofs.Worker.Replay

/-!
# What the activity flag tells

The activity flag is up while a launch goes on, so that a stop that finds the flag down can report
that no call is in progress.  Every run writes the flag, though, also one that is refused, and a
refused run lowers it whether or not another run is in the launcher.  This file defines:

* `ActivityTrusted` — what holders rely on at one moment: the flag during a launch, the reports of
  stops during a launch, and the report that a worker was stopped already;
* `Hidden` — a refused run was the last to write the flag, and a launch goes on, or is about to
  begin while a stop is about to look.

The two exclude each other, and there is no third (`activityTrusted_iff`).
-/

namespace NativeLaunch
namespace Worker

/-- A stop has found that it came too late, and has not yet read the flag. -/
def Stage.isLate : Stage → Bool
  | .announce .stopping => true
  | .look => true
  | _ => false

/-- A run has raised the flag and has not lowered it again. -/
def Stage.isRaised (stage : Stage) : Bool :=
  stage.isContending || stage.isCommitted || stage.isLower

/-- Where a step leaves the flag up, its call holds it up, or another does. -/
theorem Stage.Takes.raised {thread : Nat} {worker : Worker} {stage : Stage} {progress : Progress}
    (h : stage.Takes thread worker progress) (hup : progress.worker.nativeActive = true) :
    (∃ next, progress.next = some next ∧ next.isRaised = true) ∨
      (worker.nativeActive = true ∧ stage.isRaised = false) := by
  cases h with
  | raise =>
      exact .inl ⟨_, rfl, rfl⟩
  | start hready =>
      exact .inl ⟨_, rfl, rfl⟩
  | startRefused hunready =>
      exact .inl ⟨_, rfl, rfl⟩
  | count =>
      exact .inl ⟨_, rfl, rfl⟩
  | enter =>
      exact .inl ⟨_, rfl, rfl⟩
  | wait =>
      exact .inl ⟨_, rfl, rfl⟩
  | comeBack result =>
      exact .inl ⟨_, rfl, rfl⟩
  | withdraw =>
      cases hup
  | lower outcome =>
      cases hup
  | wake notice =>
      cases notice with
      | running =>
          exact .inl ⟨_, rfl, rfl⟩
      | _ =>
          exact .inr ⟨hup, rfl⟩
  | _ =>
      exact .inr ⟨by simpa using hup, rfl⟩

namespace Shared

/-- The latest write of the flag was that of a run that was refused. -/
def withdrawn (shared : Shared) : Bool :=
  (shared.past.find? Event.writesFlag).any Event.isWithdrawal

/-! ## Stops that come too late -/

/-- Where a stop came too late, the worker is stopped. -/
theorem stopped_of_late (invocation : Invocation) (schedule : List Turn) :
    ∀ stage ∈ ((new invocation).run schedule).stages, stage.isLate = true →
      ((new invocation).run schedule).worker.state = .stopped := by
  intro stage hmem hlate
  apply stopped_of_knowsStopped invocation schedule stage hmem
  cases stage with
  | look =>
      rfl
  | announce notice =>
      cases notice with
      | stopping =>
          rfl
      | _ =>
          cases hlate
  | _ =>
      cases hlate

/-! ## The flag -/

/-- While a run is committed, the flag is up unless a refused run lowered it last. -/
theorem nativeActive_of_committed {invocation : Invocation} {schedule : List Turn}
    (h : ((new invocation).run schedule).committed = true) :
    ((new invocation).run schedule).worker.nativeActive =
      !((new invocation).run schedule).withdrawn := by
  have haccounts := accounts invocation schedule
  rcases wins_of_committed haccounts h with ⟨hwins, hexits⟩
  have hraised : 0 < ((new invocation).run schedule).tally Event.isRaise := by
    have hraises := haccounts.raises
    have hmono : ((new invocation).run schedule).tally Event.isWin ≤
        ((new invocation).run schedule).tally
          (fun event => event.isWin || event.isWithdrawal) := by
      refine tally_le_tally _ ?_
      intro event hwin
      simp [hwin]
    omega
  have hlowered : ((new invocation).run schedule).tally Event.isLowering = 0 := by
    have hlowerings := haccounts.lowerings
    omega
  -- The latest write exists, since the winner raised the flag, and is no lowering, since no launch
  -- has come back.
  rw [nativeActive_run, withdrawn]
  cases hfind : ((new invocation).run schedule).past.find? Event.writesFlag with
  | none =>
      rcases tally_pos_iff.1 hraised with ⟨event, hmem, hraise⟩
      have hwrites := List.find?_eq_none.1 hfind event hmem
      simp [Event.writesFlag, hraise] at hwrites
  | some event =>
      have hmem := List.mem_of_find?_eq_some hfind
      have hwrites := List.find?_some hfind
      cases event with
      | raised thread =>
          rfl
      | withdrew thread =>
          rfl
      | lowered thread =>
          have hpos : 0 < ((new invocation).run schedule).tally Event.isLowering :=
            tally_pos_iff.2 ⟨.lowered thread, hmem, rfl⟩
          omega
      | _ =>
          cases hwrites

/-- The flag is up only while some run that raised it has not lowered it again. -/
theorem exists_raised (invocation : Invocation) (schedule : List Turn) :
    ((new invocation).run schedule).worker.nativeActive = true →
      ∃ stage ∈ ((new invocation).run schedule).stages, stage.isRaised = true := by
  refine run_induction (motive := fun shared =>
    shared.worker.nativeActive = true → ∃ stage ∈ shared.stages, stage.isRaised = true)
    invocation ?_ ?_ schedule
  · intro hup
    cases hup
  · intro before after hstep hbefore hup
    cases hstep with
    | idle =>
        exact hbefore hup
    | called thread call _ =>
        rcases hbefore hup with ⟨stage, hmem, hraised⟩
        exact ⟨stage, List.mem_cons_of_mem _ hmem, hraised⟩
    | proceeded thread current progress newer older hsplit _ htakes =>
        rcases htakes.raised hup with ⟨next, hnext, hraised⟩ | ⟨hupBefore, hlowered⟩
        · exact ⟨next, by simp [stages, hnext], hraised⟩
        -- Who holds the flag up is then another call, and that one has not moved.
        · rcases hbefore hupBefore with ⟨stage, hmem, hraised⟩
          refine ⟨stage, ?_, hraised⟩
          simp only [stages, hsplit, List.map_append, List.map_cons, List.mem_append,
            List.mem_cons] at hmem ⊢
          rcases hmem with hnewer | rfl | holder
          · exact .inl hnewer
          · rw [hlowered] at hraised
            cases hraised
          · exact .inr (.inr holder)

/-! ## The reports -/

/-- A report other than of a cancellation is made by a look at the flag. -/
theorem look_of_mem_news {shared : Shared} {turn : Turn} {thread : Nat} {report : StopReport}
    (h : .returned thread (.stopped report) ∈ shared.news turn) (hlate : report ≠ .cancelled) :
    latest? thread shared.calls = some .look ∧ report = shared.worker.lateReport ∧
      shared.step turn = shared.step (.advance thread) := by
  rcases exists_takes_of_mem_news h (by simp) with
    ⟨actor, stage, progress, hlatest, htakes, hevent, hstep⟩
  cases htakes with
  | look =>
      rcases List.mem_singleton.1 hevent with ⟨rfl⟩
      refine ⟨hlatest, rfl, ?_⟩
      rw [hstep, step_advance hlatest]
      rfl
  | wake notice =>
      cases notice <;> simp [Notice.advance] at hevent
      exact absurd hevent.2 hlate
  | _ =>
      simp [comeBack] at hevent

/-- A look at the flag ends the stop, reports what it saw, and changes nothing else. -/
theorem step_look {shared : Shared} {thread : Nat}
    (h : latest? thread shared.calls = some .look) :
    shared.news (.advance thread) = [.returned thread (.stopped shared.worker.lateReport)] ∧
      (shared.step (.advance thread)).worker = shared.worker ∧
        (shared.step (.advance thread)).committed = shared.committed := by
  refine ⟨?_, ?_, ?_⟩
  · have hpast := past_advance h
    rw [past_step] at hpast
    exact List.append_cancel_right hpast
  · rw [step_advance h]
    rfl
  · rcases exists_split_of_latest? h with ⟨newer, older, hsplit, hnewer⟩
    have hcalls : (shared.step (.advance thread)).calls = newer ++ older := by
      rw [step_advance h, proceed, hsplit]
      exact replaceLatest_split hnewer
    simp [committed, stages, hcalls, hsplit, Stage.isCommitted, Stage.isBeforeLaunch,
      Stage.isInside]

/-! ## When the flag can be trusted -/

/-- What holders rely on at one moment. -/
structure ActivityTrusted (shared : Shared) : Prop where
  /-- While a launch goes on, the flag is up. -/
  active : shared.inLaunch = true → shared.worker.nativeActive = true
  /-- While a launch goes on, no stop reports that the worker was stopped already. -/
  reported : ∀ turn thread report, .returned thread (.stopped report) ∈ shared.news turn →
    shared.inLaunch = true → report ≠ .alreadyStopped
  /-- When a stop reports so, the worker is done with its launcher. -/
  finished : ∀ turn thread, .returned thread (.stopped .alreadyStopped) ∈ shared.news turn →
    (shared.step turn).Over

/-- A refused run has lowered the flag over a launch that goes on, or over one that is about to
begin, and a stop is about to look at the flag. -/
def Hidden (shared : Shared) : Prop :=
  shared.withdrawn = true ∧
    (shared.inLaunch = true ∨
      shared.committed = true ∧ ∃ thread, latest? thread shared.calls = some .look)

/-- The flag and the reports can be trusted at all moments but those at which a refused run has
hidden the launch. -/
theorem activityTrusted_iff (invocation : Invocation) (schedule : List Turn) :
    ActivityTrusted ((new invocation).run schedule) ↔ ¬ Hidden ((new invocation).run schedule) := by
  -- Where a stop looks at the flag, it ends with the worker over or committed.
  have hover : ∀ thread,
      latest? thread ((new invocation).run schedule).calls = some .look →
        ((((new invocation).run schedule).step (.advance thread)).Over ↔
          ((new invocation).run schedule).committed = false) := by
    intro thread hlook
    rcases exists_split_of_latest? hlook with ⟨newer, older, hsplit, _⟩
    have hstopped := stopped_of_late invocation schedule .look (by simp [stages, hsplit]) rfl
    rcases step_look hlook with ⟨_, hworker, hcommitted⟩
    rw [← hworker] at hstopped
    rw [← run_concat] at hstopped hcommitted ⊢
    rw [over_iff invocation _ hstopped, hcommitted]
  constructor
  · rintro htrusted ⟨hwithdrawn, hlaunch | ⟨hcommitted, thread, hlook⟩⟩
    -- The flag is down over a launch.
    · have hactive := htrusted.active hlaunch
      rw [nativeActive_of_committed (committed_of_inLaunch hlaunch), hwithdrawn] at hactive
      cases hactive
    -- The look will find the flag down, and the launch is still to come.
    · have hreport : ((new invocation).run schedule).worker.lateReport = .alreadyStopped := by
        simp [lateReport, nativeActive_of_committed hcommitted, hwithdrawn]
      have hnews := (step_look hlook).1
      rw [hreport] at hnews
      have hcalm := (hover thread hlook).1 (htrusted.finished _ thread (by simp [hnews]))
      rw [hcommitted] at hcalm
      cases hcalm
  · intro hvisible
    have hactive : ((new invocation).run schedule).inLaunch = true →
        ((new invocation).run schedule).worker.nativeActive = true := by
      intro hlaunch
      rw [nativeActive_of_committed (committed_of_inLaunch hlaunch)]
      cases hwithdrawn : ((new invocation).run schedule).withdrawn with
      | false =>
          rfl
      | true =>
          exact absurd ⟨hwithdrawn, .inl hlaunch⟩ hvisible
    refine ⟨hactive, ?_, ?_⟩
    · intro turn thread report hreturned hlaunch hreport
      rcases look_of_mem_news hreturned (by simp [hreport]) with ⟨_, hlate, _⟩
      simp [hlate, lateReport, hactive hlaunch] at hreport
    · intro turn thread hreturned
      rcases look_of_mem_news hreturned (by simp) with ⟨hlook, hlate, hstep⟩
      rw [hstep, hover thread hlook]
      cases hcommitted : ((new invocation).run schedule).committed with
      | false =>
          rfl
      | true =>
          cases hwithdrawn : ((new invocation).run schedule).withdrawn with
          | true =>
              exact absurd ⟨hwithdrawn, .inr ⟨hcommitted, thread, hlook⟩⟩ hvisible
          | false =>
              simp [lateReport, nativeActive_of_committed hcommitted, hwithdrawn] at hlate

/-- The launch goes on with the flag down, and a stop reports that the worker was stopped already. -/
theorem hidden_refusedMeanwhile :
    ¬ ActivityTrusted ((new ⟨"limbo_bridge", "server.toml", []⟩).run refusedMeanwhile) ∧
      ((new ⟨"limbo_bridge", "server.toml", []⟩).run refusedMeanwhile).inLaunch = true ∧
      ((new ⟨"limbo_bridge", "server.toml", []⟩).run
        refusedMeanwhile).worker.nativeActive = false ∧
      ((new ⟨"limbo_bridge", "server.toml", []⟩).run
        (refusedMeanwhile ++ .call 1 .stop :: alone 1)).past.head? =
          some (.returned 1 (.stopped .alreadyStopped)) ∧
      ((new ⟨"limbo_bridge", "server.toml", []⟩).run
        (refusedMeanwhile ++ .call 1 .stop :: alone 1)).inLaunch = true := by
  refine ⟨?_, rfl, rfl, rfl, rfl⟩
  intro htrusted
  have hactive := htrusted.active rfl
  cases hactive

end Shared
end Worker
end NativeLaunch
