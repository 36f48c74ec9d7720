import NativeLaunch.Proofs.Worker.Commitment
import NativeLaunch.Proofs.Worker.Outcomes

/-!
# When the recorded outcome is final

Whoever reads the outcome of a worker, or waits for one, reads it at some moment of the schedule,
and takes it for the last word.  This file defines:

* `OutcomeFinal` — what readers of the outcome rely on, over a whole schedule;
* `SkipsEarly` — a refused run records a skip before the outcome of a launch is recorded.

The outcome is final over all schedules but those in which a refused run skips early although the
launcher is entered, before or after (`outcomeFinal_iff`).
-/

namespace NativeLaunch
namespace Worker
namespace Shared

/-- What readers of the outcome rely on. -/
structure OutcomeFinal (invocation : Invocation) (schedule : List Turn) : Prop where
  /-- An outcome that can be read stays. -/
  kept : ∀ early later outcome, early <+: later → later <+: schedule →
    ((new invocation).run early).worker.outcome = some outcome →
      ((new invocation).run later).worker.outcome = some outcome
  /-- A skip can be read only if the launcher is entered at no moment of the schedule. -/
  skipped : ∀ early, early <+: schedule →
    ((new invocation).run early).worker.outcome = some .skipped →
      ((new invocation).run schedule).tally Event.isEntry = 0
  /-- Any other outcome can be read only after a launch came back with it. -/
  launched : ∀ early outcome, early <+: schedule →
    ((new invocation).run early).worker.outcome = some outcome → outcome ≠ .skipped →
      ∃ thread result, .left thread result ∈ ((new invocation).run early).past ∧
        outcome = .ofLaunch result

/-- A refused run records that there is no launch, before the outcome of a launch is recorded. -/
def SkipsEarly (invocation : Invocation) (schedule : List Turn) : Prop :=
  ∃ early turn thread, early ++ [turn] <+: schedule ∧
    .skipped thread ∈ ((new invocation).run early).news turn ∧
      ((new invocation).run early).tally Event.isConclusion = 0

theorem tally_le_of_prefix (invocation : Invocation) {early later : List Turn}
    (h : early <+: later) (kind : Event → Bool) :
    ((new invocation).run early).tally kind ≤ ((new invocation).run later).tally kind := by
  rcases h with ⟨rest, rfl⟩
  rw [run_append]
  exact tally_le_run _ rest kind

/-- A skip that shows over a schedule with a launch was recorded early by a refused run: a stop
that came in time would have ruled out the launch. -/
theorem skipsEarly_of_skip {invocation : Invocation} {early schedule : List Turn}
    (hearlier : early <+: schedule)
    (hnone : ((new invocation).run early).tally Event.isConclusion = 0)
    (hskip : 0 < ((new invocation).run early).tally Event.isSkip)
    (hentry : 0 < ((new invocation).run schedule).tally Event.isEntry) :
    SkipsEarly invocation schedule := by
  rcases tally_pos_iff.1 hskip with ⟨event, hmem, hkind⟩
  -- Who recorded the skip: a refused run, or a stop.
  cases event with
  | skipped thread =>
      rcases exists_turn_of_mem_past hmem with ⟨sooner, turn, hsooner, hnews⟩
      have hbefore : sooner <+: early := (List.prefix_append sooner [turn]).trans hsooner
      have hle := tally_le_of_prefix invocation hbefore Event.isConclusion
      exact ⟨sooner, turn, thread, hsooner.trans hearlier, hnews, by omega⟩
  | forwent thread =>
      have hforgoing : 0 < ((new invocation).run early).tally Event.isForgoing :=
        tally_pos_iff.2 ⟨_, hmem, rfl⟩
      have hlater := tally_le_of_prefix invocation hearlier Event.isForgoing
      have haccounts := accounts invocation schedule
      have htimely := haccounts.forgoings_le_timelyStops
      have hexclusive := haccounts.timelyStops_add_wins_le_one
      have hwins := haccounts.entries_le_wins
      omega
  | _ =>
      cases hkind

/-- Right after an early skip, the outcome is that the call was skipped. -/
theorem outcome_of_skipped {invocation : Invocation} {early : List Turn} {turn : Turn}
    {thread : Nat} (hnews : .skipped thread ∈ ((new invocation).run early).news turn)
    (hnone : ((new invocation).run early).tally Event.isConclusion = 0) :
    ((new invocation).run (early ++ [turn])).worker.outcome = some .skipped := by
  rcases exists_takes_of_mem_news hnews (by simp) with
    ⟨actor, stage, progress, hlatest, htakes, hevent, hstep⟩
  have hevents : progress.events = [.skipped thread] := by
    cases htakes with
    | skip =>
        rcases List.mem_singleton.1 hevent with ⟨rfl⟩
        rfl
    | wake notice =>
        cases notice <;> simp [Notice.advance] at hevent
    | _ =>
        simp [comeBack] at hevent
  have hpast : ((new invocation).run (early ++ [turn])).past =
      .skipped thread :: ((new invocation).run early).past := by
    rw [run_concat, hstep, proceed, hevents]
    rfl
  rw [outcome_eq_some_iff]
  refine .inr ⟨?_, ?_, rfl⟩
  · rw [tally, hpast, List.countP_cons]
    exact hnone
  · exact tally_pos_iff.2 ⟨.skipped thread, by simp [hpast], rfl⟩

/-- The outcome is final unless a refused run skips early and the launcher is entered all the
same. -/
theorem outcomeFinal_iff (invocation : Invocation) (schedule : List Turn) :
    OutcomeFinal invocation schedule ↔
      ¬ (0 < ((new invocation).run schedule).tally Event.isEntry ∧
        SkipsEarly invocation schedule) := by
  constructor
  · rintro hfinal ⟨hentry, early, turn, thread, hearlier, hnews, hnone⟩
    have hnever := hfinal.skipped _ hearlier (outcome_of_skipped hnews hnone)
    omega
  · intro hregular
    -- A skip that can be read rules out every entry of the schedule.
    have hskipped : ∀ early, early <+: schedule →
        ((new invocation).run early).tally Event.isConclusion = 0 →
          0 < ((new invocation).run early).tally Event.isSkip →
            ((new invocation).run schedule).tally Event.isEntry = 0 := by
      intro early hearlier hnone hskip
      by_contra hentered
      have hentry : 0 < ((new invocation).run schedule).tally Event.isEntry :=
        Nat.pos_of_ne_zero hentered
      exact hregular ⟨hentry, skipsEarly_of_skip hearlier hnone hskip hentry⟩
    refine ⟨?_, ?_, ?_⟩
    · intro early later outcome hearly hlater houtcome
      rw [outcome_eq_some_iff] at houtcome ⊢
      -- A conclusion stays the only one; a skip stays because there is nothing to conclude.
      rcases houtcome with ⟨thread, hmem⟩ | ⟨hnone, hskip, rfl⟩
      · rcases hearly with ⟨rest, rfl⟩
        rw [run_append]
        exact .inl ⟨thread, mem_past_run rest hmem⟩
      · have hnever := hskipped early (hearly.trans hlater) hnone hskip
        have hentries := tally_le_of_prefix invocation hlater Event.isEntry
        have hconclusions := (accounts invocation later).conclusions
        have hexits := (accounts invocation later).exits
        have hskips := tally_le_of_prefix invocation hearly Event.isSkip
        exact .inr ⟨by omega, by omega, rfl⟩
    · intro early hearlier houtcome
      rcases outcome_eq_some_iff.1 houtcome with ⟨thread, hmem⟩ | ⟨hnone, hskip, _⟩
      · rcases exists_left_of_concluded hmem with ⟨_, result, _, hresult⟩
        exact absurd hresult.symm (ofLaunch_ne_skipped result)
      · exact hskipped early hearlier hnone hskip
    · intro early outcome _ houtcome hlaunched
      rcases outcome_eq_some_iff.1 houtcome with ⟨thread, hmem⟩ | ⟨_, _, hskip⟩
      · exact exists_left_of_concluded hmem
      · exact absurd hskip hlaunched

/-- A skip can be read while the launch goes on, and its exit replaces the skip. -/
theorem skip_replaced_refusedMeanwhile :
    ¬ OutcomeFinal ⟨"limbo_bridge", "server.toml", []⟩
        (refusedMeanwhile ++ .comeBack 0 (.ok ⟨4⟩) :: alone 0) ∧
      ((new ⟨"limbo_bridge", "server.toml", []⟩).run
        refusedMeanwhile).worker.outcome = some .skipped ∧
      ((new ⟨"limbo_bridge", "server.toml", []⟩).run refusedMeanwhile).inLaunch = true ∧
      ((new ⟨"limbo_bridge", "server.toml", []⟩).run
        (refusedMeanwhile ++ .comeBack 0 (.ok ⟨4⟩) :: alone 0)).worker.outcome =
          some (.exited ⟨4⟩) := by
  refine ⟨?_, rfl, rfl, rfl⟩
  intro hfinal
  have hkept := hfinal.kept refusedMeanwhile _ .skipped (List.prefix_append _ _)
    (List.prefix_refl _) rfl
  cases hkept

end Shared
end Worker
end NativeLaunch
