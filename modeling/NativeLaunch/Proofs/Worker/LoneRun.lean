import NativeLaunch.Proofs.Worker.Settlement

/-!
# Workers that are run once

What makes the reports of a worker unreliable is a second run: it is refused while another is in
the launcher, lowers a flag that is not its own, and records a skip that is not the last word.  Of a
worker that is run once at most this cannot be said, since its run either wins or is refused
(`wins_add_refusals_le_runCalls`).  For such a worker this file shows that

* no refused run was the last to write the flag while a run is committed (`active_of_lone_run`);
* a stop that reports that the worker was stopped already speaks of the rest of the schedule
  (`over_of_lone_run`);
* an outcome that can be read stays (`outcome_of_lone_run`);
* once the run has returned, so has the launcher, if it was entered (`exits_of_lone_run`).
-/

namespace NativeLaunch
namespace Worker

theorem raiseCall_kept :
    Balance.Kept
      { earned := Event.isRunCall
        held := fun stage => stage = .raise
        spent := Event.isRaise } where
  new _ := rfl
  call _ call := by cases call <;> rfl
  takes h := by
    cases h with
    | wake notice =>
        cases notice <;> rfl
    | _ =>
        simp [Event.isRunCall, Event.isRaise, comeBack]

def Event.isRan : Event → Bool
  | .returned _ .ran => true
  | _ => false

/-- A run has not returned. -/
def Stage.isRun : Stage → Bool
  | .raise => true
  | .start => true
  | .withdraw => true
  | .skip => true
  | .announce .refusal => true
  | .announce .running => true
  | .count => true
  | .enter => true
  | .inside => true
  | .lower _ => true
  | .settle _ => true
  | .announce (.settled _) => true
  | .conclude _ => true
  | .announce .conclusion => true
  | _ => false

theorem ran_kept :
    Balance.Kept
      { earned := Event.isRunCall
        held := Stage.isRun
        spent := Event.isRan } where
  new _ := rfl
  call _ call := by cases call <;> rfl
  takes h := by
    cases h with
    | wake notice =>
        cases notice <;> rfl
    | _ =>
        simp [Event.isRunCall, Event.isRan, Stage.isRun, comeBack]

namespace Shared

theorem over_run {invocation : Invocation} {schedule : List Turn}
    (h : ((new invocation).run schedule).Over) (later : List Turn) :
    (((new invocation).run schedule).run later).Over := by
  rcases h with ⟨hlaunch, hnever⟩
  refine ⟨?_, ?_⟩
  -- Who is in the launcher later has entered it, and nobody has since.
  · have hexits := (accounts invocation schedule).exits
    have hexitsLater := (accounts invocation (schedule ++ later)).exits
    have hmono := tally_le_run ((new invocation).run schedule) later Event.isExit
    have hentries := hnever later
    have hinside : ((new invocation).run schedule).stages.countP Stage.isInside = 0 := by
      rw [List.countP_eq_zero]
      exact List.any_eq_false.1 hlaunch
    rw [run_append] at hexitsLater
    rw [inLaunch, List.any_eq_false, ← List.countP_eq_zero]
    omega
  · intro further
    have hfurther := hnever (later ++ further)
    rw [run_append] at hfurther
    rw [hfurther, hnever later]

/-- Each run wins or takes the flag down again, or has yet to do either. -/
theorem wins_add_withdrawals_le_runCalls (invocation : Invocation) (schedule : List Turn) :
    ((new invocation).run schedule).tally Event.isWin +
        ((new invocation).run schedule).tally Event.isWithdrawal ≤
      ((new invocation).run schedule).tally Event.isRunCall := by
  have hcalls := raiseCall_kept.run invocation schedule
  have hraises := (accounts invocation schedule).raises
  have hsum : ((new invocation).run schedule).tally
      (fun event => event.isWin || event.isWithdrawal) =
        ((new invocation).run schedule).tally Event.isWin +
          ((new invocation).run schedule).tally Event.isWithdrawal := by
    refine tally_or _ ?_
    intro event
    cases event <;> simp [Event.isWin, Event.isWithdrawal]
  simp only [Balance.At] at hcalls
  omega

section LoneRun

variable {invocation : Invocation} {schedule : List Turn}

/-- While the only run is on its way to the launcher or in it, the flag is up. -/
theorem active_of_lone_run (hlone : ((new invocation).run schedule).tally Event.isRunCall ≤ 1)
    (hcommitted : ((new invocation).run schedule).committed = true) :
    ((new invocation).run schedule).worker.nativeActive = true := by
  have hwins := (wins_of_committed (accounts invocation schedule) hcommitted).1
  have hruns := wins_add_withdrawals_le_runCalls invocation schedule
  have hnone : ((new invocation).run schedule).tally Event.isWithdrawal = 0 := by omega
  rw [nativeActive_of_committed hcommitted]
  cases hwithdrawn : ((new invocation).run schedule).withdrawn with
  | false =>
      rfl
  | true =>
      rcases (Option.any_eq_true_iff_get _ _).1 hwithdrawn with ⟨hsome, hkind⟩
      have hmem := List.mem_of_find?_eq_some (Option.some_get hsome).symm
      have hpos : 0 < ((new invocation).run schedule).tally Event.isWithdrawal :=
        tally_pos_iff.2 ⟨_, hmem, hkind⟩
      omega

/-- What a stop reports as stopped already is over for good. -/
theorem over_of_lone_run (hlone : ((new invocation).run schedule).tally Event.isRunCall ≤ 1)
    {thread : Nat}
    (hreported : .returned thread (.stopped .alreadyStopped) ∈
      ((new invocation).run schedule).past) :
    ((new invocation).run schedule).Over := by
  rcases exists_turn_of_mem_past hreported with ⟨early, turn, hearlier, hnews⟩
  rcases look_of_mem_news hnews (by simp) with ⟨hlook, hreport, _⟩
  rcases (List.prefix_append early [turn]).trans hearlier with ⟨later, rfl⟩
  have hmono := tally_le_run ((new invocation).run early) later Event.isRunCall
  rw [run_append] at hlone
  -- The stop saw the flag down, so that no run was committed, and the worker was stopped by then.
  have hcalm : ((new invocation).run early).committed = false := by
    cases hcommitted : ((new invocation).run early).committed with
    | false =>
        rfl
    | true =>
        have hup := active_of_lone_run (by omega) hcommitted
        simp [lateReport, hup] at hreport
  have hstopped := stopped_of_late invocation early .look (mem_stages_of_latest? hlook) rfl
  rw [run_append]
  exact over_run ((over_iff invocation early hstopped).2 hcalm) later

/-- Where a skip was recorded, nobody enters the launcher. -/
theorem wins_of_skip (hlone : ((new invocation).run schedule).tally Event.isRunCall ≤ 1)
    (hskip : 0 < ((new invocation).run schedule).tally Event.isSkip) :
    ((new invocation).run schedule).tally Event.isWin = 0 := by
  have haccounts := accounts invocation schedule
  have hruns := wins_add_refusals_le_runCalls invocation schedule
  have hskips := skips_eq ((new invocation).run schedule)
  have htimely := haccounts.forgoings_le_timelyStops
  have hexclusive := haccounts.timelyStops_add_wins_le_one
  omega

/-- An outcome that can be read stays: one that was concluded was the only one, and a skip rules out
a conclusion. -/
theorem outcome_of_lone_run (hlone : ((new invocation).run schedule).tally Event.isRunCall ≤ 1)
    {early : List Turn} (hearlier : early <+: schedule) {outcome : WorkerOutcome}
    (houtcome : ((new invocation).run early).worker.outcome = some outcome) :
    ((new invocation).run schedule).worker.outcome = some outcome := by
  rcases hearlier with ⟨later, rfl⟩
  rcases outcome_eq_some_iff.1 houtcome with ⟨thread, hmem⟩ | ⟨_, hskip, rfl⟩
  · rw [run_append]
    exact (run_append _ _ _ ▸ outcome_eq_some_iff).2 (.inl ⟨thread, mem_past_run later hmem⟩)
  · have hmono := tally_le_run ((new invocation).run early) later Event.isSkip
    rw [← run_append] at hmono
    have hwins := wins_of_skip hlone (by omega)
    have hconclusions := (accounts invocation (early ++ later)).conclusions_le_wins
    exact outcome_eq_some_iff.2 (.inr ⟨by omega, by omega, rfl⟩)

/-- When the only run has returned, nobody is in the launcher. -/
theorem exits_of_lone_run (hlone : ((new invocation).run schedule).tally Event.isRunCall ≤ 1)
    {thread : Nat} (hran : .returned thread .ran ∈ ((new invocation).run schedule).past) :
    ((new invocation).run schedule).tally Event.isExit =
      ((new invocation).run schedule).tally Event.isEntry := by
  have hruns := ran_kept.run invocation schedule
  have hentries := exit_kept.run invocation schedule
  simp only [Balance.At] at hruns hentries
  have hreturned : 0 < ((new invocation).run schedule).tally Event.isRan :=
    tally_pos_iff.2 ⟨_, hran, rfl⟩
  have hinside : ((new invocation).run schedule).stages.countP Stage.isInside ≤
      ((new invocation).run schedule).stages.countP Stage.isRun := by
    apply List.countP_mono_left
    intro stage _ hstage
    cases stage <;> first | rfl | cases hstage
  omega

end LoneRun

end Shared
end Worker
end NativeLaunch
