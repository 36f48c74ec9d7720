import NativeLaunch.Proofs.Worker.Accounts
import NativeLaunch.Proofs.Worker.Replay

/-!
# What an outcome says of the past

Three places of a worker record its outcome: a stop that came in time and a run that was refused
record that the call was skipped unless something is recorded already, and the run that made the
launch records how it ended, over whatever is there.  Since there is one launch at most, the outcome
at any moment can be read off the events without their order (`outcome_eq_some_iff`).
-/

namespace NativeLaunch
namespace Worker

/-- A launch never amounts to a skip. -/
theorem ofLaunch_ne_skipped (result : Except Failure ExitStatus) :
    WorkerOutcome.ofLaunch result ≠ .skipped := by
  cases result <;> simp [WorkerOutcome.ofLaunch]

/-- With one conclusion at most, the latest is any. -/
theorem findSome?_conclusion {past : List Event} {thread : Nat} {outcome : WorkerOutcome}
    (hone : past.countP Event.isConclusion ≤ 1) (hmem : .concluded thread outcome ∈ past) :
    past.findSome? Event.conclusion? = some outcome := by
  induction past with
  | nil =>
      cases hmem
  | cons event past ih =>
      rw [List.countP_cons] at hone
      rcases List.mem_cons.1 hmem with rfl | htail
      · rfl
      -- The one conclusion is among the older events, so that the latest event is none.
      · have hpos : 0 < past.countP Event.isConclusion :=
          List.countP_pos_iff.2 ⟨_, htail, rfl⟩
        cases hconclusion : event.isConclusion with
        | true =>
            simp only [hconclusion, if_true] at hone
            omega
        | false =>
            rw [Event.isConclusion_eq, Option.isSome_eq_false_iff, Option.isNone_iff_eq_none]
              at hconclusion
            rw [List.findSome?_cons, hconclusion]
            exact ih (by omega) htail

namespace Shared

/-- There is an outcome where one was concluded, and where there was a skip and no conclusion. -/
theorem outcome_eq_some_iff {invocation : Invocation} {schedule : List Turn}
    {outcome : WorkerOutcome} :
    ((new invocation).run schedule).worker.outcome = some outcome ↔
      (∃ thread, .concluded thread outcome ∈ ((new invocation).run schedule).past) ∨
        (((new invocation).run schedule).tally Event.isConclusion = 0 ∧
          0 < ((new invocation).run schedule).tally Event.isSkip ∧ outcome = .skipped) := by
  have haccounts := accounts invocation schedule
  have hone : ((new invocation).run schedule).past.countP Event.isConclusion ≤ 1 :=
    Nat.le_trans haccounts.conclusions_le_wins haccounts.wins_le_one
  rw [outcome_run]
  constructor
  · intro houtcome
    cases hfind : ((new invocation).run schedule).past.findSome? Event.conclusion? with
    | some found =>
        rw [hfind, Option.some_or, Option.some.injEq] at houtcome
        subst houtcome
        rcases List.exists_of_findSome?_eq_some hfind with ⟨event, hmem, hconclusion⟩
        cases event with
        | concluded thread recorded =>
            cases hconclusion
            exact .inl ⟨thread, hmem⟩
        | _ =>
            cases hconclusion
    | none =>
        rw [hfind, Option.none_or] at houtcome
        split at houtcome
        · rename_i hskip
          cases houtcome
          refine .inr ⟨?_, ?_, rfl⟩
          · rw [tally, List.countP_eq_zero]
            intro event hmem
            have hconclusion := List.findSome?_eq_none_iff.1 hfind event hmem
            simp [Event.isConclusion_eq, hconclusion]
          · exact List.countP_pos_iff.2 (List.any_eq_true.1 hskip)
        · cases houtcome
  · rintro (⟨thread, hmem⟩ | ⟨hnone, hskip, rfl⟩)
    · rw [findSome?_conclusion hone hmem, Option.some_or]
    · have hfind : ((new invocation).run schedule).past.findSome? Event.conclusion? = none := by
        rw [List.findSome?_eq_none_iff]
        intro event hmem
        have hconclusion := List.countP_eq_zero.1 hnone event hmem
        simpa [Event.isConclusion_eq] using hconclusion
      have hany := List.any_eq_true.2 (List.countP_pos_iff.1 hskip)
      rw [hfind, hany]
      rfl

/-- A conclusion comes from a launch that came back with its outcome. -/
theorem exists_left_of_concluded {invocation : Invocation} {schedule : List Turn} {thread : Nat}
    {outcome : WorkerOutcome}
    (h : .concluded thread outcome ∈ ((new invocation).run schedule).past) :
    ∃ thread result, .left thread result ∈ ((new invocation).run schedule).past ∧
      outcome = .ofLaunch result := by
  have hconclusions :
      0 < ((new invocation).run schedule).tally (Event.isConclusionWith outcome) :=
    tally_pos_iff.2 ⟨_, h, by simp [Event.isConclusionWith]⟩
  -- What was concluded with an outcome was earned by an exit with the same.
  have hbalance := (accounts invocation schedule).conclusionsWith outcome
  have hexits : 0 < ((new invocation).run schedule).tally (Event.isExitWith outcome) := by omega
  rcases tally_pos_iff.1 hexits with ⟨event, hmem, hexit⟩
  cases event with
  | left thread result =>
      exact ⟨thread, result, hmem, by simpa [Event.isExitWith, eq_comm] using hexit⟩
  | _ =>
      cases hexit

end Shared
end Worker
end NativeLaunch
