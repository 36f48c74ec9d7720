import NativeLaunch.Proofs.Worker.Balance

/-!
# The accounts of a worker

All balances together, for a worker that was new, and what follows from them alone: whether there
will be a launch is decided at most once, so that at most one run wins, at most one stop comes in
time, and never both.
-/

namespace NativeLaunch
namespace Worker

/-- What the balances say together. -/
structure Accounts (shared : Shared) : Prop where
  decisions : shared.tally Event.isDecision = decided shared.worker.state
  firstMoves : shared.tally Event.isFirstMove = begun shared.worker.state
  markings :
    shared.tally Event.isMarking =
      shared.stages.countP (fun stage => stage = .announce .scheduled) +
        shared.tally Event.isMarked
  launches :
    shared.tally Event.isWin = shared.stages.countP Stage.isUncounted + shared.worker.launches
  entries :
    shared.tally Event.isWin =
      shared.stages.countP Stage.isBeforeLaunch + shared.tally Event.isEntry
  exits :
    shared.tally Event.isEntry = shared.stages.countP Stage.isInside + shared.tally Event.isExit
  lowerings :
    shared.tally Event.isExit = shared.stages.countP Stage.isLower + shared.tally Event.isLowering
  conclusions :
    shared.tally Event.isExit =
      shared.stages.countP (fun stage => stage.outcome?.isSome) + shared.tally Event.isConclusion
  conclusionsWith : ∀ outcome,
    shared.tally (Event.isExitWith outcome) =
      shared.stages.countP (fun stage => stage.outcome? = some outcome) +
        shared.tally (Event.isConclusionWith outcome)
  raises :
    shared.tally Event.isRaise =
      shared.stages.countP Stage.isContending +
        shared.tally (fun event => event.isWin || event.isWithdrawal)
  timelyStops :
    shared.tally Event.isTimelyStop =
      shared.stages.countP Stage.isTimely + shared.tally Event.isCancelled
  forgoings :
    shared.tally Event.isForgoing =
      shared.stages.countP (fun stage => stage = .announce .cancellation) +
        shared.tally Event.isCancelled
  endings :
    shared.tally Event.isWin = going shared.worker.state + shared.tally Event.isEnding

theorem accounts (invocation : Invocation) (schedule : List Turn) :
    Accounts ((Shared.new invocation).run schedule) where
  decisions := by simpa [Balance.At] using decision_kept.run invocation schedule
  firstMoves := by simpa [Balance.At] using firstMove_kept.run invocation schedule
  markings := by simpa [Balance.At] using marking_kept.run invocation schedule
  launches := by simpa [Balance.At] using launch_kept.run invocation schedule
  entries := by simpa [Balance.At] using entry_kept.run invocation schedule
  exits := by simpa [Balance.At] using exit_kept.run invocation schedule
  lowerings := by simpa [Balance.At] using lowering_kept.run invocation schedule
  conclusions := by simpa [Balance.At] using conclusion_kept.run invocation schedule
  conclusionsWith outcome := by
    simpa [Balance.At] using (conclusionWith_kept outcome).run invocation schedule
  raises := by simpa [Balance.At] using raise_kept.run invocation schedule
  timelyStops := by simpa [Balance.At] using timelyStop_kept.run invocation schedule
  forgoings := by simpa [Balance.At] using forgoing_kept.run invocation schedule
  endings := by simpa [Balance.At] using ending_kept.run invocation schedule

namespace Accounts

variable {shared : Shared}

/-- The worker is decided by a run that wins or by being stopped before, and only once. -/
theorem wins_add_forestallings (h : Accounts shared) :
    shared.tally Event.isWin + shared.tally Event.isForestalling =
      decided shared.worker.state := by
  rw [← h.decisions]
  -- A decision is one or the other by definition, and none is both.
  refine (shared.tally_or ?_).symm
  intro event hwin
  cases event with
  | moved thread call source target =>
      cases source <;> cases target <;> first | rfl | cases hwin
  | _ =>
      rfl

theorem wins_le_one (h : Accounts shared) : shared.tally Event.isWin ≤ 1 := by
  have hdecided : decided shared.worker.state ≤ 1 := by
    cases shared.worker.state <;> simp [decided]
  have hsum := h.wins_add_forestallings
  omega

theorem entries_le_wins (h : Accounts shared) :
    shared.tally Event.isEntry ≤ shared.tally Event.isWin := by
  have hentries := h.entries
  omega

theorem exits_le_wins (h : Accounts shared) :
    shared.tally Event.isExit ≤ shared.tally Event.isWin := by
  have hexits := h.exits
  have hentries := h.entries_le_wins
  omega

theorem conclusions_le_wins (h : Accounts shared) :
    shared.tally Event.isConclusion ≤ shared.tally Event.isWin := by
  have hconclusions := h.conclusions
  have hexits := h.exits_le_wins
  omega

theorem launches_le_one (h : Accounts shared) : shared.worker.launches ≤ 1 := by
  have hlaunches := h.launches
  have hwins := h.wins_le_one
  omega

theorem marked_le_one (h : Accounts shared) : shared.tally Event.isMarked ≤ 1 := by
  have hbegun : begun shared.worker.state ≤ 1 := by
    cases shared.worker.state <;> simp [begun]
  -- To be marked, the worker had to leave the state that it started in.
  have hfirst : shared.tally Event.isMarking ≤ shared.tally Event.isFirstMove := by
    refine shared.tally_le_tally ?_
    intro event hevent
    cases event with
    | moved thread call source target =>
        cases source <;> cases target <;> simp_all [Event.isMarking, Event.isFirstMove]
    | _ =>
        simp [Event.isMarking] at hevent
  have hmarkings := h.markings
  have hfirstMoves := h.firstMoves
  omega

theorem timelyStops_le_forestallings (shared : Shared) :
    shared.tally Event.isTimelyStop ≤ shared.tally Event.isForestalling := by
  refine shared.tally_le_tally ?_
  intro event hevent
  cases event with
  | moved thread call source target =>
      cases call <;> cases source <;> cases target <;>
        simp_all [Event.isTimelyStop, Event.isForestalling]
  | _ =>
      simp [Event.isTimelyStop] at hevent

theorem forgoings_le_timelyStops (h : Accounts shared) :
    shared.tally Event.isForgoing ≤ shared.tally Event.isTimelyStop := by
  have hheld : shared.stages.countP (fun stage => stage = .announce .cancellation) ≤
      shared.stages.countP Stage.isTimely := by
    refine List.countP_mono_left ?_
    intro stage _ hstage
    rw [of_decide_eq_true hstage]
    rfl
  have hforgoings := h.forgoings
  have htimelyStops := h.timelyStops
  omega

/-- A stop that came in time rules out a launch. -/
theorem timelyStops_add_wins_le_one (h : Accounts shared) :
    shared.tally Event.isTimelyStop + shared.tally Event.isWin ≤ 1 := by
  have hdecided : decided shared.worker.state ≤ 1 := by
    cases shared.worker.state <;> simp [decided]
  have hsum := h.wins_add_forestallings
  have htimely := timelyStops_le_forestallings shared
  omega

theorem cancelled_le_one (h : Accounts shared) : shared.tally Event.isCancelled ≤ 1 := by
  have htimelyStops := h.timelyStops
  have hexclusive := h.timelyStops_add_wins_le_one
  omega

/-- After a stop that came in time, the state is stopped. -/
theorem stopped_of_timelyStop (h : Accounts shared) (htimely : 0 < shared.tally Event.isTimelyStop) :
    shared.worker.state = .stopped := by
  have hsum := h.wins_add_forestallings
  have hle := timelyStops_le_forestallings shared
  have hexclusive := h.timelyStops_add_wins_le_one
  have hendings := h.endings
  -- Before a decision there is no stop in time, and running takes a win.
  cases hstate : shared.worker.state with
  | notStarted =>
      simp only [hstate, decided] at hsum
      omega
  | scheduled =>
      simp only [hstate, decided] at hsum
      omega
  | running =>
      simp only [hstate, going] at hendings
      omega
  | stopped =>
      rfl

end Accounts

end Worker
end NativeLaunch
