import NativeLaunch.Proofs.Worker.NativeActivity
import NativeLaunch.Proofs.Worker.Outcomes

/-!
# How a worker settles

While calls overlap, the cells of a worker can be wrong for a while: a refused run lowers the flag
over a launch of another, and records a skip that the launch replaces.  Once every call has returned
this is over.  `Settled` says what the cells then hold, and `settled_of_returned` proves it after
every schedule that leaves no call in progress.

None of it is kept by every step.  The flag is down because each run takes down what it put up; the
outcome is right because the one run that made a launch records over everything, and any other call
leaves at least a skip.  The second half follows from the balances of the calls themselves: each
that began is still at one of its stages or has left its trace among the events.
-/

namespace NativeLaunch
namespace Worker

/-! ## What the calls leave behind -/

namespace Event

def isRunCall : Event → Bool
  | .called _ .run => true
  | _ => false

def isStopCall : Event → Bool
  | .called _ .stop => true
  | _ => false

def isRefusal : Event → Bool
  | .skipped _ => true
  | _ => false

def isStopReport : Event → Bool
  | .returned _ (.stopped _) => true
  | _ => false

end Event

namespace Stage

/-- A run has neither won nor recorded that it was refused. -/
def isOpenRun : Stage → Bool
  | .raise => true
  | .start => true
  | .withdraw => true
  | .skip => true
  | _ => false

/-- A stop has not returned. -/
def isStop : Stage → Bool
  | .request => true
  | .cancel => true
  | .announce .stopping => true
  | .look => true
  | .announce .forestalled => true
  | .forgo => true
  | .announce .cancellation => true
  | _ => false

end Stage

theorem request_kept :
    Balance.Kept
      { earned := Event.isStopCall
        held := fun stage => stage = .request
        stock := Worker.stopRequests } where
  new _ := rfl
  call _ call := by cases call <;> rfl
  takes h := by
    cases h with
    | wake notice =>
        cases notice <;> simp [Notice.advance, Event.isStopCall]
    | request =>
        simp [Event.isStopCall, countStop, Nat.add_comm]
    | _ =>
        simp [Event.isStopCall, comeBack, setActive, countLaunch]

theorem runCall_kept :
    Balance.Kept
      { earned := Event.isRunCall
        held := Stage.isOpenRun
        spent := fun event => event.isWin || event.isRefusal } where
  new _ := rfl
  call _ call := by cases call <;> rfl
  takes h := by
    cases h with
    | wake notice =>
        cases notice <;> rfl
    | _ =>
        simp [Event.isRunCall, Event.isWin, Event.isRefusal, Stage.isOpenRun, comeBack]

theorem stopCall_kept :
    Balance.Kept
      { earned := Event.isStopCall
        held := Stage.isStop
        spent := Event.isStopReport } where
  new _ := rfl
  call _ call := by cases call <;> rfl
  takes h := by
    cases h with
    | wake notice =>
        cases notice <;> rfl
    | _ =>
        simp [Event.isStopCall, Event.isStopReport, Stage.isStop, comeBack]

def Turn.startsRun : Turn → Bool
  | .call _ .run => true
  | _ => false

theorem Stage.Takes.runCalls {thread : Nat} {worker : Worker} {stage : Stage} {progress : Progress}
    (h : stage.Takes thread worker progress) : progress.events.countP Event.isRunCall = 0 := by
  cases h with
  | wake notice =>
      cases notice <;> rfl
  | _ =>
      rfl

/-- A run begins only in a turn that starts it. -/
theorem Shared.runCalls_step (shared : Shared) (turn : Turn) :
    (shared.step turn).tally Event.isRunCall ≤
      shared.tally Event.isRunCall + turn.startsRun.toNat := by
  cases turn with
  | call thread call =>
      by_cases hfree : shared.mayCall thread = true
      · cases call <;> simp [step, hfree, tally, List.countP_cons, Event.isRunCall, Turn.startsRun]
      · simp [step, hfree]
  | advance thread =>
      cases hlatest : latest? thread shared.calls with
      | none =>
          simp [step, hlatest]
      | some stage =>
          have hnone := (stage.takes_advance thread shared.worker).runCalls
          simp [step_advance hlatest, proceed, tally, hnone]
  | comeBack thread result =>
      by_cases hinside : latest? thread shared.calls = some .inside
      · have hnone : (comeBack thread shared.worker result).events.countP Event.isRunCall = 0 :=
          (Stage.Takes.comeBack result).runCalls
        simp [step, hinside, proceed, tally, hnone]
      · have hidle : shared.step (.comeBack thread result) = shared := by
          unfold step
          split <;> simp_all
        rw [hidle]
        exact Nat.le_add_right _ _

namespace Shared

theorem wins_or_refusals_eq (shared : Shared) :
    shared.tally (fun event => event.isWin || event.isRefusal) =
      shared.tally Event.isWin + shared.tally Event.isRefusal := by
  refine shared.tally_or ?_
  intro event
  cases event <;> simp [Event.isWin, Event.isRefusal]

/-- Each run wins or is refused, or has yet to be. -/
theorem wins_add_refusals_le_runCalls (invocation : Invocation) (schedule : List Turn) :
    ((new invocation).run schedule).tally Event.isWin +
        ((new invocation).run schedule).tally Event.isRefusal ≤
      ((new invocation).run schedule).tally Event.isRunCall := by
  have hruns := runCall_kept.run invocation schedule
  simp only [Balance.At, wins_or_refusals_eq] at hruns
  omega

theorem wins_le_runCalls (invocation : Invocation) (schedule : List Turn) :
    ((new invocation).run schedule).tally Event.isWin ≤
      ((new invocation).run schedule).tally Event.isRunCall := by
  have hruns := wins_add_refusals_le_runCalls invocation schedule
  omega

/-- The cells of a worker on which no call is in progress. -/
structure Settled (shared : Shared) : Prop where
  inactive : shared.worker.nativeActive = false
  requests : shared.worker.stopRequests = shared.tally Event.isStopCall
  -- After a launch the outcome is what the launcher answered, whatever was recorded in between.
  launched : 0 < shared.tally Event.isEntry →
    shared.worker.launches = 1 ∧ shared.worker.state = .stopped ∧
      shared.tally Event.isExit = 1 ∧ ∀ thread result, .left thread result ∈ shared.past →
        shared.worker.outcome = some (match result with
          | .ok status => .exited status
          | .error failure => .bridgeFailed failure.message)
  unlaunched : shared.tally Event.isEntry = 0 →
    shared.worker.launches = 0 ∧
      shared.worker.outcome =
        if 0 < shared.tally Event.isRunCall + shared.tally Event.isStopCall then some .skipped
        else none

/-! ## Refusals and cancellations -/

theorem skips_eq (shared : Shared) :
    shared.tally Event.isSkip = shared.tally Event.isRefusal + shared.tally Event.isForgoing := by
  have hkinds : Event.isSkip = fun event => event.isRefusal || event.isForgoing := by
    funext event
    cases event <;> rfl
  rw [hkinds]
  refine shared.tally_or ?_
  intro event hrefusal
  cases event <;> first | rfl | cases hrefusal

/-- A worker that no run has won is stopped by a stop in time, or by a run that has come back. -/
theorem forestalling_cases {thread : Nat} {worker : Worker} {stage : Stage} {progress : Progress}
    {event : Event} (h : stage.Takes thread worker progress) (hevent : event ∈ progress.events)
    (hkind : event.isForestalling = true) :
    event.isTimelyStop = true ∨ ∃ outcome, stage = .settle outcome := by
  cases h with
  | settle outcome hgoing =>
      exact .inr ⟨outcome, rfl⟩
  | forestall hearly =>
      rcases List.mem_singleton.1 hevent with rfl
      rcases hearly with hstate | hstate <;> exact .inl (by simp [hstate, Event.isTimelyStop])
  | wake notice =>
      cases notice <;> rcases hevent with _ | ⟨_, ⟨⟩⟩ <;> cases hkind
  | _ =>
      rcases hevent with _ | ⟨_, ⟨⟩⟩ <;> cases hkind

/-- Without an exit from the launcher, whoever kept the worker from its launch came in time. -/
theorem timely_of_forestalled {invocation : Invocation} {schedule : List Turn}
    (hexits : ((new invocation).run schedule).tally Event.isExit = 0)
    (hforestalled : 0 < ((new invocation).run schedule).tally Event.isForestalling) :
    0 < ((new invocation).run schedule).tally Event.isTimelyStop := by
  rcases tally_pos_iff.1 hforestalled with ⟨event, hmem, hkind⟩
  rcases exists_takes_of_mem_past hmem (by rintro thread call rfl; cases hkind) with
    ⟨early, thread, stage, progress, ⟨later, rfl⟩, hstage, htakes, hevent⟩
  rcases forestalling_cases htakes hevent hkind with htimely | ⟨outcome, rfl⟩
  · exact tally_pos_iff.2 ⟨event, hmem, htimely⟩
  -- A run that is to record an outcome has it from an exit.
  · have hheld : 0 < ((new invocation).run early).stages.countP
        (fun stage => stage.outcome?.isSome) :=
      List.countP_pos_iff.2 ⟨_, hstage, rfl⟩
    have hconclusions := (accounts invocation early).conclusions
    have hmono := tally_le_run ((new invocation).run early) later Event.isExit
    rw [run_append] at hexits
    omega

/-! ## After the last return -/

section Returned

variable {invocation : Invocation} {schedule : List Turn}

/-- Without calls in progress nothing is held at a stage, so that each balance is between events and
cells. -/
theorem held_of_returned {shared : Shared} (h : shared.calls = []) (held : Stage → Bool) :
    shared.stages.countP held = 0 := by
  simp [stages, h]

theorem inactive_of_returned (h : ((new invocation).run schedule).calls = []) :
    ((new invocation).run schedule).worker.nativeActive = false := by
  cases hflag : ((new invocation).run schedule).worker.nativeActive with
  | false =>
      rfl
  | true =>
      rcases exists_raised invocation schedule hflag with ⟨stage, hmem, _⟩
      simp [stages, h] at hmem

/-- What came back from the launcher was recorded over everything else. -/
theorem outcome_of_left (h : ((new invocation).run schedule).calls = []) {thread : Nat}
    {result : Except Failure ExitStatus}
    (hleft : .left thread result ∈ ((new invocation).run schedule).past) :
    ((new invocation).run schedule).worker.outcome = some (.ofLaunch result) ∧
      ((new invocation).run schedule).worker.state = .stopped := by
  have hexits : 0 < ((new invocation).run schedule).tally (Event.isExitWith (.ofLaunch result)) :=
    tally_pos_iff.2 ⟨_, hleft, by simp [Event.isExitWith]⟩
  have hbalance := (accounts invocation schedule).conclusionsWith (.ofLaunch result)
  rw [held_of_returned h] at hbalance
  have hconclusions :
      0 < ((new invocation).run schedule).tally (Event.isConclusionWith (.ofLaunch result)) := by
    omega
  rcases tally_pos_iff.1 hconclusions with ⟨event, hmem, hkind⟩
  cases event with
  | concluded actor outcome =>
      have houtcome : outcome = .ofLaunch result := by simpa [Event.isConclusionWith] using hkind
      subst houtcome
      exact ⟨outcome_eq_some_iff.2 (.inl ⟨actor, hmem⟩), stopped_of_concluded hmem⟩
  | _ =>
      cases hkind

/-- If nobody was in the launcher, every run was refused. -/
theorem refusals_of_returned (h : ((new invocation).run schedule).calls = [])
    (hentries : ((new invocation).run schedule).tally Event.isEntry = 0) :
    ((new invocation).run schedule).tally Event.isRefusal =
      ((new invocation).run schedule).tally Event.isRunCall := by
  have hwins := (accounts invocation schedule).entries
  have hruns := runCall_kept.run invocation schedule
  rw [held_of_returned h] at hwins
  simp only [Balance.At, held_of_returned h, wins_or_refusals_eq] at hruns
  omega

/-- If nobody was in the launcher, the first stop came in time, and has recorded so. -/
theorem forgoings_of_returned (h : ((new invocation).run schedule).calls = [])
    (hentries : ((new invocation).run schedule).tally Event.isEntry = 0) :
    0 < ((new invocation).run schedule).tally Event.isForgoing ↔
      0 < ((new invocation).run schedule).tally Event.isStopCall := by
  have haccounts := accounts invocation schedule
  have hstops := stopCall_kept.run invocation schedule
  have hforgoings := haccounts.forgoings
  have htimelyStops := haccounts.timelyStops
  simp only [Balance.At, held_of_returned h] at hstops hforgoings htimelyStops
  have hreports : ((new invocation).run schedule).tally Event.isCancelled ≤
      ((new invocation).run schedule).tally Event.isStopReport := by
    refine tally_le_tally _ ?_
    intro event hcancelled
    cases event with
    | returned thread answer =>
        cases answer with
        | stopped report =>
            rfl
        | _ =>
            cases hcancelled
    | _ =>
        cases hcancelled
  constructor
  · intro hforgoing
    omega
  · intro hstop
    have hreport : 0 < ((new invocation).run schedule).tally Event.isStopReport := by omega
    rcases tally_pos_iff.1 hreport with ⟨event, hmem, hkind⟩
    have hstopped : ((new invocation).run schedule).worker.state = .stopped := by
      cases event with
      | returned thread answer =>
          cases answer with
          | stopped report =>
              exact stopped_of_reported hmem
          | _ =>
              cases hkind
      | _ =>
          cases hkind
    have hdecided := haccounts.wins_add_forestallings
    have hwins := haccounts.entries
    have hexits := haccounts.exits
    rw [held_of_returned h] at hwins hexits
    rw [hstopped, decided] at hdecided
    have htimely : 0 < ((new invocation).run schedule).tally Event.isTimelyStop :=
      timely_of_forestalled (by omega) (by omega)
    omega

/-- Once every call has returned, the cells are right. -/
theorem settled_of_returned (h : ((new invocation).run schedule).calls = []) :
    Settled ((new invocation).run schedule) := by
  have haccounts := accounts invocation schedule
  have hentries := haccounts.entries
  have hexits := haccounts.exits
  have hlaunches := haccounts.launches
  rw [held_of_returned h] at hentries hexits hlaunches
  refine ⟨inactive_of_returned h, ?_, ?_, ?_⟩
  · have hrequests := request_kept.run invocation schedule
    simp only [Balance.At, held_of_returned h, tally_false] at hrequests
    omega
  · intro hentered
    have hwins := haccounts.wins_le_one
    have hexit : 0 < ((new invocation).run schedule).tally Event.isExit := by omega
    refine ⟨by omega, ?_, by omega, ?_⟩
    · rcases tally_pos_iff.1 hexit with ⟨event, hmem, hkind⟩
      cases event with
      | left thread result =>
          exact (outcome_of_left h hmem).2
      | _ =>
          cases hkind
    · intro thread result hleft
      rw [(outcome_of_left h hleft).1]
      cases result <;> rfl
  · intro hnever
    have hconclusions := haccounts.conclusions_le_wins
    have hrefusals := refusals_of_returned h hnever
    have hforgoings := forgoings_of_returned h hnever
    have hskips := skips_eq ((new invocation).run schedule)
    refine ⟨by omega, ?_⟩
    by_cases hcalled : 0 < ((new invocation).run schedule).tally Event.isRunCall +
        ((new invocation).run schedule).tally Event.isStopCall
    · rw [if_pos hcalled]
      exact outcome_eq_some_iff.2 (.inr ⟨by omega, by omega, rfl⟩)
    · rw [if_neg hcalled, Option.eq_none_iff_forall_ne_some]
      intro outcome houtcome
      rcases outcome_eq_some_iff.1 houtcome with ⟨thread, hmem⟩ | ⟨_, hskip, _⟩
      · have hconcluded : 0 < ((new invocation).run schedule).tally Event.isConclusion :=
          tally_pos_iff.2 ⟨_, hmem, rfl⟩
        omega
      · omega

end Returned

/-- A refused run, whose skip the launch replaces, and a stop that came too late. -/
theorem settled_refusedMeanwhile :
    ((new ⟨"limbo_bridge", "server.toml", []⟩).run
      (refusedMeanwhile ++ .call 1 .stop :: alone 1 ++ .comeBack 0 (.ok ⟨3⟩) :: alone 0)).calls =
        [] ∧
      Settled ((new ⟨"limbo_bridge", "server.toml", []⟩).run
        (refusedMeanwhile ++ .call 1 .stop :: alone 1 ++ .comeBack 0 (.ok ⟨3⟩) :: alone 0)) ∧
      ((new ⟨"limbo_bridge", "server.toml", []⟩).run
        (refusedMeanwhile ++ .call 1 .stop :: alone 1)).worker.outcome = some .skipped ∧
      ((new ⟨"limbo_bridge", "server.toml", []⟩).run
        (refusedMeanwhile ++ .call 1 .stop :: alone 1 ++
          .comeBack 0 (.ok ⟨3⟩) :: alone 0)).worker.outcome = some (.exited ⟨3⟩) :=
  ⟨rfl, settled_of_returned rfl, rfl, rfl⟩

end Shared
end Worker
end NativeLaunch
