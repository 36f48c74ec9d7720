import NativeLaunch.Proofs.Worker.Interleaving

/-!
# Balances of events

Much of what holds under every interleaving is bookkeeping: each launch that was entered was won
before, each flag that was lowered was raised before, and what was begun and not yet finished is
found at the stage of some call in progress.  A `Balance` says so of one kind of event.  It is
checked once for each step that a call can take (`Balance.Kept`) and then holds after every
schedule (`Balance.Kept.run`).

The second half of the file is the balances of a worker, each as an equation between numbers of
events, calls and cells.  Since the state moves forward only, they bound how often each of these
things happens.
-/

namespace NativeLaunch
namespace Worker

/-- Events that earn a unit, events that spend one, and where units are between: held by calls at
some stages, or in stock in the cells. -/
structure Balance where
  earned : Event → Bool
  held : Stage → Bool := fun _ => false
  stock : Worker → Nat := fun _ => 0
  spent : Event → Bool := fun _ => false

namespace Balance

/-- All units earned are held, in stock or spent. -/
def At (balance : Balance) (shared : Shared) : Prop :=
  shared.tally balance.earned =
    shared.stages.countP balance.held + balance.stock shared.worker + shared.tally balance.spent

/-- The balance starts out even, and neither the beginning of a call nor a step of one upsets it. -/
structure Kept (balance : Balance) : Prop where
  new : ∀ invocation, balance.stock (Worker.new invocation) = 0
  call : ∀ thread call,
    [Event.called thread call].countP balance.earned =
      [call.first].countP balance.held + [Event.called thread call].countP balance.spent
  takes : ∀ {thread worker stage progress}, Stage.Takes thread worker stage progress →
    progress.events.countP balance.earned + [stage].countP balance.held + balance.stock worker =
      progress.next.toList.countP balance.held + balance.stock progress.worker +
        progress.events.countP balance.spent

theorem Kept.run {balance : Balance} (h : balance.Kept) (invocation : Invocation)
    (schedule : List Turn) : balance.At ((Shared.new invocation).run schedule) := by
  apply Shared.run_induction
  · simp [At, Shared.new, Shared.tally, Shared.stages, h.new]
  · intro before after hstep hbefore
    cases hstep with
    | idle =>
        exact hbefore
    | called thread call _ =>
        have hcall := h.call thread call
        simp only [At, Shared.tally, Shared.stages, List.map_cons, List.countP_cons] at hbefore ⊢
        simp only [List.countP_singleton] at hcall
        omega
    | proceeded thread stage progress newer older hsplit _ htakes =>
        -- What the other calls hold stands on both sides.
        have hkept := h.takes htakes
        have hnext : (progress.next.toList.map (Frame.mk thread)).map (·.stage) =
            progress.next.toList := by
          simp [Function.comp_def]
        simp only [At, Shared.tally, Shared.stages, hsplit, List.map_append, List.map_cons, hnext,
          List.countP_append] at hbefore ⊢
        rw [List.countP_cons] at hbefore
        rw [List.countP_singleton] at hkept
        omega

end Balance

/-! ## The balances of a worker

Most steps leave a balance alone, and computing says so.  Apart stand waking those who wait, which
leads to a stage that depends on the notice, and the moves whose event names the state they found.
-/

section Kept

/-- One once anything was decided. -/
def begun : WorkerState → Nat
  | .notStarted => 0
  | _ => 1

/-- One once it is decided whether there will be a launch. -/
def decided : WorkerState → Nat
  | .notStarted => 0
  | .scheduled => 0
  | .running => 1
  | .stopped => 1

/-- One while the state says that the launch is going on. -/
def going : WorkerState → Nat
  | .running => 1
  | _ => 0

theorem decision_kept :
    Balance.Kept { earned := Event.isDecision, stock := fun worker => decided worker.state } where
  new _ := rfl
  call _ _ := rfl
  takes h := by
    cases h with
    | wake notice =>
        cases notice <;> rfl
    | settle outcome hgoing =>
        rename_i worker
        cases hstate : worker.state <;>
          simp_all [Event.isDecision, Event.isWin, Event.isForestalling, decided]
    | forestall early =>
        rcases early with hstate | hstate <;>
          simp [Event.isDecision, Event.isWin, Event.isForestalling, decided, hstate]
    | _ =>
        simp_all [Event.isDecision, Event.isWin, Event.isForestalling, decided, comeBack]

theorem firstMove_kept :
    Balance.Kept { earned := Event.isFirstMove, stock := fun worker => begun worker.state } where
  new _ := rfl
  call _ _ := rfl
  takes h := by
    cases h with
    | wake notice =>
        cases notice <;> rfl
    | settle outcome hgoing =>
        rename_i worker
        cases hstate : worker.state <;> simp_all [Event.isFirstMove, begun]
    | forestall early =>
        rcases early with hstate | hstate <;> simp [Event.isFirstMove, begun, hstate]
    | _ =>
        simp_all [Event.isFirstMove, begun, comeBack]

theorem marking_kept :
    Balance.Kept
      { earned := Event.isMarking
        held := fun stage => stage = .announce .scheduled
        spent := Event.isMarked } where
  new _ := rfl
  call _ call := by cases call <;> rfl
  takes h := by
    cases h with
    | wake notice =>
        cases notice <;> rfl
    | settle outcome hgoing =>
        rename_i worker
        cases hstate : worker.state <;> simp [Event.isMarking, Event.isMarked]
    | _ =>
        simp_all [Event.isMarking, Event.isMarked, comeBack]

theorem launch_kept :
    Balance.Kept
      { earned := Event.isWin
        held := Stage.isUncounted
        stock := Worker.launches } where
  new _ := rfl
  call _ call := by cases call <;> rfl
  takes h := by
    cases h with
    | wake notice =>
        cases notice <;> rfl
    | _ =>
        simp [Event.isWin, Stage.isUncounted, comeBack, Nat.add_comm]

theorem entry_kept :
    Balance.Kept
      { earned := Event.isWin
        held := Stage.isBeforeLaunch
        spent := Event.isEntry } where
  new _ := rfl
  call _ call := by cases call <;> rfl
  takes h := by
    cases h with
    | wake notice =>
        cases notice <;> rfl
    | _ =>
        simp [Event.isWin, Event.isEntry, Stage.isBeforeLaunch, comeBack]

theorem exit_kept :
    Balance.Kept
      { earned := Event.isEntry
        held := Stage.isInside
        spent := Event.isExit } where
  new _ := rfl
  call _ call := by cases call <;> rfl
  takes h := by
    cases h with
    | wake notice =>
        cases notice <;> rfl
    | _ =>
        simp [Event.isEntry, Event.isExit, Stage.isInside, comeBack]

theorem lowering_kept :
    Balance.Kept
      { earned := Event.isExit
        held := Stage.isLower
        spent := Event.isLowering } where
  new _ := rfl
  call _ call := by cases call <;> rfl
  takes h := by
    cases h with
    | wake notice =>
        cases notice <;> rfl
    | _ =>
        simp [Event.isExit, Event.isLowering, Stage.isLower, comeBack]

theorem conclusion_kept :
    Balance.Kept
      { earned := Event.isExit
        held := fun stage => stage.outcome?.isSome
        spent := Event.isConclusion } where
  new _ := rfl
  call _ call := by cases call <;> rfl
  takes h := by
    cases h with
    | wake notice =>
        cases notice <;> rfl
    | _ =>
        simp [Event.isExit, Event.isConclusion, Stage.outcome?, comeBack]

theorem conclusionWith_kept (outcome : WorkerOutcome) :
    Balance.Kept
      { earned := Event.isExitWith outcome
        held := fun stage => stage.outcome? = some outcome
        spent := Event.isConclusionWith outcome } where
  new _ := rfl
  call _ call := by cases call <;> rfl
  takes h := by
    cases h with
    | wake notice =>
        cases notice <;>
          simp [Notice.advance, Event.isExitWith, Event.isConclusionWith, Stage.outcome?]
    | _ =>
        simp [Event.isExitWith, Event.isConclusionWith, Stage.outcome?, comeBack]

theorem raise_kept :
    Balance.Kept
      { earned := Event.isRaise
        held := Stage.isContending
        spent := fun event => event.isWin || event.isWithdrawal } where
  new _ := rfl
  call _ call := by cases call <;> rfl
  takes h := by
    cases h with
    | wake notice =>
        cases notice <;> rfl
    | _ =>
        simp [Event.isRaise, Event.isWin, Event.isWithdrawal, Stage.isContending, comeBack]

theorem timelyStop_kept :
    Balance.Kept
      { earned := Event.isTimelyStop
        held := Stage.isTimely
        spent := Event.isCancelled } where
  new _ := rfl
  call _ call := by cases call <;> rfl
  takes h := by
    cases h with
    | wake notice =>
        cases notice <;> rfl
    | forestall early =>
        rcases early with hstate | hstate <;>
          simp [Event.isTimelyStop, Event.isCancelled, Stage.isTimely, hstate]
    | look =>
        rename_i worker
        cases hflag : worker.nativeActive <;>
          simp [Event.isTimelyStop, Event.isCancelled, Stage.isTimely, lateReport, hflag]
    | _ =>
        simp [Event.isTimelyStop, Event.isCancelled, Stage.isTimely, comeBack]

theorem forgoing_kept :
    Balance.Kept
      { earned := Event.isForgoing
        held := fun stage => stage = .announce .cancellation
        spent := Event.isCancelled } where
  new _ := rfl
  call _ call := by cases call <;> rfl
  takes h := by
    cases h with
    | wake notice =>
        cases notice <;> rfl
    | look =>
        rename_i worker
        cases hflag : worker.nativeActive <;>
          simp [Event.isForgoing, Event.isCancelled, lateReport, hflag]
    | _ =>
        simp [Event.isForgoing, Event.isCancelled, comeBack]

theorem ending_kept :
    Balance.Kept
      { earned := Event.isWin
        stock := fun worker => going worker.state
        spent := Event.isEnding } where
  new _ := rfl
  call _ _ := rfl
  takes h := by
    cases h with
    | wake notice =>
        cases notice <;> rfl
    | settle outcome hgoing =>
        rename_i worker
        cases hstate : worker.state <;> simp_all [Event.isWin, Event.isEnding, going]
    | forestall early =>
        rcases early with hstate | hstate <;> simp [Event.isWin, Event.isEnding, going, hstate]
    | _ =>
        simp_all [Event.isWin, Event.isEnding, going, comeBack]

end Kept

end Worker
end NativeLaunch
