import NativeLaunch.Proofs.Worker.Interleaving

/-!
# Waiting for a worker

Besides those who call a worker there are those who wait for it: for a state of some kind, or for an
outcome.  A wait takes the lock of the state and looks.  If what it waits for is not there, it gives
the lock back and falls asleep in one step, so that no change can come in between; whenever it wakes
up, it looks again.  This file defines:

* `Aim` and `Reply` — what a wait is for, and what it returns;
* `Wait` — one wait, and the steps that it takes;
* `Watched` — a worker with the calls and the waits in progress on it;
* `Watched.step` and `Watched.run` — what a turn does, and a whole schedule of them.

The step in which a call announces a change wakes everyone who is asleep.  A wait can wake up without
that, for no reason or since its time is up, and when that is so is up to the schedule.  A wait that is
made from inside the launcher is one of these as well; its thread's call takes no turn meanwhile.
Waits only look, so that the calls go on as if there were none (`Watched.shared_run`).
-/

namespace NativeLaunch
namespace Worker

/-! ## Aims -/

/-- What a wait is for: a state that is wanted, or an outcome. -/
inductive Aim
  | state (wanted : WorkerState → Bool)
  | exit

/-- What a wait returns: the last state seen, or the outcome if there was one. -/
inductive Reply
  | state (last : WorkerState)
  | exit (outcome : Option WorkerOutcome)
deriving DecidableEq

namespace Aim

/-- Whether what a wait is for is there. -/
def isMet (aim : Aim) (worker : Worker) : Bool :=
  match aim with
  | .state wanted => wanted worker.state
  | .exit => worker.outcome.isSome

/-- What a wait returns that looks at the cells for the last time. -/
def reply (aim : Aim) (worker : Worker) : Reply :=
  match aim with
  | .state _ => .state worker.state
  | .exit => .exit worker.outcome

/-- Two of the cells are all that waits look at. -/
theorem isMet_congr (aim : Aim) {worker other : Worker} (hstate : worker.state = other.state)
    (houtcome : worker.outcome = other.outcome) : aim.isMet worker = aim.isMet other := by
  cases aim with
  | state wanted =>
      simp only [isMet, hstate]
  | exit =>
      simp only [isMet, houtcome]

end Aim

/-! ## Waits -/

/-- Where a wait stands. -/
inductive Watch
  | looking
  -- It keeps in mind what it saw before it fell asleep.
  | asleep (seen : Worker)
  -- It has seen an outcome under the lock, and reads it once more without.
  | collecting
  | done (reply : Reply)
deriving DecidableEq

/-- A wait, and whether the time that it was given is up. -/
structure Wait where
  aim : Aim
  watch : Watch := .looking
  late : Bool := false

namespace Wait

/-- The step that a wait takes by itself. -/
def advance (worker : Worker) (wait : Wait) : Wait :=
  match wait.watch with
  | .looking =>
    if wait.aim.isMet worker then
      match wait.aim with
      | .state _ => { wait with watch := .done (wait.aim.reply worker) }
      | .exit => { wait with watch := .collecting }
    else if wait.late then { wait with watch := .done (wait.aim.reply worker) }
    else { wait with watch := .asleep worker }
  | .collecting => { wait with watch := .done (wait.aim.reply worker) }
  | _ => wait

/-- Whoever is asleep wakes up, and is about to look again. -/
def wake (wait : Wait) : Wait :=
  match wait.watch with
  | .asleep _ => { wait with watch := .looking }
  | _ => wait

/-- The time of a wait is up, unless it is over. -/
def expire (wait : Wait) : Wait :=
  match wait.watch with
  | .done _ => wait
  | _ => { wait with late := true }

/-- The steps that a wait can take, one way each. -/
inductive Advances (worker : Worker) (wait : Wait) : Wait → Prop
  | found (wanted : WorkerState → Bool) (looking : wait.watch = .looking)
      (aim : wait.aim = .state wanted) (met : wait.aim.isMet worker = true) :
      Advances worker wait { wait with watch := .done (wait.aim.reply worker) }
  | noticed (looking : wait.watch = .looking) (aim : wait.aim = .exit)
      (met : wait.aim.isMet worker = true) :
      Advances worker wait { wait with watch := .collecting }
  | gaveUp (looking : wait.watch = .looking) (late : wait.late = true) :
      Advances worker wait { wait with watch := .done (wait.aim.reply worker) }
  | slept (looking : wait.watch = .looking) (unmet : wait.aim.isMet worker = false) :
      Advances worker wait { wait with watch := .asleep worker }
  | collected (collecting : wait.watch = .collecting) :
      Advances worker wait { wait with watch := .done (wait.aim.reply worker) }
  | stay : Advances worker wait wait

theorem advances_advance (worker : Worker) (wait : Wait) :
    Advances worker wait (wait.advance worker) := by
  rcases wait with ⟨aim, watch, late⟩
  cases watch with
  | looking =>
      cases hmet : aim.isMet worker with
      | true =>
          cases aim with
          | state wanted =>
              have h := @Advances.found worker ⟨.state wanted, .looking, late⟩ wanted rfl rfl hmet
              simpa [advance, hmet] using h
          | exit =>
              have h := @Advances.noticed worker ⟨.exit, .looking, late⟩ rfl rfl hmet
              simpa [advance, hmet] using h
      | false =>
          cases late with
          | true =>
              have h := @Advances.gaveUp worker ⟨aim, .looking, true⟩ rfl rfl
              simpa [advance, hmet] using h
          | false =>
              have h := @Advances.slept worker ⟨aim, .looking, false⟩ rfl hmet
              simpa [advance, hmet] using h
  | collecting =>
      exact .collected rfl
  | asleep seen =>
      exact .stay
  | done reply =>
      exact .stay

theorem watch_wake_ne (wait : Wait) (seen : Worker) : wait.wake.watch ≠ .asleep seen := by
  unfold wake
  split <;> simp_all

end Wait

/-! ## Notices -/

def Stage.isNotice : Stage → Bool
  | .announce _ => true
  | _ => false

/-- What waits look at stays as it is, or the change is about to be announced. -/
theorem Stage.Takes.announces {thread : Nat} {worker : Worker} {stage : Stage}
    {progress : Progress} (h : stage.Takes thread worker progress) :
    (progress.worker.state = worker.state ∧ progress.worker.outcome = worker.outcome) ∨
      ∃ notice, progress.next = some (.announce notice) := by
  cases h with
  -- These steps write the state, or the outcome.
  | mark _ => exact .inr ⟨_, rfl⟩
  | start _ => exact .inr ⟨_, rfl⟩
  | settle _ _ => exact .inr ⟨_, rfl⟩
  | stopRunning _ => exact .inr ⟨_, rfl⟩
  | forestall _ => exact .inr ⟨_, rfl⟩
  | skip => exact .inr ⟨_, rfl⟩
  | conclude _ => exact .inr ⟨_, rfl⟩
  | forgo => exact .inr ⟨_, rfl⟩
  | wake notice => cases notice <;> exact .inl ⟨rfl, rfl⟩
  | _ => exact .inl ⟨rfl, rfl⟩

/-- An outcome may be replaced, and is never taken away. -/
theorem Stage.Takes.isSome_outcome {thread : Nat} {worker : Worker} {stage : Stage}
    {progress : Progress} (h : stage.Takes thread worker progress)
    (hsome : worker.outcome.isSome = true) : progress.worker.outcome.isSome = true := by
  have hrecord : ∀ outcome overwrite, (worker.record outcome overwrite).outcome.isSome = true := by
    intro outcome overwrite
    unfold record
    split
    · rfl
    · exact hsome
  cases h with
  | skip => exact hrecord _ _
  | conclude outcome => exact hrecord _ _
  | forgo => exact hrecord _ _
  | wake notice => cases notice <;> exact hsome
  | _ => exact hsome

namespace Shared

/-- Some thread has changed what others may wait for, and has yet to wake them. -/
def NoticeAhead (shared : Shared) : Prop :=
  ∃ thread notice, latest? thread shared.calls = some (.announce notice)

/-- Whether a turn is that of a notice. -/
def notifies (shared : Shared) : Turn → Bool
  | .advance thread => (latest? thread shared.calls).any Stage.isNotice
  | _ => false

/-- A notice stays ahead until its own turn. -/
theorem noticeAhead_step {shared : Shared} {turn : Turn} (h : shared.NoticeAhead)
    (hquiet : shared.notifies turn = false) : (shared.step turn).NoticeAhead := by
  rcases h with ⟨thread, notice, hlatest⟩
  refine ⟨thread, notice, ?_⟩
  cases turn with
  | call other call =>
      by_cases hfree : shared.mayCall other = true
      · have hne : thread ≠ other := by
          rintro rfl
          simp [mayCall, hlatest] at hfree
        simp only [step, hfree, if_true]
        rw [latest?_cons_ne hne, hlatest]
      · simp only [step, hfree, Bool.false_eq_true, if_false]
        exact hlatest
  | advance other =>
      have hne : thread ≠ other := by
        rintro rfl
        simp [notifies, hlatest, Stage.isNotice] at hquiet
      cases hother : latest? other shared.calls with
      | none =>
          simp only [step, hother]
          exact hlatest
      | some stage =>
          rw [step_advance hother]
          simp only [proceed, latest?_replaceLatest_ne hne]
          exact hlatest
  | comeBack other result =>
      by_cases hinside : latest? other shared.calls = some .inside
      · have hne : thread ≠ other := by
          rintro rfl
          rw [hlatest] at hinside
          cases hinside
        simp only [step, hinside, proceed, latest?_replaceLatest_ne hne]
        exact hlatest
      · have hidle : shared.step (.comeBack other result) = shared := by
          unfold step
          split <;> simp_all
        rw [hidle]
        exact hlatest

/-- Every change of what waits look at puts a notice ahead. -/
theorem changes_announced (shared : Shared) (turn : Turn) :
    ((shared.step turn).worker.state = shared.worker.state ∧
        (shared.step turn).worker.outcome = shared.worker.outcome) ∨
      (shared.step turn).NoticeAhead := by
  have hstep : Stepped shared (shared.step turn) := stepped shared turn
  generalize shared.step turn = after at hstep
  cases hstep with
  | idle =>
      exact .inl ⟨rfl, rfl⟩
  | called thread call _ =>
      exact .inl ⟨rfl, rfl⟩
  | proceeded thread stage progress newer older _ hforemost htakes =>
      rcases htakes.announces with hsame | ⟨notice, hnext⟩
      · exact .inl hsame
      · refine .inr ⟨thread, notice, ?_⟩
        rw [hnext]
        exact latest?_split hforemost

theorem isSome_outcome_step {shared : Shared} (turn : Turn)
    (hsome : shared.worker.outcome.isSome = true) :
    (shared.step turn).worker.outcome.isSome = true := by
  have hstep : Stepped shared (shared.step turn) := stepped shared turn
  generalize shared.step turn = after at hstep
  cases hstep with
  | idle =>
      exact hsome
  | called thread call _ =>
      exact hsome
  | proceeded thread stage progress newer older _ _ htakes =>
      exact htakes.isSome_outcome hsome

end Shared

/-! ## Calls and waits together -/

/-- A worker with the calls in progress on it, and all waits that were ever made, in order. -/
structure Watched where
  shared : Shared
  waits : List Wait := []

namespace Watched

/-- Whose turn it is, and what for. -/
inductive Turn
  | work (turn : Worker.Turn)
  | wait (aim : Aim)
  | advance (index : Nat)
  -- A wait wakes up although nobody has woken it.
  | stir (index : Nat)
  | expire (index : Nat)

/-- A new worker that nobody has called or waits for. -/
def new (invocation : Invocation) : Watched := { shared := Shared.new invocation }

/-- What a turn does. -/
def step (watched : Watched) : Turn → Watched
  | .work turn =>
    { shared := watched.shared.step turn
      waits := if watched.shared.notifies turn then watched.waits.map Wait.wake else watched.waits }
  | .wait aim => { watched with waits := watched.waits ++ [{ aim := aim }] }
  | .advance index =>
    { watched with waits := watched.waits.modify index (Wait.advance watched.shared.worker) }
  | .stir index => { watched with waits := watched.waits.modify index Wait.wake }
  | .expire index => { watched with waits := watched.waits.modify index Wait.expire }

/-- What a schedule does. -/
def run (watched : Watched) (schedule : List Turn) : Watched := schedule.foldl step watched

theorem run_concat (watched : Watched) (schedule : List Turn) (turn : Turn) :
    watched.run (schedule ++ [turn]) = (watched.run schedule).step turn := by
  simp [run]

/-- The turn of a call, if it is one. -/
def Turn.work? : Turn → Option Worker.Turn
  | .work turn => some turn
  | _ => none

/-- The calls go their way whether anyone waits or not. -/
theorem shared_run (invocation : Invocation) (schedule : List Turn) :
    ((new invocation).run schedule).shared =
      (Shared.new invocation).run (schedule.filterMap Turn.work?) := by
  induction schedule using List.reverseRecOn with
  | nil =>
      rfl
  | append_singleton schedule turn ih =>
      rw [run_concat, List.filterMap_append]
      cases turn with
      | work turn =>
          have hturn : [Turn.work turn].filterMap Turn.work? = [turn] := rfl
          rw [hturn, Shared.run_concat, ← ih]
          rfl
      | _ =>
          rw [List.filterMap_cons_none rfl, List.filterMap_nil, List.append_nil, ← ih]
          rfl

end Watched

end Worker
end NativeLaunch
