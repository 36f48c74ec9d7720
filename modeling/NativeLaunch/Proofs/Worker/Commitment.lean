import NativeLaunch.Proofs.Worker.Accounts
import NativeLaunch.Proofs.Worker.States

/-!
# Runs that are committed to a launch

From the moment that a run has won until it comes back from the launcher, it is committed: nobody
can keep it from entering the launcher, and nobody else can enter it.  This file defines:

* `Shared.inLaunch` and `Shared.committed` — whether a call is in the launcher, and whether one is
  there or on its way;
* `Shared.Over` — no call is in the launcher and none ever enters it again;
* `Shared.refusedMeanwhile` — a schedule in which a run is refused while another is committed.

For a worker that is stopped, being over is the same as not being committed.
-/

namespace NativeLaunch
namespace Worker
namespace Shared

/-- A call is in the launcher. -/
def inLaunch (shared : Shared) : Bool := shared.stages.any Stage.isInside

/-- A run has won and has not come back from the launcher. -/
def committed (shared : Shared) : Bool := shared.stages.any Stage.isCommitted

/-- No call is in the launcher, and none will enter it. -/
def Over (shared : Shared) : Prop :=
  shared.inLaunch = false ∧
    ∀ later, (shared.run later).tally Event.isEntry = shared.tally Event.isEntry

theorem committed_of_inLaunch {shared : Shared} (h : shared.inLaunch = true) :
    shared.committed = true := by
  rcases List.any_eq_true.1 h with ⟨stage, hmem, hinside⟩
  exact List.any_eq_true.2 ⟨stage, hmem, by simp [Stage.isCommitted, hinside]⟩

/-- One thread marks the worker and runs it into the launcher; another runs it meanwhile and is
refused. -/
def refusedMeanwhile : List Turn :=
  .call 0 .markScheduled :: alone 0 ++ .call 0 .run :: alone 0 ++ .call 1 .run :: alone 1

/-! ## One committed run at a time -/

section Accounts

variable {shared : Shared}

/-- A committed run has won and has not come back, and there is no other. -/
theorem wins_of_committed (h : Accounts shared) (hcommitted : shared.committed = true) :
    shared.tally Event.isWin = 1 ∧ shared.tally Event.isExit = 0 := by
  rcases List.any_eq_true.1 hcommitted with ⟨stage, hmem, hstage⟩
  have hwins := h.wins_le_one
  have hentries := h.entries
  have hexits := h.exits
  -- On its way or inside, it is a win without an exit, and one win is all there is.
  rcases Bool.or_eq_true_iff.1 hstage with hbefore | hinside
  · have hpos : 0 < shared.stages.countP Stage.isBeforeLaunch :=
      List.countP_pos_iff.2 ⟨stage, hmem, hbefore⟩
    omega
  · have hpos : 0 < shared.stages.countP Stage.isInside :=
      List.countP_pos_iff.2 ⟨stage, hmem, hinside⟩
    omega

/-- Where no run is committed, every run that won has been in the launcher. -/
theorem entries_of_not_committed (h : Accounts shared) (hcommitted : shared.committed = false) :
    shared.tally Event.isEntry = shared.tally Event.isWin := by
  have hnone : shared.stages.countP Stage.isBeforeLaunch = 0 := by
    rw [List.countP_eq_zero]
    intro stage hmem hbefore
    have hany : shared.committed = true :=
      List.any_eq_true.2 ⟨stage, hmem, by simp [Stage.isCommitted, hbefore]⟩
    rw [hcommitted] at hany
    cases hany
  have hentries := h.entries
  omega

end Accounts

/-- A stopped worker has all its decisions behind it. -/
theorem wins_of_stopped {invocation : Invocation} {schedule : List Turn}
    (hstopped : ((new invocation).run schedule).worker.state = .stopped) (later : List Turn) :
    (((new invocation).run schedule).run later).tally Event.isWin =
      ((new invocation).run schedule).tally Event.isWin := by
  have hsum := (accounts invocation schedule).wins_add_forestallings
  have hlater := (accounts invocation (schedule ++ later)).wins_add_forestallings
  rw [run_append, stopped_run hstopped later] at hlater
  rw [hstopped] at hsum
  have hwins := tally_le_run ((new invocation).run schedule) later Event.isWin
  have hforestallings := tally_le_run ((new invocation).run schedule) later Event.isForestalling
  omega

/-! ## The way into the launcher -/

/-- The next step of a thread's latest call adds its events to the past. -/
theorem past_advance {shared : Shared} {thread : Nat} {stage : Stage}
    (h : latest? thread shared.calls = some stage) :
    (shared.step (.advance thread)).past =
      (stage.advance thread shared.worker).events ++ shared.past := by
  rw [step_advance h]
  rfl

theorem latest?_advance {shared : Shared} {thread : Nat} {stage next : Stage}
    (h : latest? thread shared.calls = some stage)
    (hnext : (stage.advance thread shared.worker).next = some next) :
    latest? thread (shared.step (.advance thread)).calls = some next := by
  rw [step_advance h]
  exact latest?_proceed h hnext

theorem entry_of_enter {shared : Shared} {thread : Nat}
    (h : latest? thread shared.calls = some .enter) :
    shared.tally Event.isEntry < (shared.step (.advance thread)).tally Event.isEntry := by
  simp [tally, past_advance h, Stage.advance, List.countP_cons, Event.isEntry]

theorem entry_of_count {shared : Shared} {thread : Nat}
    (h : latest? thread shared.calls = some .count) :
    shared.tally Event.isEntry <
      (shared.run [.advance thread, .advance thread]).tally Event.isEntry := by
  have hnext := entry_of_enter (latest?_advance h rfl)
  have hmono := tally_le_run shared [.advance thread] Event.isEntry
  simp only [run_cons, run_nil] at hmono ⊢
  omega

/-- Left to itself, a run that has won enters the launcher. -/
theorem exists_entry {shared : Shared} {thread : Nat} {stage : Stage}
    (h : latest? thread shared.calls = some stage) (hbefore : stage.isBeforeLaunch = true) :
    ∃ later, shared.tally Event.isEntry < (shared.run later).tally Event.isEntry := by
  cases stage with
  | enter =>
      exact ⟨[.advance thread], entry_of_enter h⟩
  | count =>
      exact ⟨[.advance thread, .advance thread], entry_of_count h⟩
  | announce notice =>
      cases notice with
      | running =>
          refine ⟨[.advance thread, .advance thread, .advance thread], ?_⟩
          have hnext := entry_of_count (latest?_advance h rfl)
          have hmono := tally_le_run shared [.advance thread] Event.isEntry
          simp only [run_cons, run_nil] at hmono hnext ⊢
          omega
      | _ =>
          cases hbefore
  | _ =>
      cases hbefore

/-- For a stopped worker, being over is not being committed. -/
theorem over_iff (invocation : Invocation) (schedule : List Turn)
    (hstopped : ((new invocation).run schedule).worker.state = .stopped) :
    ((new invocation).run schedule).Over ↔
      ((new invocation).run schedule).committed = false := by
  have haccounts := accounts invocation schedule
  constructor
  · rintro ⟨hlaunch, hnever⟩
    rw [committed, List.any_eq_false]
    intro stage hmem hcommitted
    rcases Bool.or_eq_true_iff.1 hcommitted with hbefore | hinside
    -- Nobody can hold up a run on its way: it is its thread's turn that takes it in.
    · rcases List.mem_map.1 hmem with ⟨⟨thread, _⟩, hframe, rfl⟩
      have hlatest := latest?_of_mem (run_suspended invocation schedule) hframe
        (by rintro rfl; cases hbefore)
      rcases exists_entry hlatest hbefore with ⟨later, hentry⟩
      rw [hnever later] at hentry
      exact Nat.lt_irrefl _ hentry
    · have hany : ((new invocation).run schedule).inLaunch = true :=
        List.any_eq_true.2 ⟨stage, hmem, hinside⟩
      rw [hlaunch] at hany
      cases hany
  · intro hcommitted
    refine ⟨?_, ?_⟩
    · cases hlaunch : ((new invocation).run schedule).inLaunch with
      | false =>
          rfl
      | true =>
          rw [committed_of_inLaunch hlaunch] at hcommitted
          cases hcommitted
    -- Every run that won has been in, and no other will win.
    · intro later
      have hbound := (accounts invocation (schedule ++ later)).entries_le_wins
      rw [run_append] at hbound
      have hwins := wins_of_stopped hstopped later
      have hentries := entries_of_not_committed haccounts hcommitted
      have hmono := tally_le_run ((new invocation).run schedule) later Event.isEntry
      omega

end Shared
end Worker
end NativeLaunch
