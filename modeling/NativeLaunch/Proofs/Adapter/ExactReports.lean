import NativeLaunch.Proofs.Adapter.SingleLaunch
import NativeLaunch.Proofs.Adapter.StopsHeeded
import NativeLaunch.Proofs.Worker.LoneRun

/-!
# What the worker of an adapter reports

A worker that is run more than once may report wrongly that no call is in progress, or an outcome
that is not the last.  An adapter runs its worker through the job that it submits, and it submits
one.  So of an adapter's worker the reports are exact: `Exact` says what that means of one moment and
all that follow it, and `exact_reports` proves it of every moment of every schedule, whatever the
executor does with the job.
-/

namespace NativeLaunch
namespace Adapter
namespace Hosted

/-- A call is in the launcher. -/
def inLaunch (hosted : Hosted) : Bool := hosted.cells.calls.any fun call => call.stage.isInside

def outcome? (hosted : Hosted) : Option WorkerOutcome :=
  hosted.cells.adapter.worker.bind (·.outcome)

/-- The reports of the worker, now and later. -/
structure Exact (hosted : Hosted) : Prop where
  active : hosted.inLaunch = true →
    ∃ worker, hosted.cells.adapter.worker = some worker ∧ worker.nativeActive = true
  stopped : ∀ thread, .returned thread (.stopped .alreadyStopped) ∈ hosted.cells.past →
    ∀ later, (hosted.run later).inLaunch = false ∧ (hosted.run later).entries = hosted.entries
  kept : ∀ outcome, hosted.outcome? = some outcome →
    ∀ later, (hosted.run later).outcome? = some outcome
  launched : ∀ outcome, hosted.outcome? = some outcome → 0 < hosted.entries ∨ outcome ≠ .skipped →
    ∃ thread result, .left thread result ∈ hosted.cells.past ∧ outcome = .ofLaunch result
  skipped : hosted.outcome? = some .skipped → ∀ later, (hosted.run later).entries = 0

/-! ## The worker behind the reports -/

section Worker

variable {hosted : Hosted} {shared : Worker.Shared}

theorem inLaunch_of_shared? (h : hosted.cells.shared? = some shared) :
    hosted.inLaunch = shared.inLaunch := by
  rcases Option.map_eq_some_iff.1 h with ⟨worker, _, rfl⟩
  simp [inLaunch, Worker.Shared.inLaunch, Worker.Shared.stages, List.any_map, Function.comp_def]

theorem outcome?_of_shared? (h : hosted.cells.shared? = some shared) :
    hosted.outcome? = shared.worker.outcome := by
  rcases Option.map_eq_some_iff.1 h with ⟨worker, hworker, rfl⟩
  simp [outcome?, hworker]

theorem entries_of_shared? (h : hosted.cells.shared? = some shared) :
    hosted.entries = shared.tally Worker.Event.isEntry := by
  rw [entries, ← Cells.past_of_shared? h]
  rfl

theorem worker_of_shared? (h : hosted.cells.shared? = some shared) :
    hosted.cells.adapter.worker = some shared.worker := by
  rcases Option.map_eq_some_iff.1 h with ⟨worker, hworker, rfl⟩
  exact hworker

theorem exists_shared?_of_outcome? {outcome : WorkerOutcome} (h : hosted.outcome? = some outcome) :
    ∃ shared, hosted.cells.shared? = some shared := by
  rcases Option.bind_eq_some_iff.1 h with ⟨worker, hworker, _⟩
  exact ⟨_, Option.map_eq_some_iff.2 ⟨worker, hworker, rfl⟩⟩

end Worker

/-- The worker is run once at most: it is run by the jobs that were started, and those were
submitted, each after a mark that succeeded. -/
theorem runCalls_le_one (host : PluginHost) (settings : List Setting) (schedule : List Turn) :
    ((new host settings).run schedule).cells.past.countP Worker.Event.isRunCall ≤ 1 := by
  have hledger := ledger host settings schedule
  have hsubmissions := hledger.submissions
  have hjobs := hledger.jobs
  have hruns := hledger.runs
  rcases (lawful host settings schedule).exists_past with ⟨turns, hpast⟩
  have hmarked := (Worker.accounts (configured host settings).invocation turns).marked_le_one
  rw [Worker.Shared.tally, ← hpast] at hmarked
  omega

/-! ## At every moment -/

section Exact

variable {host : PluginHost} {settings : List Setting} {schedule : List Turn}

/-- The worker has gone through a schedule of its own, on which it was run once at most, and goes
through the rest of it while the adapter goes through the rest of its own. -/
theorem exists_lone_run {shared : Worker.Shared}
    (hshared : ((new host settings).run schedule).cells.shared? = some shared)
    (later : List Turn) :
    ∃ early turns,
      shared = (Worker.Shared.new (configured host settings).invocation).run early ∧
      (((new host settings).run schedule).run later).cells.shared? = some (shared.run turns) ∧
      ((Worker.Shared.new (configured host settings).invocation).run (early ++ turns)).tally
        Worker.Event.isRunCall ≤ 1 := by
  rcases (lawful host settings schedule).reachable shared hshared with ⟨early, rfl⟩
  rcases exists_run_of_shared? hshared later with ⟨turns, hturns⟩
  refine ⟨early, turns, rfl, hturns, ?_⟩
  have hone := runCalls_le_one host settings (schedule ++ later)
  rw [run_append, ← Cells.past_of_shared? hturns] at hone
  rw [Worker.Shared.run_append]
  exact hone

theorem exists_active (hlaunch : ((new host settings).run schedule).inLaunch = true) :
    ∃ worker, ((new host settings).run schedule).cells.adapter.worker = some worker ∧
      worker.nativeActive = true := by
  cases hshared : ((new host settings).run schedule).cells.shared? with
  | none =>
      -- Without a worker there is no call on one.
      have hfresh := (lawful host settings schedule).fresh
        ((Cells.shared?_eq_none_iff _).1 hshared)
      simp [inLaunch, hfresh.1] at hlaunch
  | some shared =>
      rcases exists_lone_run hshared [] with ⟨early, turns, rfl, hturns, hlone⟩
      have hmono := Worker.Shared.tally_le_run
        ((Worker.Shared.new (configured host settings).invocation).run early) turns
        Worker.Event.isRunCall
      rw [Worker.Shared.run_append] at hlone
      rw [inLaunch_of_shared? hshared] at hlaunch
      exact ⟨_, worker_of_shared? hshared, Worker.Shared.active_of_lone_run (by omega)
        (Worker.Shared.committed_of_inLaunch hlaunch)⟩

theorem over_of_alreadyStopped {thread : Nat}
    (hreported : .returned thread (.stopped .alreadyStopped) ∈
      ((new host settings).run schedule).cells.past) (later : List Turn) :
    (((new host settings).run schedule).run later).inLaunch = false ∧
      (((new host settings).run schedule).run later).entries =
        ((new host settings).run schedule).entries := by
  cases hshared : ((new host settings).run schedule).cells.shared? with
  | none =>
      have hfresh := (lawful host settings schedule).fresh
        ((Cells.shared?_eq_none_iff _).1 hshared)
      rw [hfresh.2] at hreported
      cases hreported
  | some shared =>
      rcases exists_lone_run hshared later with ⟨early, turns, rfl, hturns, hlone⟩
      have hmono := Worker.Shared.tally_le_run
        ((Worker.Shared.new (configured host settings).invocation).run early) turns
        Worker.Event.isRunCall
      rw [Worker.Shared.run_append] at hlone
      rw [← Cells.past_of_shared? hshared] at hreported
      have hover := Worker.Shared.over_of_lone_run (by omega) hreported
      rw [inLaunch_of_shared? hturns, entries_of_shared? hturns, entries_of_shared? hshared]
      exact ⟨(Worker.Shared.over_run hover turns).1, hover.2 turns⟩

theorem outcome?_run {outcome : WorkerOutcome}
    (houtcome : ((new host settings).run schedule).outcome? = some outcome) (later : List Turn) :
    (((new host settings).run schedule).run later).outcome? = some outcome := by
  rcases exists_shared?_of_outcome? houtcome with ⟨shared, hshared⟩
  rcases exists_lone_run hshared later with ⟨early, turns, rfl, hturns, hlone⟩
  rw [outcome?_of_shared? hshared] at houtcome
  rw [outcome?_of_shared? hturns, ← Worker.Shared.run_append]
  exact Worker.Shared.outcome_of_lone_run hlone (List.prefix_append early turns) houtcome

/-- A worker with a skip recorded for its outcome is never launched. -/
theorem entries_of_skipped
    (hskipped : ((new host settings).run schedule).outcome? = some .skipped) (later : List Turn) :
    (((new host settings).run schedule).run later).entries = 0 := by
  rcases exists_shared?_of_outcome? hskipped with ⟨shared, hshared⟩
  rcases exists_lone_run hshared later with ⟨early, turns, rfl, hturns, hlone⟩
  rw [outcome?_of_shared? hshared] at hskipped
  rw [entries_of_shared? hturns]
  rcases Worker.Shared.outcome_eq_some_iff.1 hskipped with ⟨thread, hconcluded⟩ | ⟨_, hskip, _⟩
  -- No launch comes back with a skip.
  · rcases Worker.Shared.exists_left_of_concluded hconcluded with ⟨_, result, _, hresult⟩
    exact absurd hresult.symm (Worker.ofLaunch_ne_skipped result)
  -- A call that skipped used up the only run, so that none was left to go ahead.
  · have hmono := Worker.Shared.tally_le_run
      ((Worker.Shared.new (configured host settings).invocation).run early) turns
      Worker.Event.isSkip
    rw [← Worker.Shared.run_append] at hmono ⊢
    have hwins := Worker.Shared.wins_of_skip hlone (by omega)
    have hentries := (Worker.accounts (configured host settings).invocation
      (early ++ turns)).entries_le_wins
    omega

/-- Any other outcome is that of a launch that came back. -/
theorem exists_left_of_outcome? {outcome : WorkerOutcome}
    (houtcome : ((new host settings).run schedule).outcome? = some outcome)
    (hlaunched : outcome ≠ .skipped) :
    ∃ thread result, .left thread result ∈ ((new host settings).run schedule).cells.past ∧
      outcome = .ofLaunch result := by
  rcases exists_shared?_of_outcome? houtcome with ⟨shared, hshared⟩
  rcases (lawful host settings schedule).reachable shared hshared with ⟨early, rfl⟩
  rw [outcome?_of_shared? hshared] at houtcome
  rw [← Cells.past_of_shared? hshared]
  rcases Worker.Shared.outcome_eq_some_iff.1 houtcome with ⟨thread, hconcluded⟩ | ⟨_, _, hskipped⟩
  · exact Worker.Shared.exists_left_of_concluded hconcluded
  · exact absurd hskipped hlaunched

end Exact

/-- At every moment of every schedule, what the worker reports is so and stays so. -/
theorem exact_reports (host : PluginHost) (settings : List Setting) (schedule : List Turn) :
    Exact ((new host settings).run schedule) where
  active := exists_active
  stopped _ := over_of_alreadyStopped
  kept _ := outcome?_run
  launched outcome houtcome hlaunched := by
    refine exists_left_of_outcome? houtcome ?_
    rintro rfl
    have hnone := entries_of_skipped houtcome []
    rcases hlaunched with hentered | hother
    · rw [run_nil] at hnone
      omega
    · exact hother rfl
  skipped := entries_of_skipped

end Hosted
end Adapter
end NativeLaunch
