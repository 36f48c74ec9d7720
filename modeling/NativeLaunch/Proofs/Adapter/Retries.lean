import NativeLaunch.Proofs.Adapter.Histories
import NativeLaunch.Proofs.Adapter.SingleLaunch

/-!
# Inits that fail on the data directory

An init sees to the data directory before it makes anything else, so that nothing is left of one that
fails there but what became of the files.  This file defines:

* `Unprepared` — every init so far has failed on the data directory;
* `Idle` and `Drifts` — a plugin that has nothing to run, and what can change of one meanwhile;
* `Retriable` — what has failed makes no difference to what comes.

However many inits have failed, and whatever else has occurred between them, the plugin is one that
nothing has happened to, over what its surroundings have become (`retriable`).
-/

namespace NativeLaunch
namespace Plugin

open Adapter.Hosted

variable {Held : Type}

/-- Every init that was put down has failed on the data directory. -/
def Unprepared (log : List Entry) : Prop :=
  ∀ result, .initialized result ∈ log → ∃ path, result = .error (.dataDirectory path)

/-- Nothing is left of what has failed, and whatever comes is as it would be for a new plugin. -/
structure Retriable (launcher : Launcher Held) (host : PluginHost) (settings : List Adapter.Setting)
    (executor : Executor) (failed : Logged Held) : Prop where
  worker : failed.plugin.adapter.worker = none
  state : failed.plugin.adapter.state = .notStarted
  task : failed.plugin.adapter.task = false
  unsubmitted : ∀ answer, .submitted answer ∉ failed.log
  submissions : failed.plugin.executor.submissions = executor.submissions
  cancellations : failed.plugin.executor.cancellations = executor.cancellations
  queued : failed.plugin.executor.queued ≤ executor.queued
  again : ∀ future, failed.run launcher future =
    { plugin := ((fresh host settings failed.plugin.executor failed.plugin.held
        failed.plugin.world).logged.run launcher future).plugin
      log := ((fresh host settings failed.plugin.executor failed.plugin.held
        failed.plugin.world).logged.run launcher future).log ++ failed.log }

/-! ## Idle plugins -/

/-- There is no worker, nor anything that comes with one. -/
structure Idle (plugin : Plugin Held) : Prop where
  worker : plugin.adapter.worker = none
  task : plugin.adapter.task = false
  waiting : plugin.waiting = false

/-- The surroundings may have changed, and jobs that were kept may be gone. -/
structure Drifts (before after : Plugin Held) : Prop where
  adapter : after.adapter = before.adapter
  waiting : after.waiting = before.waiting
  submissions : after.executor.submissions = before.executor.submissions
  cancellations : after.executor.cancellations = before.executor.cancellations
  queued : after.executor.queued ≤ before.executor.queued

section Drifting

variable {before between after : Plugin Held}

theorem Drifts.refl (plugin : Plugin Held) : Drifts plugin plugin :=
  ⟨rfl, rfl, rfl, rfl, Nat.le_refl _⟩

theorem Drifts.trans (h : Drifts before between) (hnext : Drifts between after) :
    Drifts before after where
  adapter := hnext.adapter.trans h.adapter
  waiting := hnext.waiting.trans h.waiting
  submissions := hnext.submissions.trans h.submissions
  cancellations := hnext.cancellations.trans h.cancellations
  queued := Nat.le_trans hnext.queued h.queued

theorem Idle.of_drifts (h : Idle before) (hdrifts : Drifts before after) : Idle after := by
  refine ⟨?_, ?_, ?_⟩
  · rw [hdrifts.adapter]
    exact h.worker
  · rw [hdrifts.adapter]
    exact h.task
  · rw [hdrifts.waiting]
    exact h.waiting

theorem idle_fresh (host : PluginHost) (settings : List Adapter.Setting) (executor : Executor)
    (held : Held) (world : World) : Idle (fresh host settings executor held world) := by
  refine ⟨Adapter.worker_configured host settings, ?_, rfl⟩
  rw [fresh, Adapter.configured_eq]

end Drifting

/-! ## One happening -/

variable (launcher : Launcher Held) {plugin : Plugin Held}

theorem drifts_init {path : Path} (hfails : (plugin.init launcher).1 = .error (.dataDirectory path)) :
    Drifts plugin (plugin.init launcher).2 := by
  have hinits := inits launcher plugin
  rw [hfails] at hinits
  generalize (plugin.init launcher).2 = after at hinits
  cases hinits with
  | unprepared left _ _ =>
      exact ⟨rfl, rfl, rfl, rfl, Nat.le_refl _⟩

theorem drifts_dropJob (plugin : Plugin Held) : Drifts plugin plugin.dropJob.2 := by
  rw [dropJob_eq]
  exact ⟨rfl, rfl, rfl, rfl, Nat.sub_le _ _⟩

/-- A job that finds no worker is gone like one that was forgotten. -/
theorem Idle.runJob_eq (h : Idle plugin) : (plugin.runJob launcher).2 = plugin.dropJob.2 := by
  unfold runJob dropJob
  split
  · rfl
  · simp [runWorker, h.worker]

/-- Without a worker a shutdown has the launcher clean up, and does nothing else. -/
theorem shutdown_of_none (hworker : plugin.adapter.worker = none)
    (htask : plugin.adapter.task = false) :
    plugin.shutdown launcher = plugin.releaseArtifacts launcher := by
  have hasked : (plugin.updateWorker fun worker => worker.stop.2) = plugin := by
    rw [updateWorker, Adapter.updateWorker, hworker, Option.map_none, ← hworker]
  unfold shutdown
  rw [hasked, cancelTask, if_neg (by simp [htask])]

theorem Idle.drifts_shutdown (h : Idle plugin) : Drifts plugin (plugin.shutdown launcher) := by
  rw [shutdown_of_none launcher h.worker h.task]
  exact ⟨rfl, rfl, rfl, rfl, Nat.le_refl _⟩

theorem Idle.drifts_occur (h : Idle plugin) {occurrence : Occurrence}
    (hfails : occurrence = .init →
      ∃ path, (plugin.init launcher).1 = .error (.dataDirectory path)) :
    Drifts plugin (occur launcher plugin occurrence) := by
  cases occurrence with
  | init =>
      rcases hfails rfl with ⟨path, hpath⟩
      exact drifts_init launcher hpath
  | shutdown =>
      exact h.drifts_shutdown launcher
  | runJob =>
      rw [occur, h.runJob_eq launcher]
      exact drifts_dropJob plugin
  | dropJob =>
      exact drifts_dropJob plugin
  | complete status =>
      simp only [occur, complete, h.waiting]
      exact .refl plugin

/-! ## Whole histories -/

variable {failed : Logged Held} {happening : Happening} {history : List Happening}

theorem Unprepared.of_step (h : Unprepared (failed.step launcher happening).log) :
    Unprepared failed.log := by
  intro result hmem
  refine h result ?_
  cases happening with
  | occurs occurrence =>
      exact List.mem_append_right _ hmem
  | outside world answer runsInline =>
      exact hmem

theorem Idle.drifts_step (h : Idle failed.plugin)
    (hfails : Unprepared (failed.step launcher happening).log) :
    Drifts failed.plugin (failed.step launcher happening).plugin := by
  cases happening with
  | outside world answer runsInline =>
      exact ⟨rfl, rfl, rfl, rfl, Nat.le_refl _⟩
  | occurs occurrence =>
      refine h.drifts_occur launcher ?_
      rintro rfl
      exact hfails _ List.mem_cons_self

/-- Nothing is submitted where the count stays. -/
theorem unsubmitted_step (hdrifts : Drifts failed.plugin (failed.step launcher happening).plugin)
    (hnone : ∀ answer, Entry.submitted answer ∉ failed.log) (answer : Submission) :
    .submitted answer ∉ (failed.step launcher happening).log := by
  cases happening with
  | outside world other runsInline =>
      exact hnone answer
  | occurs occurrence =>
      have hcount : (occur launcher failed.plugin occurrence).executor.submissions =
          failed.plugin.executor.submissions := hdrifts.submissions
      cases occurrence <;> simp [Logged.step, entries, hcount, hnone]

theorem Idle.drifts_run (h : Idle plugin)
    (hfails : Unprepared (plugin.logged.run launcher history).log) :
    Drifts plugin (plugin.logged.run launcher history).plugin ∧
      ∀ answer, .submitted answer ∉ (plugin.logged.run launcher history).log := by
  induction history using List.reverseRecOn with
  | nil =>
      exact ⟨.refl plugin, by simp [logged]⟩
  | append_singleton history last ih =>
      rw [Logged.run_concat] at hfails ⊢
      rcases ih (hfails.of_step launcher) with ⟨hdrifts, hnone⟩
      have hlast := (h.of_drifts hdrifts).drifts_step launcher hfails
      exact ⟨hdrifts.trans hlast, unsubmitted_step launcher hlast hnone⟩

/-- Inits that fail on the data directory can be retried as if they had not happened. -/
theorem retriable (host : PluginHost) (settings : List Adapter.Setting) (executor : Executor)
    (held : Held) (world : World) (history : List Happening)
    (hfails : Unprepared
      ((fresh host settings executor held world).logged.run launcher history).log) :
    Retriable launcher host settings executor
      ((fresh host settings executor held world).logged.run launcher history) := by
  have hfresh := idle_fresh host settings executor held world
  rcases hfresh.drifts_run launcher hfails with ⟨hdrifts, hnone⟩
  have hidle := hfresh.of_drifts hdrifts
  generalize (fresh host settings executor held world).logged.run launcher history = failed at *
  rcases failed with ⟨plugin, log⟩
  have hsame : plugin = fresh host settings plugin.executor plugin.held plugin.world := by
    rcases plugin with ⟨adapter, executor, held, world, waiting⟩
    cases hdrifts.adapter
    cases hdrifts.waiting
    rfl
  refine ⟨hidle.worker, ?_, hidle.task, hnone, hdrifts.submissions, hdrifts.cancellations,
    hdrifts.queued, ?_⟩
  · rw [Adapter.state, hidle.worker]
  · intro future
    rw [Logged.run_log, ← hsame]

/-- A file is in the way to the data directory, at both inits. -/
theorem retriable_besideFile :
    Unprepared ((besideFile (.ofString "/data/x")).logged.run returning
        [.occurs .init, .occurs .shutdown, .occurs .init]).log ∧
      Retriable returning ⟨"proxy", .ofString "/data/x"⟩ [] .thread
        ((besideFile (.ofString "/data/x")).logged.run returning
          [.occurs .init, .occurs .shutdown, .occurs .init]) := by
  have hfails : Unprepared ((besideFile (.ofString "/data/x")).logged.run returning
      [.occurs .init, .occurs .shutdown, .occurs .init]).log := by
    have hlog : ((besideFile (.ofString "/data/x")).logged.run returning
        [.occurs .init, .occurs .shutdown, .occurs .init]).log =
          [.initialized (.error (.dataDirectory (.ofString "/data/x"))),
            .initialized (.error (.dataDirectory (.ofString "/data/x")))] := by
      cbv
    intro result hmem
    refine ⟨.ofString "/data/x", ?_⟩
    rw [hlog] at hmem
    simpa using hmem
  exact ⟨hfails, retriable returning _ [] .thread () _ _ hfails⟩

end Plugin
end NativeLaunch
