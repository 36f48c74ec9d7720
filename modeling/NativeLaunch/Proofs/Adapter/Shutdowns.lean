import NativeLaunch.Proofs.Adapter.Retries

/-!
# Shutdowns over a history

A shutdown asks the worker to stop, cancels the task, and has the launcher clean up, in this order.  A
host may deliver it as often as it likes, before the init or after it, and whatever has become of the
job by then.  This file defines:

* `Worker.Proceeds` and `Plugin.Proceeds` — what can change by anything but a stop request, a
  cancellation or a submission;
* `Shuts` — a shutdown step by step;
* `Tended` — what is known of the worker and its task, by the shutdowns since the worker was made;
* `CancelsOnce` — what a host relies on that shuts down more than once.

Every stop request is counted, and the first stops the worker for good; the task is gone with the first
shutdown that finds it (`cancels_once`).
-/

namespace NativeLaunch

/-! ## Answers -/

namespace Submission

/-- The job was accepted with a task. -/
def givesTask : Submission → Bool
  | .accepted task => task
  | .refused _ => false

/-- The stop requests that an init makes of itself. -/
def refusals : Submission → Nat
  | .accepted _ => 0
  | .refused _ => 1

end Submission

/-! ## Workers -/

namespace Worker

/-- What can change of a worker that is not asked to stop. -/
structure Proceeds (before after : Worker) : Prop where
  invocation : after.invocation = before.invocation
  stopRequests : after.stopRequests = before.stopRequests
  stopped : before.state = .stopped → after.state = .stopped

theorem Proceeds.refl (worker : Worker) : Proceeds worker worker := ⟨rfl, rfl, id⟩

theorem Proceeds.trans {before between after : Worker} (h : Proceeds before between)
    (hnext : Proceeds between after) : Proceeds before after where
  invocation := hnext.invocation.trans h.invocation
  stopRequests := hnext.stopRequests.trans h.stopRequests
  stopped hstopped := hnext.stopped (h.stopped hstopped)

section Steps

variable (worker : Worker)

theorem proceeds_setActive (active : Bool) : Proceeds worker (worker.setActive active) :=
  ⟨rfl, rfl, id⟩

theorem proceeds_countLaunch : Proceeds worker worker.countLaunch := ⟨rfl, rfl, id⟩

theorem proceeds_record (outcome : WorkerOutcome) (overwrite : Bool) :
    Proceeds worker (worker.record outcome overwrite) := by
  refine ⟨by simp, by simp, ?_⟩
  rw [record_state]
  exact id

/-- No edge leads away from the stopped state. -/
theorem proceeds_move (next : WorkerState) : Proceeds worker (worker.move next).2 := by
  unfold move
  split
  · rename_i hallowed
    refine ⟨rfl, rfl, ?_⟩
    intro hstopped
    rw [hstopped] at hallowed
    cases hallowed
  · exact .refl worker

theorem proceeds_begin : Proceeds worker worker.begin.2 := by
  have hmoved := (worker.proceeds_setActive true).trans (proceeds_move _ .running)
  unfold begin
  split
  · rename_i moved hmove
    rw [hmove] at hmoved
    exact hmoved.trans moved.proceeds_countLaunch
  · rename_i raised hmove
    rw [hmove] at hmoved
    exact (hmoved.trans (raised.proceeds_setActive false)).trans (proceeds_record _ _ _)

theorem proceeds_finish (outcome : WorkerOutcome) : Proceeds worker (worker.finish outcome) :=
  ((worker.proceeds_setActive false).trans (proceeds_move _ .stopped)).trans (proceeds_record _ _ _)

theorem stop_of_stopped (h : worker.state = .stopped) : worker.stop.2 = worker.countStop := by
  have hrefused : worker.countStop.move .stopped = (.error .stopped, worker.countStop) := by
    simp [move, h, WorkerState.canMoveTo]
  simp only [stop, hrefused]

theorem stop_counted_stopped :
    worker.stop.2.stopRequests = worker.stopRequests + 1 ∧ worker.stop.2.state = .stopped := by
  cases hstate : worker.state with
  | stopped =>
      rw [worker.stop_of_stopped hstate]
      exact ⟨rfl, hstate⟩
  | _ =>
      simp [stop, move, hstate, WorkerState.canMoveTo, countStop]

end Steps

end Worker

namespace Plugin

open Adapter.Hosted

variable {Held : Type} (launcher : Launcher Held)

/-! ## Everything but shutdowns -/

/-- What can change of a plugin by what neither asks the worker to stop nor touches the task. -/
structure Proceeds (before after : Plugin Held) : Prop where
  worker : Option.Rel Worker.Proceeds before.adapter.worker after.adapter.worker
  task : after.adapter.task = before.adapter.task
  cancellations : after.executor.cancellations = before.executor.cancellations

section Proceeding

variable {plugin after : Plugin Held} {worker other : Worker}

theorem Proceeds.refl (plugin : Plugin Held) : Proceeds plugin plugin := by
  refine ⟨?_, rfl, rfl⟩
  cases plugin.adapter.worker with
  | none =>
      exact .none
  | some worker =>
      exact .some (.refl worker)

theorem proceeds_of_change {change : Worker → Worker}
    (hproceeds : ∀ worker, plugin.adapter.worker = some worker → worker.Proceeds (change worker))
    (hadapter : after.adapter = plugin.adapter.updateWorker change)
    (hcancellations : after.executor.cancellations = plugin.executor.cancellations) :
    Proceeds plugin after := by
  refine ⟨?_, ?_, hcancellations⟩
  · rw [hadapter, Adapter.updateWorker]
    cases hworker : plugin.adapter.worker with
    | none =>
        exact .none
    | some worker =>
        exact .some (hproceeds worker hworker)
  · rw [hadapter, Adapter.updateWorker]

theorem Proceeds.exists_worker (h : Proceeds plugin after)
    (hworker : plugin.adapter.worker = some worker) :
    ∃ other, after.adapter.worker = some other ∧ worker.Proceeds other := by
  have hrel := h.worker
  rw [hworker] at hrel
  generalize after.adapter.worker = reached at hrel
  cases hrel with
  | some hproceeds =>
      exact ⟨_, rfl, hproceeds⟩

theorem Proceeds.worker_eq_none (h : Proceeds plugin after)
    (hworker : plugin.adapter.worker = none) : after.adapter.worker = none := by
  have hrel := h.worker
  rw [hworker] at hrel
  generalize after.adapter.worker = reached at hrel
  cases hrel
  rfl

end Proceeding

theorem proceeds_runWorker (plugin : Plugin Held) : Proceeds plugin (plugin.runWorker launcher) := by
  unfold runWorker
  split
  · exact .refl plugin
  · rename_i worker hworker
    have hbegin := worker.proceeds_begin
    split
    · rename_i skipped hskipped
      rw [hskipped] at hbegin
      refine proceeds_of_change ?_ rfl rfl
      intro other hother
      cases hworker.symm.trans hother
      exact hbegin
    · rename_i running hrunning
      rw [hrunning] at hbegin
      dsimp only
      split
      · refine proceeds_of_change ?_ rfl rfl
        intro other hother
        cases hworker.symm.trans hother
        exact hbegin.trans (running.proceeds_finish _)
      · refine proceeds_of_change ?_ rfl rfl
        intro other hother
        cases hworker.symm.trans hother
        exact hbegin

theorem proceeds_runJob (plugin : Plugin Held) : Proceeds plugin (plugin.runJob launcher).2 := by
  unfold runJob Executor.takeJob?
  split
  · exact .refl plugin
  · rename_i executor htake
    have hworks := proceeds_runWorker launcher { plugin with executor := executor }
    have hcancellations : executor.cancellations = plugin.executor.cancellations := by
      split at htake
      · cases htake
      · cases htake
        rfl
    exact ⟨hworks.worker, hworks.task, hworks.cancellations.trans hcancellations⟩

theorem proceeds_dropJob (plugin : Plugin Held) : Proceeds plugin plugin.dropJob.2 := by
  rw [dropJob_eq]
  exact ⟨(Proceeds.refl plugin).worker, rfl, rfl⟩

theorem proceeds_complete (plugin : Plugin Held) (status : ExitStatus) :
    Proceeds plugin (plugin.complete status) := by
  unfold complete
  split
  · exact proceeds_of_change (fun worker _ => worker.proceeds_finish (.exited status)) rfl rfl
  · exact .refl plugin

theorem proceeds_submit (plugin : Plugin Held) : Proceeds plugin (plugin.submit launcher).2 := by
  unfold submit
  dsimp only
  split
  · have hworks := proceeds_runJob launcher { plugin with executor := plugin.executor.submit.2 }
    exact ⟨hworks.worker, hworks.task, hworks.cancellations⟩
  · exact ⟨(Proceeds.refl plugin).worker, rfl, rfl⟩

/-! ## Shutdowns -/

/-- A shutdown, step by step. -/
structure Shuts (before asked cancelled after : Plugin Held) : Prop where
  asks : asked = before.updateWorker fun worker => worker.stop.2
  cancels : cancelled = asked.cancelTask
  cleansUp : after = cancelled.releaseArtifacts launcher
  -- When a task is cancelled, the worker has been asked to stop by this shutdown, and is stopped.
  ordered : cancelled.executor.cancellations ≠ asked.executor.cancellations →
    ∃ worker, before.adapter.worker = some worker ∧ asked.adapter.worker = some worker.stop.2 ∧
      worker.stop.2.stopRequests = worker.stopRequests + 1 ∧ worker.stop.2.state = .stopped

/-- All that a shutdown does is to count its stop request and to have the launcher clean up once. -/
structure OnlyCounts (before after : Plugin Held) : Prop where
  adapter : after.adapter = before.adapter.updateWorker Worker.countStop
  executor : after.executor = before.executor
  waiting : after.waiting = before.waiting
  released : (after.held, after.world) = (launcher.release before.held before.world).2

section Shutdown

variable (plugin : Plugin Held)

theorem worker_shutdown :
    (plugin.shutdown launcher).adapter.worker =
      plugin.adapter.worker.map fun worker => worker.stop.2 := by
  unfold shutdown cancelTask
  split <;> rfl

theorem task_shutdown : (plugin.shutdown launcher).adapter.task = false := by
  unfold shutdown cancelTask
  split
  · rfl
  · rename_i hnone
    exact (Bool.not_eq_true _).mp hnone

theorem executor_shutdown :
    (plugin.shutdown launcher).executor =
      if plugin.adapter.task then plugin.executor.cancel else plugin.executor := by
  unfold shutdown cancelTask
  have htask : (plugin.updateWorker fun worker => worker.stop.2).adapter.task = plugin.adapter.task :=
    rfl
  rw [htask]
  split <;> rfl

end Shutdown

/-! ## Histories -/

def Happening.isShutdown : Happening → Bool
  | .occurs .shutdown => true
  | _ => false

/-- How many shutdowns there are in a history. -/
def shutdowns (history : List Happening) : Nat := history.countP Happening.isShutdown

/-- A plugin after a history. -/
def following (plugin : Plugin Held) (history : List Happening) : Plugin Held :=
  (plugin.logged.run launcher history).plugin

/-- There is no worker, nothing was submitted, and nothing cancelled. -/
structure Untended (executor : Executor) (plugin : Plugin Held) : Prop where
  worker : plugin.adapter.worker = none
  task : plugin.adapter.task = false
  submissions : plugin.executor.submissions = executor.submissions
  cancellations : plugin.executor.cancellations = executor.cancellations

/-- The worker was made, its job was submitted with some answer, and this is how things stand after what
came later. -/
structure Tended (executor : Executor) (answer : Submission) (later : List Happening)
    (plugin : Plugin Held) : Prop where
  -- Each shutdown since the worker was made is counted, and a refusal of its job.
  worker : ∃ worker, plugin.adapter.worker = some worker ∧
    worker.stopRequests = shutdowns later + answer.refusals ∧
    (0 < worker.stopRequests → worker.state = .stopped)
  task : plugin.adapter.task = (answer.givesTask && decide (shutdowns later = 0))
  -- One job is ever submitted, and its task cancelled once if a shutdown has come.
  submissions : plugin.executor.submissions = executor.submissions + 1
  cancellations : plugin.executor.cancellations =
    executor.cancellations + if answer.givesTask = true ∧ 0 < shutdowns later then 1 else 0

/-- What a host relies on that delivers a history of events. -/
inductive CancelsOnce (start : Plugin Held) (history : List Happening) : Prop
  | unmade (untended : Untended start.executor (start.following launcher history))
      (idle : (start.following launcher history).shutdown launcher =
        (start.following launcher history).releaseArtifacts launcher)
  | made (earlier later : List Happening) (split : history = earlier ++ .occurs .init :: later)
      (first : (start.following launcher earlier).adapter.worker = none)
      (tended : Tended start.executor (start.following launcher earlier).executor.answer later
        (start.following launcher history))
      -- A shutdown that comes now stops the worker before it cancels the task.
      (orderly : ∃ asked cancelled, Shuts launcher (start.following launcher history) asked cancelled
        ((start.following launcher history).shutdown launcher))
      (harmless : 0 < shutdowns later → OnlyCounts launcher (start.following launcher history)
        ((start.following launcher history).shutdown launcher))

section Steps

variable {executor : Executor} {answer : Submission} {later : List Happening} {plugin after : Plugin Held}
  {happening : Happening}

theorem shutdowns_concat (later : List Happening) (happening : Happening) :
    shutdowns (later ++ [happening]) = shutdowns later + happening.isShutdown.toNat := by
  rw [shutdowns, List.countP_append, List.countP_singleton, shutdowns]
  cases happening.isShutdown <;> rfl

theorem Untended.of_proceeds (h : Untended executor plugin) (hproceeds : Proceeds plugin after)
    (hsubmissions : after.executor.submissions = plugin.executor.submissions) :
    Untended executor after where
  worker := hproceeds.worker_eq_none h.worker
  task := hproceeds.task.trans h.task
  submissions := hsubmissions.trans h.submissions
  cancellations := hproceeds.cancellations.trans h.cancellations

theorem Tended.of_proceeds (h : Tended executor answer later plugin)
    (hproceeds : Proceeds plugin after)
    (hsubmissions : after.executor.submissions = plugin.executor.submissions)
    (hother : happening.isShutdown = false) :
    Tended executor answer (later ++ [happening]) after := by
  have hsame : shutdowns (later ++ [happening]) = shutdowns later := by
    rw [shutdowns_concat, hother]
    rfl
  rcases h.worker with ⟨worker, hworker, hcounted, hstopped⟩
  rcases hproceeds.exists_worker hworker with ⟨reached, hreached, hkept⟩
  refine ⟨⟨reached, hreached, ?_, ?_⟩, ?_, ?_, ?_⟩
  · rw [hkept.stopRequests, hcounted, hsame]
  · intro hasked
    exact hkept.stopped (hstopped (hkept.stopRequests ▸ hasked))
  · rw [hproceeds.task, h.task, hsame]
  · rw [hsubmissions, h.submissions]
  · rw [hproceeds.cancellations, h.cancellations, hsame]

theorem Tended.shutdown (h : Tended executor answer later plugin) :
    Tended executor answer (later ++ [.occurs .shutdown]) (plugin.shutdown launcher) := by
  have hmore : shutdowns (later ++ [.occurs .shutdown]) = shutdowns later + 1 := shutdowns_concat _ _
  rcases h.worker with ⟨worker, hworker, hcounted, _⟩
  rcases worker.stop_counted_stopped with ⟨hcount, hstate⟩
  refine ⟨⟨worker.stop.2, ?_, ?_, fun _ => hstate⟩, ?_, ?_, ?_⟩
  · rw [worker_shutdown, hworker, Option.map_some]
  · rw [hcount, hcounted, hmore]
    omega
  · rw [task_shutdown, hmore]
    simp
  · rw [executor_shutdown, ← h.submissions]
    split <;> rfl
  · rw [executor_shutdown, h.task, hmore]
    have hcancellations := h.cancellations
    -- The task is there if it was given and this is the first shutdown.
    by_cases hgives : answer.givesTask = true
    · by_cases hnone : shutdowns later = 0
      · simpa [hgives, hnone, Executor.cancel] using hcancellations
      · simpa [hgives, hnone, Nat.pos_of_ne_zero hnone] using hcancellations
    · simpa [hgives] using hcancellations

/-- A shutdown of a worker that was stopped, with no task left, only counts. -/
theorem onlyCounts_shutdown {worker : Worker} (hworker : plugin.adapter.worker = some worker)
    (hstopped : worker.state = .stopped) (htask : plugin.adapter.task = false) :
    OnlyCounts launcher plugin (plugin.shutdown launcher) := by
  have hasked : (plugin.updateWorker fun worker => worker.stop.2) =
      plugin.updateWorker Worker.countStop := by
    simp only [updateWorker, Adapter.updateWorker, hworker, Option.map_some,
      worker.stop_of_stopped hstopped]
  have hsame : (plugin.updateWorker Worker.countStop).cancelTask =
      plugin.updateWorker Worker.countStop := if_neg (by simp [updateWorker, Adapter.updateWorker, htask])
  unfold shutdown
  rw [hasked, hsame]
  exact ⟨rfl, rfl, rfl, rfl⟩

theorem exists_shuts {worker : Worker} (hworker : plugin.adapter.worker = some worker) :
    ∃ asked cancelled, Shuts launcher plugin asked cancelled (plugin.shutdown launcher) := by
  refine ⟨_, _, rfl, rfl, rfl, ?_⟩
  intro _
  rcases worker.stop_counted_stopped with ⟨hcount, hstate⟩
  refine ⟨worker, hworker, ?_, hcount, hstate⟩
  simp [updateWorker, Adapter.updateWorker, hworker]

/-- What is neither an init nor a shutdown asks for no stop, and cancels and submits nothing. -/
theorem proceeds_step (before : Logged Held) (hinit : happening ≠ .occurs .init)
    (hother : happening.isShutdown = false) :
    Proceeds before.plugin (before.step launcher happening).plugin ∧
      (before.step launcher happening).plugin.executor.submissions =
        before.plugin.executor.submissions := by
  cases happening with
  | outside world answer runsInline =>
      exact ⟨⟨(Proceeds.refl before.plugin).worker, rfl, rfl⟩, rfl⟩
  | occurs occurrence =>
      have hnoInit : occurrence ≠ .init := by
        rintro rfl
        exact hinit rfl
      refine ⟨?_, (occur_keeps launcher before.plugin hnoInit).2⟩
      cases occurrence with
      | init => exact absurd rfl hnoInit
      | shutdown => cases hother
      | runJob => exact proceeds_runJob launcher before.plugin
      | dropJob => exact proceeds_dropJob before.plugin
      | complete status => exact proceeds_complete before.plugin status

theorem Tended.step {before : Logged Held} (h : Tended executor answer later before.plugin)
    (happening : Happening) :
    Tended executor answer (later ++ [happening]) (before.step launcher happening).plugin := by
  by_cases hinit : happening = .occurs .init
  · subst hinit
    -- An init that finds a worker does nothing.
    rcases h.worker with ⟨worker, hworker, _⟩
    have hignored : (before.plugin.init launcher).2 = before.plugin := by simp [init, hworker]
    refine h.of_proceeds ?_ ?_ rfl
    · rw [Logged.step, occur, hignored]
      exact .refl before.plugin
    · rw [Logged.step, occur, hignored]
  · cases hshutdown : happening.isShutdown with
    | true =>
        cases happening with
        | outside world answer runsInline => cases hshutdown
        | occurs occurrence =>
            cases occurrence with
            | shutdown => exact h.shutdown launcher
            | _ => cases hshutdown
    | false =>
        rcases proceeds_step launcher before hinit hshutdown with ⟨hproceeds, hsubmissions⟩
        exact h.of_proceeds hproceeds hsubmissions hshutdown

/-- An init that makes the worker starts the account of it. -/
theorem Untended.tended_init (h : Untended executor plugin) {made : World}
    (hprepares : plugin.world.ensureDataDirectory plugin.adapter.host.dataDirectory = (.ok (), made)) :
    Tended executor plugin.executor.answer [] (plugin.init launcher).2 := by
  have hproceeds := proceeds_submit launcher (plugin.readied made)
  have hsubmits := submits_submit launcher (plugin.readied made)
  rw [init_of_prepared launcher h.worker hprepares]
  generalize ((plugin.readied made).submit launcher).2 = submitted at hproceeds hsubmits
  have hready : (plugin.readied made).adapter.worker =
      some (Worker.new plugin.adapter.invocation).markScheduled.2 := rfl
  have hunasked : (Worker.new plugin.adapter.invocation).markScheduled.2.stopRequests = 0 := rfl
  rcases hproceeds.exists_worker hready with ⟨worker, hworker, hkept⟩
  have hcount : worker.stopRequests = 0 := hkept.stopRequests.trans hunasked
  have hsubmissions : submitted.executor.submissions = executor.submissions + 1 := by
    rcases hsubmits.executor with ⟨queued, hexecutor⟩
    rw [hexecutor, ← h.submissions]
    rfl
  have hcancellations : submitted.executor.cancellations = executor.cancellations :=
    hproceeds.cancellations.trans h.cancellations
  cases plugin.executor.answer with
  | accepted task =>
      refine ⟨⟨worker, hworker, hcount, ?_⟩, ?_, hsubmissions, ?_⟩
      · rw [hcount]
        exact nofun
      · simp [Submission.givesTask, shutdowns]
      · simpa [shutdowns] using hcancellations
  | refused reason =>
      rcases worker.stop_counted_stopped with ⟨hasked, hstate⟩
      refine ⟨⟨worker.stop.2, ?_, ?_, fun _ => hstate⟩, ?_, hsubmissions, ?_⟩
      · simp [updateWorker, Adapter.updateWorker, hworker]
      · rw [hasked, hcount]
        rfl
      · exact hproceeds.task.trans h.task
      · simpa [shutdowns, updateWorker] using hcancellations

/-- Either there is still no worker, or the happening was the init that made it. -/
theorem Untended.step {before : Logged Held} (h : Untended executor before.plugin)
    (happening : Happening) :
    Untended executor (before.step launcher happening).plugin ∨
      happening = .occurs .init ∧
        Tended executor before.plugin.executor.answer [] (before.step launcher happening).plugin := by
  by_cases hinit : happening = .occurs .init
  · subst hinit
    rcases hprepares : before.plugin.world.ensureDataDirectory
      before.plugin.adapter.host.dataDirectory with ⟨result, left⟩
    cases result with
    | ok made =>
        exact .inr ⟨rfl, h.tended_init launcher hprepares⟩
    | error fault =>
        have hfailed : (before.plugin.init launcher).2 = { before.plugin with world := left } := by
          simp only [init, h.worker, hprepares]
        refine .inl (h.of_proceeds ?_ ?_)
        · rw [Logged.step, occur, hfailed]
          exact ⟨(Proceeds.refl before.plugin).worker, rfl, rfl⟩
        · rw [Logged.step, occur, hfailed]
  · cases hshutdown : happening.isShutdown with
    | true =>
        cases happening with
        | outside world answer runsInline => cases hshutdown
        | occurs occurrence =>
            cases occurrence with
            | shutdown =>
                refine .inl ?_
                rw [Logged.step, occur, shutdown_of_none launcher h.worker h.task]
                exact ⟨h.worker, h.task, h.submissions, h.cancellations⟩
            | _ => cases hshutdown
    | false =>
        rcases proceeds_step launcher before hinit hshutdown with ⟨hproceeds, hsubmissions⟩
        exact .inl (h.of_proceeds hproceeds hsubmissions)

end Steps

section Runs

variable {start : Plugin Held}

theorem following_concat (history : List Happening) (last : Happening) :
    start.following launcher (history ++ [last]) =
      ((start.logged.run launcher history).step launcher last).plugin := by
  rw [following, Logged.run_concat]

theorem untended_or_tended (hnew : Untended start.executor start) (history : List Happening) :
    Untended start.executor (start.following launcher history) ∨
      ∃ earlier later, history = earlier ++ .occurs .init :: later ∧
        (start.following launcher earlier).adapter.worker = none ∧
        Tended start.executor (start.following launcher earlier).executor.answer later
          (start.following launcher history) := by
  induction history using List.reverseRecOn with
  | nil =>
      exact .inl hnew
  | append_singleton history last ih =>
      rw [following_concat]
      rcases ih with huntended | ⟨earlier, later, rfl, hfirst, htended⟩
      · rcases huntended.step launcher last with hstill | ⟨rfl, htended⟩
        · exact .inl hstill
        · exact .inr ⟨history, [], rfl, huntended.worker, htended⟩
      · exact .inr ⟨earlier, later ++ [last], by simp, hfirst, htended.step launcher last⟩

/-- However often a plugin is shut down, its worker is stopped by the first shutdown, the task is
cancelled once, and all that the others do is count. -/
theorem cancels_once (host : PluginHost) (settings : List Adapter.Setting) (executor : Executor)
    (held : Held) (world : World) (history : List Happening) :
    CancelsOnce launcher (fresh host settings executor held world) history := by
  have hidle := idle_fresh host settings executor held world
  rcases untended_or_tended launcher ⟨hidle.worker, hidle.task, rfl, rfl⟩ history with
    huntended | ⟨earlier, later, hsplit, hfirst, htended⟩
  · exact .unmade huntended (shutdown_of_none launcher huntended.worker huntended.task)
  · rcases htended.worker with ⟨worker, hworker, hcounted, hstopped⟩
    refine .made earlier later hsplit hfirst htended (exists_shuts launcher hworker) ?_
    intro hshut
    refine onlyCounts_shutdown launcher hworker (hstopped (by omega)) ?_
    rw [htended.task]
    simp [Nat.pos_iff_ne_zero.1 hshut]

end Runs

end Plugin
end NativeLaunch
