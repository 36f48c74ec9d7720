import NativeLaunch.Proofs.Adapter.Inits

/-!
# Calls on an adapter that nobody interferes with

What a host does to a plugin one thing at a time, by the functions of `Plugin`, is one of the ways
in which the steps of calls interleave: from the state of a plugin, some schedule leads to the state
that the function gives, and ends with its answer (`leads_init`, `leads_shutdown`, `leads_runJob`,
`leads_dropJob`, `leads_complete`).  Hence what is proved of schedules holds of plugins
(`exists_schedule_of_occurrences`).  This file defines:

* `Leads` — some schedule leads from one state to another, whatever has happened to the worker;
* `ofPlugin` — a plugin as an adapter in use;
* `Occurrence` and `occur` — what a host and its executor do, one thing at a time.

A plugin has one job at most that waits in the launcher, and it is said on which thread.
-/

namespace NativeLaunch
namespace Adapter
namespace Hosted

/-! ## Ways from one state to another -/

/-- All but what has happened to the worker. -/
def outline (hosted : Hosted) : Hosted := { hosted with cells := { hosted.cells with past := [] } }

/-- Some schedule leads from one state to the other, whatever has happened to the worker. -/
def Leads (before after : Hosted) : Prop :=
  ∀ hosted : Hosted, hosted.outline = before.outline →
    ∃ schedule, (hosted.run schedule).outline = after.outline

theorem Leads.refl (hosted : Hosted) : Leads hosted hosted := fun _ h => ⟨[], h⟩

theorem Leads.trans {first second third : Hosted} (h : Leads first second)
    (hnext : Leads second third) : Leads first third := by
  intro hosted hfirst
  rcases h hosted hfirst with ⟨schedule, hsecond⟩
  rcases hnext _ hsecond with ⟨later, hthird⟩
  exact ⟨schedule ++ later, by rw [run_append, hthird]⟩

theorem leads_of_run {adapter : Adapter} {calls : List Worker.Frame} {jobs : Nat}
    {frames : List (Nat × Stage)} {past : List Event} {after : Hosted} (schedule : List Turn)
    (h : ∀ workerPast, ((Hosted.mk ⟨adapter, calls, workerPast, jobs⟩ frames past).run
      schedule).outline = after.outline) :
    Leads ⟨⟨adapter, calls, [], jobs⟩, frames, past⟩ after := by
  rintro ⟨⟨_, _, workerPast, _⟩, _, _⟩ hsame
  cases hsame
  exact ⟨schedule, h workerPast⟩

/-! ## Calls on the worker -/

section Steps

variable (host : PluginHost) (name : String) (extra : List String) (task : Bool)
  (worker : Worker) (thread : Nat) (calls : List Worker.Frame)
  (workerPast : List Worker.Event) (jobs : Nat) (rest : List (Nat × Stage)) (past : List Event)

theorem proceed_cons (cells : Cells) (stage : Stage) (progress : Progress) :
    (Hosted.mk cells ((thread, stage) :: rest) past).proceed thread progress =
      ⟨progress.cells, progress.next.toList.map (Prod.mk thread) ++ rest,
        progress.events ++ past⟩ := by
  simp [proceed]

theorem step_advance_cons (cells : Cells) (stage : Stage) :
    (Hosted.mk cells ((thread, stage) :: rest) past).step (.advance thread) =
      (Hosted.mk cells ((thread, stage) :: rest) past).proceed thread
        (stage.advance thread cells (Hosted.mk cells ((thread, stage) :: rest) past).isLocked) := by
  simp [Hosted.step]

/-- While a call waits, its step is that of its call on the worker. -/
theorem step_await {stage : Stage} (hwaits : stage.waits = true) (current : Worker.Stage) :
    (Hosted.mk ⟨⟨host, name, extra, some worker, task⟩, ⟨thread, current⟩ :: calls, workerPast,
        jobs⟩ ((thread, stage) :: rest) past).step (.advance thread) =
      (Hosted.mk ⟨⟨host, name, extra, some worker, task⟩, ⟨thread, current⟩ :: calls, workerPast,
        jobs⟩ ((thread, stage) :: rest) past).proceed thread
        (stage.hear thread
          ⟨⟨host, name, extra, some (current.advance thread worker).worker, task⟩,
            (current.advance thread worker).next.toList.map (⟨thread, ·⟩) ++ calls,
            (current.advance thread worker).events ++ workerPast, jobs⟩
          ((current.advance thread worker).events.findSome? Worker.Event.answer?)) := by
  rw [step_advance_cons]
  have hadvance : ∀ cells locked, stage.advance thread cells locked = stage.await thread cells := by
    cases stage <;> simp_all [Stage.waits, Stage.advance]
  rw [hadvance]
  simp [Stage.await, Cells.heard, Cells.shared?, Cells.work, Cells.put, Worker.latest?,
    Worker.Shared.step, Worker.Shared.proceed, Worker.replaceLatest]

theorem leads_marked (hnew : worker.state = .notStarted) :
    Leads
      ⟨⟨⟨host, name, extra, some worker, task⟩, ⟨thread, .mark⟩ :: calls, [], jobs⟩,
        (thread, .mark) :: rest, past⟩
      ⟨⟨⟨host, name, extra, some worker.markScheduled.2, task⟩, calls, [], jobs⟩,
        (thread, .submit) :: rest, past⟩ := by
  have hwaits : Stage.mark.waits = true := rfl
  refine leads_of_run (List.replicate 2 (.advance thread)) ?_
  intro workerPast
  simp [List.replicate, step_await, hwaits, proceed_cons, Worker.Stage.advance,
    Worker.Notice.advance, Worker.move, hnew, WorkerState.canMoveTo, Worker.markScheduled,
    Worker.Event.answer?, Stage.hear, Stage.resume, outline]

theorem leads_stopped (stage : Stage) (next : Option Stage) (events : List Event)
    (hwaits : stage.waits = true)
    (hresume : ∀ cells report,
      stage.resume thread cells (.stopped report) = ⟨next, cells, events⟩) :
    Leads
      ⟨⟨⟨host, name, extra, some worker, task⟩, ⟨thread, .request⟩ :: calls, [], jobs⟩,
        (thread, stage) :: rest, past⟩
      ⟨⟨⟨host, name, extra, some worker.stop.2, task⟩, calls, [], jobs⟩,
        next.toList.map (Prod.mk thread) ++ rest, events ++ past⟩ := by
  -- How many steps the stop takes depends on the state that it finds.
  cases hstate : worker.state with
  | running =>
      refine leads_of_run (List.replicate 4 (.advance thread)) ?_
      intro workerPast
      simp [List.replicate, step_await, hwaits, proceed_cons, Worker.Stage.advance,
        Worker.Notice.advance, Worker.move, hstate, WorkerState.canMoveTo, Worker.stop,
        Worker.Event.answer?, Stage.hear, hresume, outline]
  | stopped =>
      refine leads_of_run (List.replicate 3 (.advance thread)) ?_
      intro workerPast
      simp [List.replicate, step_await, hwaits, proceed_cons, Worker.Stage.advance,
        Worker.move, hstate, WorkerState.canMoveTo, Worker.stop,
        Worker.Event.answer?, Stage.hear, hresume, outline]
  | _ =>
      refine leads_of_run (List.replicate 5 (.advance thread)) ?_
      intro workerPast
      simp [List.replicate, step_await, hwaits, proceed_cons, Worker.Stage.advance,
        Worker.Notice.advance, Worker.move, hstate, WorkerState.canMoveTo, Worker.stop,
        Worker.Event.answer?, Stage.hear, hresume, outline]

theorem leads_begun (hready : worker.begin.1 = true) :
    Leads
      ⟨⟨⟨host, name, extra, some worker, task⟩, ⟨thread, .raise⟩ :: calls, [], jobs⟩,
        (thread, .job) :: rest, past⟩
      ⟨⟨⟨host, name, extra, some worker.begin.2, task⟩, ⟨thread, .inside⟩ :: calls, [], jobs⟩,
        (thread, .job) :: rest, past⟩ := by
  have hwaits : Stage.job.waits = true := rfl
  have hstate : worker.state = .scheduled := by
    cases hstate : worker.state <;>
      simp_all [Worker.begin, Worker.move, WorkerState.canMoveTo]
  refine leads_of_run (List.replicate 5 (.advance thread)) ?_
  intro workerPast
  simp [List.replicate, step_await, hwaits, proceed_cons, Worker.Stage.advance,
    Worker.Notice.advance, Worker.move, hstate, WorkerState.canMoveTo, Worker.begin,
    Worker.Event.answer?, Stage.hear, outline]

theorem leads_skipped (hunready : worker.begin.1 = false) :
    Leads
      ⟨⟨⟨host, name, extra, some worker, task⟩, ⟨thread, .raise⟩ :: calls, [], jobs⟩,
        (thread, .job) :: rest, past⟩
      ⟨⟨⟨host, name, extra, some worker.begin.2, task⟩, calls, [], jobs⟩, rest,
        .returned thread .ranJob :: past⟩ := by
  have hwaits : Stage.job.waits = true := rfl
  have hmove : ∃ found,
      (worker.setActive true).move .running = (.error found, worker.setActive true) := by
    cases hstate : worker.state <;>
      simp_all [Worker.begin, Worker.move, WorkerState.canMoveTo]
  rcases hmove with ⟨found, hmove⟩
  refine leads_of_run (List.replicate 5 (.advance thread)) ?_
  intro workerPast
  simp [List.replicate, step_await, hwaits, proceed_cons, Worker.Stage.advance,
    Worker.Notice.advance, hmove, Worker.begin,
    Worker.Event.answer?, Stage.hear, Stage.resume, returns, outline]

theorem leads_finished (result : Except Failure ExitStatus) :
    Leads
      ⟨⟨⟨host, name, extra, some worker, task⟩, ⟨thread, .inside⟩ :: calls, [], jobs⟩,
        (thread, .job) :: rest, past⟩
      ⟨⟨⟨host, name, extra, some (worker.finish (.ofLaunch result)), task⟩, calls, [], jobs⟩, rest,
        .returned thread .ranJob :: past⟩ := by
  have hwaits : Stage.job.waits = true := rfl
  have hback : ∀ workerPast,
      (Hosted.mk ⟨⟨host, name, extra, some worker, task⟩, ⟨thread, .inside⟩ :: calls, workerPast,
        jobs⟩ ((thread, .job) :: rest) past).step (.comeBack thread result) =
      ⟨⟨⟨host, name, extra, some worker, task⟩, ⟨thread, .lower (.ofLaunch result)⟩ :: calls,
        .left thread result :: workerPast, jobs⟩, (thread, .job) :: rest, past⟩ := by
    intro workerPast
    simp [Hosted.step, proceed, Cells.shared?, Cells.work, Cells.put, Worker.latest?,
      Worker.Shared.step, Worker.Shared.proceed, Worker.replaceLatest, Worker.comeBack]
  cases hstate : worker.state with
  | stopped =>
      refine leads_of_run (.comeBack thread result :: List.replicate 4 (.advance thread)) ?_
      intro workerPast
      simp [hback, List.replicate, step_await, hwaits, proceed_cons, Worker.Stage.advance,
        Worker.Notice.advance, Worker.move, hstate, WorkerState.canMoveTo, Worker.finish,
        Worker.Event.answer?, Stage.hear, Stage.resume, returns, outline]
  | _ =>
      refine leads_of_run (.comeBack thread result :: List.replicate 5 (.advance thread)) ?_
      intro workerPast
      simp [hback, List.replicate, step_await, hwaits, proceed_cons, Worker.Stage.advance,
        Worker.Notice.advance, Worker.move, hstate, WorkerState.canMoveTo, Worker.finish,
        Worker.Event.answer?, Stage.hear, Stage.resume, returns, outline]

end Steps

/-! ## Plugins -/

section Plugins

variable {Held : Type} (launcher : Launcher Held) (plugin : Plugin Held) (job thread : Nat)
  (rest : List (Nat × Stage)) (past : List Event)

/-- A plugin as an adapter in use.  The job that waits in the launcher does so on a thread of its
own. -/
def ofPlugin : Hosted :=
  ⟨⟨plugin.adapter, if plugin.waiting then [⟨job, .inside⟩] else [], [], plugin.executor.queued⟩,
    (if plugin.waiting then [(job, .job)] else []) ++ rest, past⟩

theorem leads_runJob (hidle : plugin.waiting = false) (hmade : plugin.adapter.worker.isSome = true)
    (hfree : rest.lookup job = none) :
    ∃ after, Leads (ofPlugin plugin job rest past)
      (ofPlugin (plugin.runJob launcher).2 job rest after) := by
  rcases plugin with ⟨⟨host, name, extra, worker?, task⟩, executor, held, world, waiting⟩
  cases hidle
  rcases Option.isSome_iff_exists.1 hmade with ⟨worker, rfl⟩
  by_cases hqueued : executor.queued = 0
  · refine ⟨past, ?_⟩
    simpa [Plugin.runJob, Executor.takeJob?, hqueued] using Leads.refl _
  · have hstart : Leads
        ⟨⟨⟨host, name, extra, some worker, task⟩, [], [], executor.queued⟩, rest, past⟩
        ⟨⟨⟨host, name, extra, some worker, task⟩, [⟨job, .raise⟩], [], executor.queued - 1⟩,
          (job, .job) :: rest, .started job :: past⟩ := by
      refine leads_of_run [.start job] ?_
      intro workerPast
      simp [Hosted.step, isFree, hfree, Nat.pos_of_ne_zero hqueued, Cells.takeJob, Cells.work,
        Cells.shared?, Cells.put, Worker.Shared.step, Worker.Shared.mayCall, Worker.latest?,
        Worker.Call.first, outline]
    cases hready : worker.begin.1 with
    | false =>
        have hafter : (Plugin.runJob launcher
            ⟨⟨host, name, extra, some worker, task⟩, executor, held, world, false⟩).2 =
          ⟨⟨host, name, extra, some worker.begin.2, task⟩,
            { executor with queued := executor.queued - 1 }, held, world, false⟩ := by
          rcases hbegin : worker.begin with ⟨ready, begun⟩
          simp_all [Plugin.runJob, Executor.takeJob?, Plugin.runWorker, Plugin.updateWorker,
            updateWorker]
        rw [hafter]
        exact ⟨_, hstart.trans (leads_skipped host name extra task worker job [] _ rest _ hready)⟩
    | true =>
        have hbegun := hstart.trans
          (leads_begun host name extra task worker job [] _ rest _ hready)
        rcases hbegin : worker.begin with ⟨ready, begun⟩
        rcases hlaunch : launcher.launch begun.invocation held world with ⟨result?, kept, left⟩
        rw [hbegin] at hready hbegun
        subst hready
        cases result? with
        | none =>
            have hafter : (Plugin.runJob launcher
                ⟨⟨host, name, extra, some worker, task⟩, executor, held, world, false⟩).2 =
              ⟨⟨host, name, extra, some begun, task⟩,
                { executor with queued := executor.queued - 1 }, kept, left, true⟩ := by
              simp [Plugin.runJob, Executor.takeJob?, hqueued, Plugin.runWorker,
                Plugin.updateWorker, updateWorker, hbegin, hlaunch]
            rw [hafter]
            exact ⟨_, hbegun⟩
        | some result =>
            have hafter : (Plugin.runJob launcher
                ⟨⟨host, name, extra, some worker, task⟩, executor, held, world, false⟩).2 =
              ⟨⟨host, name, extra, some (begun.finish (.ofLaunch result)), task⟩,
                { executor with queued := executor.queued - 1 }, kept, left, false⟩ := by
              simp [Plugin.runJob, Executor.takeJob?, hqueued, Plugin.runWorker,
                Plugin.updateWorker, updateWorker, hbegin, hlaunch]
            rw [hafter]
            exact ⟨_, hbegun.trans
              (leads_finished host name extra task begun job [] _ rest _ result)⟩

theorem leads_dropJob :
    ∃ after, Leads (ofPlugin plugin job rest past) (ofPlugin plugin.dropJob.2 job rest after) := by
  by_cases hqueued : plugin.executor.queued = 0
  · refine ⟨past, ?_⟩
    simpa [Plugin.dropJob, Executor.takeJob?, hqueued] using Leads.refl _
  · refine ⟨.dropped :: past, leads_of_run [.drop] ?_⟩
    intro workerPast
    simp [Hosted.step, Plugin.dropJob, Executor.takeJob?, hqueued, Nat.pos_of_ne_zero hqueued,
      Cells.takeJob, ofPlugin, outline]

/-- The job that waits in the launcher ends with a status. -/
theorem leads_complete (hmade : plugin.adapter.worker.isSome = true) (status : ExitStatus) :
    ∃ after, Leads (ofPlugin plugin job rest past)
      (ofPlugin (plugin.complete status) job rest after) := by
  rcases plugin with ⟨⟨host, name, extra, worker?, task⟩, executor, held, world, waiting⟩
  rcases Option.isSome_iff_exists.1 hmade with ⟨worker, rfl⟩
  cases waiting with
  | false =>
      exact ⟨past, Leads.refl _⟩
  | true =>
      exact ⟨_, leads_finished host name extra task worker job [] _ rest past (.ok status)⟩

/-- A shutdown stops the worker that it finds. -/
theorem leads_checked (host : PluginHost) (name : String) (extra : List String)
    (worker? : Option Worker) (task : Bool) (calls : List Worker.Frame) (jobs : Nat)
    (hfree : rest.lookup thread = none) (hcalls : Worker.latest? thread calls = none) :
    Leads ⟨⟨⟨host, name, extra, worker?, task⟩, calls, [], jobs⟩, rest, past⟩
      ⟨⟨⟨host, name, extra, worker?.map fun worker => worker.stop.2, task⟩, calls, [], jobs⟩,
        (thread, .take worker?.isSome) :: rest, .called thread .shutdown :: past⟩ := by
  cases worker? with
  | none =>
      refine leads_of_run [.call thread .shutdown, .advance thread] ?_
      intro workerPast
      simp [Hosted.step, isFree, hfree, Call.first, Stage.advance, proceed, outline]
  | some worker =>
      have hfound : Leads
          ⟨⟨⟨host, name, extra, some worker, task⟩, calls, [], jobs⟩, rest, past⟩
          ⟨⟨⟨host, name, extra, some worker, task⟩, ⟨thread, .request⟩ :: calls, [], jobs⟩,
            (thread, .stop) :: rest, .called thread .shutdown :: past⟩ := by
        refine leads_of_run [.call thread .shutdown, .advance thread] ?_
        intro workerPast
        simp [Hosted.step, isFree, hfree, Call.first, Stage.advance, proceed, Cells.work,
          Cells.shared?, Cells.put, Worker.Shared.step, Worker.Shared.mayCall, hcalls,
          Worker.Call.first, outline]
      exact hfound.trans
        (leads_stopped host name extra task worker thread calls jobs rest _ .stop
          (some (.take true)) [] rfl fun _ _ => rfl)

/-- It cancels the task, whereupon the executor may drop the job, and has the launcher clean up. -/
theorem leads_cancelled (host : PluginHost) (name : String) (extra : List String)
    (worker? : Option Worker) (task : Bool) (calls : List Worker.Frame) (executor : Executor)
    (found : Bool) (hjobs : ∀ frame ∈ rest, frame.2 = .job) :
    ∃ after, Leads
      ⟨⟨⟨host, name, extra, worker?, task⟩, calls, [], executor.queued⟩,
        (thread, .take found) :: rest, past⟩
      ⟨⟨⟨host, name, extra, worker?, false⟩, calls, [],
        (if task then executor.cancel else executor).queued⟩, rest,
          .returned thread (.shutDown found) :: after⟩ := by
  have hunlocked : ∀ cells past, (Hosted.mk cells ((thread, .take found) :: rest) past).isLocked =
      false := by
    intro cells past
    have hnone : ∀ frame ∈ rest, frame.2.isCancel = false := by
      intro frame hframe
      rw [hjobs frame hframe]
      rfl
    simpa [isLocked, stages, Stage.isCancel] using hnone
  have hadvance : ∀ cells,
      (Hosted.mk cells ((thread, .take found) :: rest) past).step (.advance thread) =
        if cells.adapter.task then ⟨cells.setTask false, (thread, .cancel found) :: rest, past⟩
        else ⟨cells, (thread, .release found) :: rest, past⟩ := by
    intro cells
    rw [step_advance_cons, hunlocked]
    cases htask : cells.adapter.task <;> simp [Stage.advance, htask, proceed_cons]
  cases task with
  | false =>
      refine ⟨.released thread :: past, leads_of_run [.advance thread, .advance thread] ?_⟩
      intro workerPast
      simp [hadvance, step_advance_cons, Stage.advance, proceed_cons, outline]
  | true =>
      -- The thread that cancels is in code of the executor, which may drop what it keeps.
      by_cases hdropped : executor.cancelDrops = true ∧ 0 < executor.queued
      · refine ⟨.released thread :: .cancelled thread :: .dropped :: past,
          leads_of_run [.advance thread, .drop, .advance thread, .advance thread] ?_⟩
        intro workerPast
        have hdrop : ∀ cells : Cells, 0 < cells.jobs → ∀ frames past,
            (Hosted.mk cells frames past).step .drop =
              ⟨cells.takeJob, frames, .dropped :: past⟩ := by
          intro cells hjobs frames past
          simp [Hosted.step, hjobs]
        simp [hadvance, hdrop, step_advance_cons, Stage.advance, proceed_cons, outline,
          Cells.setTask, Cells.takeJob, Executor.cancel, hdropped]
      · have hkept : executor.cancel.queued = executor.queued := by
          by_cases hdrops : executor.cancelDrops = true
          · have hnone : executor.queued = 0 := by
              by_contra hsome
              exact hdropped ⟨hdrops, Nat.pos_of_ne_zero hsome⟩
            simp [Executor.cancel, hnone]
          · simp [Executor.cancel, hdrops]
        refine ⟨.released thread :: .cancelled thread :: past,
          leads_of_run [.advance thread, .advance thread, .advance thread] ?_⟩
        intro workerPast
        simp [hadvance, step_advance_cons, Stage.advance, proceed_cons, outline, Cells.setTask,
          hkept]

theorem leads_shutdown (hother : thread ≠ job) :
    ∃ after, Leads (ofPlugin plugin job [] past)
      (ofPlugin (plugin.shutdown launcher) job []
        (.returned thread (.shutDown plugin.adapter.worker.isSome) :: after)) := by
  rcases plugin with ⟨⟨host, name, extra, worker?, task⟩, executor, held, world, waiting⟩
  have hfree : (if waiting then [(job, Stage.job)] else []).lookup thread = none := by
    cases waiting <;> simp [List.lookup_cons, beq_false_of_ne hother]
  have hcalls : Worker.latest? thread (if waiting then [⟨job, .inside⟩] else []) = none := by
    cases waiting <;> simp [Worker.latest?, hother.symm]
  have hjobs : ∀ frame ∈ (if waiting then [(job, Stage.job)] else []), frame.2 = .job := by
    cases waiting <;> simp
  have hchecked := leads_checked thread _ past host name extra worker? task _ executor.queued hfree
    hcalls
  rcases leads_cancelled thread _ (.called thread .shutdown :: past) host name extra
    (worker?.map fun worker => worker.stop.2) task
    (if waiting then [⟨job, .inside⟩] else []) executor worker?.isSome hjobs with
    ⟨after, hcancelled⟩
  refine ⟨after, ?_⟩
  have hafter : Plugin.shutdown launcher
      ⟨⟨host, name, extra, worker?, task⟩, executor, held, world, waiting⟩ =
    ⟨⟨host, name, extra, worker?.map fun worker => worker.stop.2, false⟩,
      if task then executor.cancel else executor, (launcher.release held world).2.1,
      (launcher.release held world).2.2, waiting⟩ := by
    cases task <;>
      simp [Plugin.shutdown, Plugin.updateWorker, updateWorker, Plugin.cancelTask,
        Plugin.releaseArtifacts]
  rw [hafter]
  simpa [ofPlugin] using hchecked.trans hcancelled

/-- An init that finds a data directory makes a worker, marks it, and submits its job. -/
theorem leads_submitted (host : PluginHost) (name : String) (extra : List String) (task : Bool)
    (executor : Executor) :
    ∃ after, Leads ⟨⟨⟨host, name, extra, none, task⟩, [], [], executor.queued⟩, [], past⟩
      ⟨⟨⟨host, name, extra, some (Worker.new
          (Adapter.mk host name extra none task).invocation).markScheduled.2, task⟩, [], [],
        executor.submit.2.queued⟩, [(thread, .accept)], after⟩ := by
  have hmade : Leads ⟨⟨⟨host, name, extra, none, task⟩, [], [], executor.queued⟩, [], past⟩
      ⟨⟨⟨host, name, extra, some (.new (Adapter.mk host name extra none task).invocation), task⟩,
        [⟨thread, .mark⟩], [], executor.queued⟩, [(thread, .mark)],
        .made thread :: .called thread .init :: past⟩ := by
    refine leads_of_run [.call thread .init, .advance thread, .prepared thread true,
      .advance thread] ?_
    intro workerPast
    simp [Hosted.step, isFree, Call.first, proceed, Stage.advance, Adapter.prepared, makeWorker,
      Cells.work, Cells.shared?, Cells.put, Worker.Shared.step, Worker.Shared.mayCall,
      Worker.latest?, Worker.Call.first, outline]
  have hmarked := hmade.trans (leads_marked host name extra task _ thread [] executor.queued []
    (.made thread :: .called thread .init :: past) rfl)
  by_cases htakes : executor.takesJob = true
  · refine ⟨.submitted thread :: .made thread :: .called thread .init :: past,
      hmarked.trans (leads_of_run [.advance thread] ?_)⟩
    intro workerPast
    simp [Hosted.step, proceed, Stage.advance, Cells.handJob, Executor.submit, htakes, outline]
  -- The executor that refuses the job does not keep it.
  · refine ⟨.dropped :: .submitted thread :: .made thread :: .called thread .init :: past,
      hmarked.trans (leads_of_run [.advance thread, .drop] ?_)⟩
    intro workerPast
    simp [Hosted.step, proceed, Stage.advance, Cells.handJob, Cells.takeJob, Executor.submit,
      htakes, outline]

/-- If the job was accepted, the init keeps the task. -/
theorem leads_accepted (kept : Bool) (hother : thread ≠ job) :
    ∃ after, Leads (ofPlugin plugin job [(thread, .accept)] past)
      (ofPlugin { plugin with adapter := { plugin.adapter with task := kept } } job []
        (.returned thread (.initialized (.ok ())) :: after)) := by
  refine ⟨.answered thread (.accepted kept) :: past,
    leads_of_run [.answered thread (.accepted kept), .advance thread] ?_⟩
  intro workerPast
  cases hwaiting : plugin.waiting with
  | false =>
      simp [Hosted.step, proceed, Adapter.answered, Stage.advance, isLocked, stages,
        Stage.isCancel, Cells.setTask, returns, ofPlugin, outline]
  | true =>
      simp [Hosted.step, proceed, Adapter.answered, Stage.advance, isLocked, stages,
        Stage.isCancel, Cells.setTask, returns, ofPlugin, outline, List.lookup_cons,
        beq_false_of_ne hother]

/-- If it was refused, the init stops the worker. -/
theorem leads_refused (reason : String) (hmade : plugin.adapter.worker.isSome = true)
    (hother : thread ≠ job) :
    ∃ after, Leads (ofPlugin plugin job [(thread, .accept)] past)
      (ofPlugin (plugin.updateWorker fun worker => worker.stop.2) job []
        (.returned thread (.initialized (.error (.executor reason))) :: after)) := by
  rcases plugin with ⟨⟨host, name, extra, worker?, task⟩, executor, held, world, waiting⟩
  rcases Option.isSome_iff_exists.1 hmade with ⟨worker, rfl⟩
  have hrefused : Leads
      (ofPlugin ⟨⟨host, name, extra, some worker, task⟩, executor, held, world, waiting⟩ job
        [(thread, .accept)] past)
      ⟨⟨⟨host, name, extra, some worker, task⟩,
        ⟨thread, .request⟩ :: (if waiting then [⟨job, .inside⟩] else []), [], executor.queued⟩,
        (thread, .abandon reason) :: (if waiting then [(job, .job)] else []),
        .answered thread (.refused reason) :: past⟩ := by
    refine leads_of_run [.answered thread (.refused reason)] ?_
    intro workerPast
    cases waiting with
    | false =>
        simp [Hosted.step, proceed, Adapter.answered, Cells.work, Cells.shared?, Cells.put,
          Worker.Shared.step, Worker.Shared.mayCall, Worker.latest?, Worker.Call.first, outline]
    | true =>
        simp [Hosted.step, proceed, Adapter.answered, Cells.work, Cells.shared?, Cells.put,
          Worker.Shared.step, Worker.Shared.mayCall, Worker.latest?, Worker.Call.first, outline,
          List.lookup_cons, beq_false_of_ne hother, hother.symm]
  have hstopped := leads_stopped host name extra task worker thread
    (if waiting then [⟨job, .inside⟩] else []) executor.queued
    (if waiting then [(job, .job)] else []) (.answered thread (.refused reason) :: past)
    (.abandon reason) none [.returned thread (.initialized (.error (.executor reason)))] rfl
    fun _ _ => rfl
  refine ⟨.answered thread (.refused reason) :: past, ?_⟩
  cases waiting <;> exact hrefused.trans hstopped

/-- After the data directory, an init goes as far as the answer of the executor, which may have run
the job by then. -/
theorem leads_prepared {made : World} (hempty : plugin.adapter.worker = none)
    (hidle : plugin.waiting = false)
    (hprepares : plugin.world.ensureDataDirectory plugin.adapter.host.dataDirectory = (.ok (), made))
    (hother : thread ≠ job) :
    ∃ after, Leads (ofPlugin plugin job [] past)
      (ofPlugin (plugin.init launcher).2 job []
        (.returned thread (.initialized (plugin.init launcher).1) :: after)) := by
  have hmade : ((plugin.readied made).submit launcher).2.adapter.worker.isSome = true :=
    (Plugin.submits_submit launcher (plugin.readied made)).isSome_worker
  rw [Plugin.init_of_prepared launcher hempty hprepares]
  rcases plugin with ⟨⟨host, name, extra, worker?, task⟩, executor, held, world, waiting⟩
  cases hempty
  cases hidle
  rcases leads_submitted thread past host name extra task executor with ⟨before, hsubmitted⟩
  let submitted : Plugin Held :=
    ⟨⟨host, name, extra,
      some (Worker.new (Adapter.mk host name extra none task).invocation).markScheduled.2, task⟩,
      executor.submit.2, held, made, false⟩
  have hran : ∃ between, Leads (ofPlugin submitted job [(thread, .accept)] before)
      (ofPlugin (if executor.submit.2.runsInline then (submitted.runJob launcher).2 else submitted)
        job [(thread, .accept)] between) := by
    cases executor.submit.2.runsInline with
    | false =>
        exact ⟨before, Leads.refl _⟩
    | true =>
        have hfree : [(thread, Stage.accept)].lookup job = none := by
          simp [List.lookup_cons, beq_false_of_ne hother.symm]
        exact leads_runJob launcher submitted job _ before rfl rfl hfree
  rcases hran with ⟨between, hran⟩
  have hway := hsubmitted.trans hran
  cases executor.answer with
  | accepted kept =>
      rcases leads_accepted _ job thread between kept hother with ⟨after, haccepted⟩
      exact ⟨after, hway.trans haccepted⟩
  | refused reason =>
      rcases leads_refused _ job thread between reason hmade hother with ⟨after, hrefused⟩
      exact ⟨after, hway.trans hrefused⟩

theorem leads_init (hother : thread ≠ job)
    (hidle : plugin.adapter.worker = none → plugin.waiting = false) :
    ∃ after, Leads (ofPlugin plugin job [] past)
      (ofPlugin (plugin.init launcher).2 job []
        (.returned thread (.initialized (plugin.init launcher).1) :: after)) := by
  rcases plugin with ⟨⟨host, name, extra, worker?, task⟩, executor, held, world, waiting⟩
  cases worker? with
  | some worker =>
      refine ⟨.called thread .init :: past, leads_of_run [.call thread .init, .advance thread] ?_⟩
      intro workerPast
      cases waiting with
      | false =>
          simp [Plugin.init, ofPlugin, Hosted.step, isFree, Call.first, proceed, Stage.advance,
            returns, outline]
      | true =>
          simp [Plugin.init, ofPlugin, Hosted.step, isFree, Call.first, proceed, Stage.advance,
            returns, outline, List.lookup_cons, beq_false_of_ne hother]
  | none =>
      rcases hprepares : world.ensureDataDirectory host.dataDirectory with ⟨result, left⟩
      cases result with
      | error fault =>
          cases World.fault_of_ensureDataDirectory hprepares
          cases hidle rfl
          refine ⟨.called thread .init :: past,
            leads_of_run [.call thread .init, .advance thread, .prepared thread false] ?_⟩
          intro workerPast
          simp [Plugin.init, hprepares, ofPlugin, Hosted.step, isFree, Call.first, proceed,
            Stage.advance, Adapter.prepared, returns, outline]
      | ok made =>
          exact leads_prepared launcher _ job thread past rfl (hidle rfl) hprepares hother

end Plugins

/-! ## One at a time -/

section OneAtATime

variable {Held : Type} (launcher : Launcher Held)

/-- What a host and its executor do. -/
inductive Occurrence
  | init
  | shutdown
  | runJob
  | dropJob
  | complete (status : ExitStatus)
deriving DecidableEq, Repr

/-- A plugin after an occurrence. -/
def occur (plugin : Plugin Held) : Occurrence → Plugin Held
  | .init => (plugin.init launcher).2
  | .shutdown => plugin.shutdown launcher
  | .runJob => (plugin.runJob launcher).2
  | .dropJob => plugin.dropJob.2
  | .complete status => plugin.complete status

/-- There is no job without a worker, and one job at most is kept or waits in the launcher. -/
structure Orderly (plugin : Plugin Held) : Prop where
  made : plugin.adapter.worker = none → plugin.executor.queued + plugin.waiting.toNat = 0
  one : plugin.executor.queued + plugin.waiting.toNat ≤ 1

namespace Orderly

variable {plugin other : Plugin Held}

theorem of_le (h : Orderly plugin)
    (hworker : other.adapter.worker = none → plugin.adapter.worker = none)
    (hjobs : other.executor.queued + other.waiting.toNat ≤
      plugin.executor.queued + plugin.waiting.toNat) : Orderly other := by
  refine ⟨?_, Nat.le_trans hjobs h.one⟩
  intro hnone
  have hzero := h.made (hworker hnone)
  omega

theorem runJob (h : Orderly plugin) : Orderly (plugin.runJob launcher).2 := by
  by_cases hqueued : plugin.executor.queued = 0
  · have hsame : (plugin.runJob launcher).2 = plugin := by
      simp [Plugin.runJob, Executor.takeJob?, hqueued]
    rw [hsame]
    exact h
  -- The job that is kept is the only one, and there is a worker for it to run.
  · have hone := h.one
    have hworks := Plugin.works_runJob launcher plugin
    rw [Plugin.dropJob_eq] at hworks
    have hleft : (plugin.runJob launcher).2.executor.queued = plugin.executor.queued - 1 := by
      rw [hworks.executor]
    have hwaiting := Bool.toNat_le (plugin.runJob launcher).2.waiting
    refine ⟨?_, by omega⟩
    intro hnone
    have hmade : plugin.adapter.worker.isSome = true := by
      by_contra hempty
      have hzero := h.made (by simpa using hempty)
      omega
    have hstill := hworks.isSome_worker
    rw [hnone, hmade] at hstill
    cases hstill

theorem dropJob (h : Orderly plugin) : Orderly plugin.dropJob.2 := by
  rw [Plugin.dropJob_eq]
  exact h.of_le id (Nat.add_le_add_right (Nat.sub_le _ _) _)

theorem complete (h : Orderly plugin) (status : ExitStatus) : Orderly (plugin.complete status) := by
  unfold Plugin.complete
  split
  · refine h.of_le ?_ ?_
    · simp [Plugin.updateWorker, updateWorker]
    · simp [Plugin.updateWorker]
  · exact h

theorem shutdown (h : Orderly plugin) : Orderly (plugin.shutdown launcher) := by
  refine h.of_le ?_ ?_
  · unfold Plugin.shutdown Plugin.cancelTask
    split <;> simp [Plugin.releaseArtifacts, Plugin.updateWorker, updateWorker]
  · have hcancel : plugin.executor.cancel.queued ≤ plugin.executor.queued := by
      unfold Executor.cancel
      split <;> simp
    unfold Plugin.shutdown Plugin.cancelTask
    split <;> simp [Plugin.releaseArtifacts, Plugin.updateWorker, hcancel]

theorem submit (hmade : plugin.adapter.worker.isSome = true)
    (hnone : plugin.executor.queued + plugin.waiting.toNat = 0) :
    Orderly (plugin.submit launcher).2 := by
  have hkept : plugin.executor.submit.2.queued ≤ plugin.executor.queued + 1 := by
    unfold Executor.submit
    dsimp only
    split <;> omega
  have hsubmitted : Orderly { plugin with executor := plugin.executor.submit.2 } := by
    refine ⟨?_, ?_⟩
    · intro hempty
      dsimp only at hempty
      rw [hempty] at hmade
      cases hmade
    · dsimp only
      omega
  unfold Plugin.submit
  dsimp only
  split
  · exact hsubmitted.runJob launcher
  · exact hsubmitted

theorem init (h : Orderly plugin) : Orderly (plugin.init launcher).2 := by
  cases hworker : plugin.adapter.worker with
  | some worker =>
      simpa [Plugin.init, hworker] using h
  | none =>
      rcases hprepares : plugin.world.ensureDataDirectory plugin.adapter.host.dataDirectory with
        ⟨result, made⟩
      cases result with
      | error fault =>
          simp only [Plugin.init, hworker, hprepares]
          exact h.of_le id (Nat.le_refl _)
      | ok _ =>
          have hsubmit : Orderly ((plugin.readied made).submit launcher).2 :=
            submit launcher rfl (h.made hworker)
          rw [Plugin.init_of_prepared launcher hworker hprepares]
          cases plugin.executor.answer with
          | accepted task =>
              exact hsubmit.of_le id (Nat.le_refl _)
          | refused reason =>
              refine hsubmit.of_le ?_ (Nat.le_refl _)
              simp [Plugin.updateWorker, updateWorker]

theorem occur (h : Orderly plugin) (occurrence : Occurrence) :
    Orderly (occur launcher plugin occurrence) := by
  cases occurrence with
  | init => exact h.init launcher
  | shutdown => exact h.shutdown launcher
  | runJob => exact h.runJob launcher
  | dropJob => exact h.dropJob
  | complete status => exact h.complete status

end Orderly

/-- Whatever occurs to a plugin is one of the ways in which calls interleave. -/
theorem leads_occur {plugin : Plugin Held} (h : Orderly plugin) (occurrence : Occurrence)
    (past : List Event) :
    ∃ after, Leads (ofPlugin plugin 1 [] past)
      (ofPlugin (occur launcher plugin occurrence) 1 [] after) := by
  have hother : (0 : Nat) ≠ 1 := by decide
  have hmade : 0 < plugin.executor.queued + plugin.waiting.toNat →
      plugin.adapter.worker.isSome = true := by
    intro hjobs
    by_contra hempty
    have hzero := h.made (by simpa using hempty)
    omega
  have hone := h.one
  cases occurrence with
  | init =>
      have hidle : plugin.adapter.worker = none → plugin.waiting = false := by
        intro hempty
        have hzero : plugin.waiting.toNat = 0 := Nat.eq_zero_of_add_eq_zero_left (h.made hempty)
        simpa using hzero
      rcases leads_init launcher plugin 1 0 past hother hidle with ⟨after, hinit⟩
      exact ⟨_, hinit⟩
  | shutdown =>
      rcases leads_shutdown launcher plugin 1 0 past hother with ⟨after, hshutdown⟩
      exact ⟨_, hshutdown⟩
  | dropJob =>
      exact leads_dropJob plugin 1 [] past
  | runJob =>
      by_cases hqueued : plugin.executor.queued = 0
      · refine ⟨past, ?_⟩
        simpa [occur, Plugin.runJob, Executor.takeJob?, hqueued] using Leads.refl _
      · have hidle : plugin.waiting = false := by
          have hzero : plugin.waiting.toNat = 0 := by omega
          simpa using hzero
        exact leads_runJob launcher plugin 1 [] past hidle (hmade (by omega)) rfl
  | complete status =>
      cases hwaiting : plugin.waiting with
      | false =>
          refine ⟨past, ?_⟩
          simpa [occur, Plugin.complete, hwaiting] using Leads.refl _
      | true =>
          exact leads_complete plugin 1 [] past (hmade (by simp [hwaiting])) status

theorem leads_occurrences {plugin : Plugin Held} (h : Orderly plugin)
    (occurrences : List Occurrence) (past : List Event) :
    ∃ after, Leads (ofPlugin plugin 1 [] past)
      (ofPlugin (occurrences.foldl (occur launcher) plugin) 1 [] after) := by
  induction occurrences generalizing plugin past with
  | nil =>
      exact ⟨past, Leads.refl _⟩
  | cons occurrence occurrences ih =>
      rcases leads_occur launcher h occurrence past with ⟨between, hfirst⟩
      rcases ih (h.occur launcher occurrence) between with ⟨after, hrest⟩
      exact ⟨after, hfirst.trans hrest⟩

/-- What a host does to a new plugin, one thing at a time, is a schedule of an adapter that was
new. -/
theorem exists_schedule_of_occurrences (host : PluginHost) (settings : List Setting)
    (executor : Executor) (hkeeps : executor.queued = 0) (held : Held) (world : World)
    (occurrences : List Occurrence) :
    ∃ schedule,
      ((new host settings).run schedule).cells.adapter =
        (occurrences.foldl (occur launcher)
          ⟨configured host settings, executor, held, world, false⟩).adapter ∧
      ((new host settings).run schedule).cells.jobs =
        (occurrences.foldl (occur launcher)
          ⟨configured host settings, executor, held, world, false⟩).executor.queued := by
  have horderly : Orderly
      (⟨configured host settings, executor, held, world, false⟩ : Plugin Held) :=
    ⟨fun _ => by simp [hkeeps], by simp [hkeeps]⟩
  rcases leads_occurrences launcher horderly occurrences [] with ⟨after, hleads⟩
  rcases hleads (new host settings) (by simp [new, ofPlugin, outline, hkeeps]) with
    ⟨schedule, hschedule⟩
  refine ⟨schedule, ?_, ?_⟩
  · exact congrArg (fun hosted : Hosted => hosted.cells.adapter) hschedule
  · exact congrArg (fun hosted : Hosted => hosted.cells.jobs) hschedule

end OneAtATime
end Hosted
end Adapter
end NativeLaunch
