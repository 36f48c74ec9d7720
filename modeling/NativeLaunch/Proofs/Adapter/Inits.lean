import Mathlib
import NativeLaunch.Proofs.Adapter.Interleaving

/-!
# How an init ends

An init is ignored if there is a worker, and otherwise sees to the data directory, makes a worker and
submits its job.  This file defines:

* `Plugin.fresh` — a plugin that nothing has happened to;
* `Plugin.Works` and `Plugin.Submits` — what a job and a submission can change, whatever the launcher
  does and whenever the executor runs the job;
* `Plugin.Inits` — the four ways in which an init ends, with what leads to each.

Every init ends in one of these ways (`inits`), so that what is said of inits elsewhere is said way by
way.
-/

namespace NativeLaunch

theorem World.ensureDataDirectory_cases (world : World) (path : Path) :
    (world.pathExists path = true ∧ world.ensureDataDirectory path = (.ok (), world)) ∨
      (∃ made, world.makeDirectories path = (.ok (), made) ∧
        world.ensureDataDirectory path = (.ok (), made)) ∨
      ∃ left, world.ensureDataDirectory path = (.error (.dataDirectory path), left) := by
  unfold ensureDataDirectory
  split
  · rename_i hexists
    exact .inl ⟨hexists, rfl⟩
  · split
    · rename_i made hmakes
      exact .inr (.inl ⟨made, hmakes, rfl⟩)
    · rename_i left _
      exact .inr (.inr ⟨left, rfl⟩)

theorem World.fault_of_ensureDataDirectory {world left : World} {path : Path} {fault : InitFault}
    (h : world.ensureDataDirectory path = (.error fault, left)) : fault = .dataDirectory path := by
  rcases world.ensureDataDirectory_cases path with ⟨_, hok⟩ | ⟨_, _, hok⟩ | ⟨_, herror⟩
  · cases hok.symm.trans h
  · cases hok.symm.trans h
  · cases herror.symm.trans h
    rfl

namespace Plugin

variable {Held : Type} (launcher : Launcher Held)

/-! ## New plugins -/

/-- A plugin that nothing has happened to. -/
def fresh (host : PluginHost) (settings : List Adapter.Setting) (executor : Executor) (held : Held)
    (world : World) : Plugin Held :=
  ⟨Adapter.configured host settings, executor, held, world, false⟩

/-- A launcher whose calls return at once, and leave nothing behind. -/
def returning : Launcher Unit where
  launch _ _ world := (some (.ok ⟨0⟩), (), world)
  release _ world := (0, (), world)

/-- A plugin with a path for its data directory, in a tree that holds one file. -/
def besideFile (path : Path) : Plugin Unit :=
  fresh ⟨"proxy", path⟩ [] .thread () { files := ⟨[([Utf8.encode "data"], .file [])]⟩ }

/-! ## Jobs -/

theorem dropJob_eq (plugin : Plugin Held) :
    plugin.dropJob.2 =
      { plugin with
        executor := { plugin.executor with queued := plugin.executor.queued - 1 } } := by
  rcases plugin with ⟨adapter, ⟨answer, runsInline, cancelDrops, queued, made, cancelled⟩, _⟩
  cases queued <;> rfl

/-- What running the worker can change: it makes no other, and only a launch touches the
surroundings. -/
structure Works (before after : Plugin Held) : Prop where
  adapter : ∃ change, after.adapter = before.adapter.updateWorker change
  executor : after.executor = before.executor
  world : after.world = before.world ∨
    ∃ invocation, after.world = (launcher.launch invocation before.held before.world).2.2

theorem Works.refl (plugin : Plugin Held) : Works launcher plugin plugin := by
  refine ⟨⟨id, ?_⟩, rfl, .inl rfl⟩
  simp [Adapter.updateWorker]

theorem Works.isSome_worker {before after : Plugin Held} (h : Works launcher before after) :
    after.adapter.worker.isSome = before.adapter.worker.isSome := by
  rcases h.adapter with ⟨change, hadapter⟩
  simp [hadapter, Adapter.updateWorker]

theorem works_runWorker (plugin : Plugin Held) : Works launcher plugin (plugin.runWorker launcher) := by
  unfold runWorker
  split
  · exact .refl launcher plugin
  · rename_i worker hworker
    split
    · exact ⟨⟨_, rfl⟩, rfl, .inl rfl⟩
    · rename_i running _
      dsimp only
      split
      · exact ⟨⟨_, rfl⟩, rfl, .inr ⟨running.invocation, rfl⟩⟩
      · exact ⟨⟨_, rfl⟩, rfl, .inr ⟨running.invocation, rfl⟩⟩

/-- A job that is run has been taken from the executor like one that is forgotten. -/
theorem works_runJob (plugin : Plugin Held) :
    Works launcher plugin.dropJob.2 (plugin.runJob launcher).2 := by
  unfold runJob dropJob
  cases plugin.executor.takeJob? with
  | none =>
      exact .refl launcher plugin
  | some executor =>
      exact works_runWorker launcher _

/-! ## Submissions -/

/-- What a submission can change.  The launcher is called only if the executor runs the job before it
answers. -/
structure Submits (before after : Plugin Held) : Prop where
  adapter : ∃ change, after.adapter = before.adapter.updateWorker change
  executor : ∃ queued, after.executor =
    { before.executor with submissions := before.executor.submissions + 1, queued := queued }
  world : after.world = before.world ∨ before.executor.runsInline = true ∧
    ∃ invocation, after.world = (launcher.launch invocation before.held before.world).2.2

theorem Submits.isSome_worker {before after : Plugin Held} (h : Submits launcher before after) :
    after.adapter.worker.isSome = before.adapter.worker.isSome := by
  rcases h.adapter with ⟨change, hadapter⟩
  simp [hadapter, Adapter.updateWorker]

theorem submits_submit (plugin : Plugin Held) :
    Submits launcher plugin (plugin.submit launcher).2 := by
  unfold submit
  dsimp only
  split
  · rename_i hinline
    have hworks := works_runJob launcher { plugin with executor := plugin.executor.submit.2 }
    rw [dropJob_eq] at hworks
    refine ⟨hworks.adapter, ⟨_, hworks.executor⟩, ?_⟩
    rcases hworks.world with hsame | hlaunched
    · exact .inl hsame
    · exact .inr ⟨hinline, hlaunched⟩
  · refine ⟨⟨id, ?_⟩, ⟨_, rfl⟩, .inl rfl⟩
    simp [Adapter.updateWorker]

/-! ## Inits -/

/-- A plugin with a worker that was made and marked in some surroundings. -/
def readied (plugin : Plugin Held) (world : World) : Plugin Held :=
  { plugin with
    adapter := { plugin.adapter with
      worker := some (Worker.new plugin.adapter.invocation).markScheduled.2 }
    world := world }

/-- The ways in which an init ends. -/
inductive Inits (plugin : Plugin Held) : Except InitFault Unit → Plugin Held → Prop
  | ignored (worker : Worker) (found : plugin.adapter.worker = some worker) :
      Inits plugin (.ok ()) plugin
  | unprepared (left : World) (empty : plugin.adapter.worker = none)
      (fails : plugin.world.ensureDataDirectory plugin.adapter.host.dataDirectory =
        (.error (.dataDirectory plugin.adapter.host.dataDirectory), left)) :
      Inits plugin (.error (.dataDirectory plugin.adapter.host.dataDirectory))
        { plugin with world := left }
  | accepted (made : World) (submitted : Plugin Held) (task : Bool)
      (empty : plugin.adapter.worker = none)
      (prepares : plugin.world.ensureDataDirectory plugin.adapter.host.dataDirectory = (.ok (), made))
      (submits : Submits launcher (plugin.readied made) submitted)
      (answers : plugin.executor.answer = .accepted task) :
      Inits plugin (.ok ()) { submitted with adapter := { submitted.adapter with task := task } }
  | refused (made : World) (submitted : Plugin Held) (reason : String)
      (empty : plugin.adapter.worker = none)
      (prepares : plugin.world.ensureDataDirectory plugin.adapter.host.dataDirectory = (.ok (), made))
      (submits : Submits launcher (plugin.readied made) submitted)
      (answers : plugin.executor.answer = .refused reason) :
      Inits plugin (.error (.executor reason)) (submitted.updateWorker fun worker => worker.stop.2)

/-- A worker that was just made can be marked, so that the answer of the executor decides. -/
theorem init_of_prepared {plugin : Plugin Held} {made : World}
    (hempty : plugin.adapter.worker = none)
    (hprepares : plugin.world.ensureDataDirectory plugin.adapter.host.dataDirectory = (.ok (), made)) :
    plugin.init launcher =
      match plugin.executor.answer, ((plugin.readied made).submit launcher).2 with
      | .accepted task, submitted =>
        (.ok (), { submitted with adapter := { submitted.adapter with task := task } })
      | .refused reason, submitted =>
        (.error (.executor reason), submitted.updateWorker fun worker => worker.stop.2) := by
  have hinit : plugin.init launcher =
      schedule launcher
        { plugin with
          world := made
          adapter := { plugin.adapter with worker := some (.new plugin.adapter.invocation) } }
        (.new plugin.adapter.invocation) := by
    simp only [init, hempty, hprepares, Adapter.makeWorker]
  have hmark : (Worker.new plugin.adapter.invocation).markScheduled =
      (.ok (), (Worker.new plugin.adapter.invocation).markScheduled.2) := rfl
  have hanswer : plugin.executor.submit.1 = plugin.executor.answer := rfl
  rw [hinit, schedule, hmark]
  simp only [submit, updateWorker, Adapter.updateWorker, Option.map_some, hanswer, readied]
  cases plugin.executor.answer <;> rfl

theorem inits (plugin : Plugin Held) :
    Inits launcher plugin (plugin.init launcher).1 (plugin.init launcher).2 := by
  cases hworker : plugin.adapter.worker with
  | some worker =>
      simpa [init, hworker] using Inits.ignored worker hworker
  | none =>
      rcases hprepares : plugin.world.ensureDataDirectory plugin.adapter.host.dataDirectory with
        ⟨result, left⟩
      cases result with
      | error fault =>
          cases World.fault_of_ensureDataDirectory hprepares
          simpa [init, hworker, hprepares] using Inits.unprepared left hworker hprepares
      | ok made =>
          rw [init_of_prepared launcher hworker hprepares]
          have hsubmits := submits_submit launcher (plugin.readied left)
          cases hanswer : plugin.executor.answer with
          | accepted task =>
              exact .accepted left _ task hworker hprepares hsubmits hanswer
          | refused reason =>
              exact .refused left _ reason hworker hprepares hsubmits hanswer

end Plugin
end NativeLaunch
