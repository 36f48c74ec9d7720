import NativeLaunch.Executor
import NativeLaunch.Launcher
import NativeLaunch.Worker

/-!
# Adapters between a plugin host and a worker

A host starts a plugin with an init event and ends it with a shutdown event.  The adapter turns the
first into one worker, scheduled once on the host's executor, and the second into a stop request.
This file defines:

* `Adapter` — what one plugin keeps: its host, its arguments, at most one worker, at most one task;
* `Plugin` — an adapter together with all that its events act on;
* `Plugin.init` and `Plugin.shutdown`, each as a chain of smaller steps, and what may happen
  between them: `Plugin.runJob`, `Plugin.dropJob` and `Plugin.complete`.

The worker is made only once the data directory is there, so an init that fails on the directory
can be tried again.  Every later init finds the worker and does nothing.
-/

namespace NativeLaunch

/-- The host of a plugin. -/
structure PluginHost where
  name : String
  dataDirectory : Path
deriving DecidableEq, Repr

/-- Why an init failed. -/
inductive InitFault
  | dataDirectory (path : Path)
  /-- The executor refused the job, in its own words. -/
  | executor (reason : String)
deriving DecidableEq, Repr

/-- The message of a fault. -/
def InitFault.message : InitFault → String
  | .dataDirectory path => "Failed to create data directory " ++ path.display
  | .executor reason => reason

/-- What one plugin keeps. -/
structure Adapter where
  host : PluginHost
  programName : String := Invocation.defaultProgramName
  extraArguments : List String := []
  worker : Option Worker := none
  /-- Whether there is a task to cancel. -/
  task : Bool := false
deriving DecidableEq, Repr

namespace Adapter

/-- An adapter that nothing has happened to. -/
def new (host : PluginHost) : Adapter := { host := host }

/-- Chooses the arguments after the configuration path, in place of earlier ones. -/
def withExtraArguments (adapter : Adapter) (arguments : List String) : Adapter :=
  { adapter with extraArguments := arguments }

/-- Chooses the program name. -/
def withProgramName (adapter : Adapter) (name : String) : Adapter :=
  { adapter with programName := name }

/-- The state of the worker; one that does not exist has not started. -/
def state (adapter : Adapter) : WorkerState :=
  match adapter.worker with
  | none => .notStarted
  | some worker => worker.state

/-- The configuration file in the host's data directory. -/
def configPath (adapter : Adapter) : Path :=
  adapter.host.dataDirectory.join (.ofString Invocation.configFileName)

/-- The arguments of the native call. -/
def invocation (adapter : Adapter) : Invocation :=
  (Invocation.withProgramName adapter.programName adapter.configPath).addExtra
    adapter.extraArguments

/-- Makes the worker, unless there is one; answers whether it was made now. -/
def makeWorker (adapter : Adapter) : Bool × Adapter :=
  match adapter.worker with
  | some _ => (false, adapter)
  | none => (true, { adapter with worker := some (.new adapter.invocation) })

/-- Changes the worker, if there is one. -/
def updateWorker (adapter : Adapter) (change : Worker → Worker) : Adapter :=
  { adapter with worker := adapter.worker.map change }

end Adapter

namespace World

/-- Makes the data directory, unless its path leads to something already. -/
def ensureDataDirectory (world : World) (path : Path) : Except InitFault Unit × World :=
  if world.pathExists path then (.ok (), world)
  else
    match world.makeDirectories path with
    | (.ok _, made) => (.ok (), made)
    | (.error _, left) => (.error (.dataDirectory path), left)

end World

/-- An adapter with its executor, the state of its launcher, and the surroundings. -/
structure Plugin (Held : Type) where
  adapter : Adapter
  executor : Executor
  held : Held
  world : World := {}
  /-- Whether the call of the worker waits inside the native component. -/
  waiting : Bool := false

namespace Plugin

variable {Held : Type}

/-- Changes the worker, if there is one. -/
def updateWorker (plugin : Plugin Held) (change : Worker → Worker) : Plugin Held :=
  { plugin with adapter := plugin.adapter.updateWorker change }

/-! ## Jobs -/

/-- Runs the worker. -/
def runWorker (launcher : Launcher Held) (plugin : Plugin Held) : Plugin Held :=
  match plugin.adapter.worker with
  | none => plugin
  | some worker =>
    match worker.begin with
    | (false, skipped) => plugin.updateWorker fun _ => skipped
    | (true, running) =>
      let (result, held, world) := launcher.launch running.invocation plugin.held plugin.world
      let after := { plugin with held := held, world := world }
      match result with
      | some result => after.updateWorker fun _ => running.finish (.ofLaunch result)
      | none => { after.updateWorker (fun _ => running) with waiting := true }

/-- The waiting call returns a status. -/
def complete (plugin : Plugin Held) (status : ExitStatus) : Plugin Held :=
  if plugin.waiting then
    { plugin.updateWorker (Worker.finish (.exited status)) with waiting := false }
  else plugin

/-- The executor runs its oldest job; answers whether there was one. -/
def runJob (launcher : Launcher Held) (plugin : Plugin Held) : Bool × Plugin Held :=
  match plugin.executor.takeJob? with
  | none => (false, plugin)
  | some executor => (true, { plugin with executor := executor }.runWorker launcher)

/-- The executor runs all the jobs that it keeps. -/
def runJobs (launcher : Launcher Held) (plugin : Plugin Held) : Plugin Held :=
  plugin.executor.queued.repeat (fun current => (current.runJob launcher).2) plugin

/-- The executor forgets its oldest job; answers whether there was one. -/
def dropJob (plugin : Plugin Held) : Bool × Plugin Held :=
  match plugin.executor.takeJob? with
  | none => (false, plugin)
  | some executor => (true, { plugin with executor := executor })

/-! ## Init -/

/-- Submits the worker's job.  An executor may run it before it answers. -/
def submit (launcher : Launcher Held) (plugin : Plugin Held) : Submission × Plugin Held :=
  let (answer, executor) := plugin.executor.submit
  let submitted := { plugin with executor := executor }
  (answer, if executor.runsInline then (submitted.runJob launcher).2 else submitted)

/-- Marks a new worker as scheduled, submits its job, and keeps the task.  A refused job counts as
stopped. -/
def schedule (launcher : Launcher Held) (plugin : Plugin Held) (worker : Worker) :
    Except InitFault Unit × Plugin Held :=
  match worker.markScheduled with
  | (.error _, _) => (.ok (), plugin)
  | (.ok _, scheduled) =>
    match (plugin.updateWorker fun _ => scheduled).submit launcher with
    | (.accepted task, submitted) =>
      (.ok (), { submitted with adapter := { submitted.adapter with task := task } })
    | (.refused reason, submitted) =>
      (.error (.executor reason), submitted.updateWorker fun current => current.stop.2)

/-- The init event. -/
def init (launcher : Launcher Held) (plugin : Plugin Held) : Except InitFault Unit × Plugin Held :=
  match plugin.adapter.worker with
  | some _ => (.ok (), plugin)
  | none =>
    match plugin.world.ensureDataDirectory plugin.adapter.host.dataDirectory with
    | (.error fault, world) => (.error fault, { plugin with world := world })
    | (.ok _, world) =>
      let (_, adapter) := plugin.adapter.makeWorker
      let prepared := { plugin with world := world, adapter := adapter }
      match adapter.worker with
      | none => (.ok (), prepared)
      | some worker => prepared.schedule launcher worker

/-! ## Shutdown -/

/-- Cancels the task, if there is one, and forgets it. -/
def cancelTask (plugin : Plugin Held) : Plugin Held :=
  if plugin.adapter.task then
    { plugin with
      adapter := { plugin.adapter with task := false }
      executor := plugin.executor.cancel }
  else plugin

/-- Has the launcher clean up. -/
def releaseArtifacts (launcher : Launcher Held) (plugin : Plugin Held) : Plugin Held :=
  let (_, held, world) := launcher.release plugin.held plugin.world
  { plugin with held := held, world := world }

/-- The shutdown event: a stop request, then the task, then what the launches left behind. -/
def shutdown (launcher : Launcher Held) (plugin : Plugin Held) : Plugin Held :=
  ((plugin.updateWorker fun worker => worker.stop.2).cancelTask).releaseArtifacts launcher

end Plugin

end NativeLaunch
