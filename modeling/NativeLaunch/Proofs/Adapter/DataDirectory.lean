import NativeLaunch.Proofs.Adapter.Inits
import NativeLaunch.Proofs.Adapter.SingleLaunch
import NativeLaunch.Proofs.FileTree.Walking

/-!
# The data directory after an init

An init makes the data directory where its path leads to nothing, and is content where it leads to
something.  It does not ask whether that is a directory, and takes an empty path for one that needs no
directory at all.  This file defines:

* `Plugin.Grounded` — what a host relies on when its first init has ended;
* `World.Obstructed` — something that is no directory is at the path, or the path is empty.

The first holds but where the second does (`grounded_iff`).
-/

namespace NativeLaunch

/-- A launcher leaves a directory in place. -/
def Launcher.Spares {Held : Type} (launcher : Launcher Held) (path : Path) : Prop :=
  ∀ invocation held world, world.isDirectory path = true →
    (launcher.launch invocation held world).2.2.isDirectory path = true

/-! ## Paths that cannot become directories -/

namespace World

/-- Something else is in the place of a directory, or no place is named. -/
def Obstructed (world : World) (path : Path) : Prop :=
  world.pathExists path = true ∧ world.isDirectory path = false ∨ path.bytes = []

variable {world made : World} {path : Path}

theorem find_empty (hpath : path.bytes = []) :
    world.files.find world.workingDirectory path = .error .notFound := by
  simp [FileTree.find, FileTree.resolve, FileTree.textFault?, hpath]

/-- What is in the way is taken for the data directory. -/
theorem Obstructed.ensureDataDirectory_eq (h : world.Obstructed path) :
    world.ensureDataDirectory path = (.ok (), world) := by
  rcases h with ⟨hexists, _⟩ | hempty
  · rw [ensureDataDirectory, if_pos hexists]
  · have hmissing : world.pathExists path = false := by
      simp [pathExists, FileTree.pathExists, find_empty hempty, Except.isOk, Except.toBool]
    simp [ensureDataDirectory, hmissing, makeDirectories, withFiles, FileTree.makeDirectories,
      FileTree.makeDirectoriesWithin, hempty]

theorem Obstructed.isDirectory_eq (h : world.Obstructed path) : world.isDirectory path = false := by
  rcases h with ⟨_, hother⟩ | hempty
  · exact hother
  · simp [isDirectory, FileTree.isDirectory, find_empty hempty]

theorem isDirectory_of_ensureDataDirectory (hclear : ¬ world.Obstructed path)
    (h : world.ensureDataDirectory path = (.ok (), made)) : made.isDirectory path = true := by
  rcases world.ensureDataDirectory_cases path with
    ⟨hexists, hsame⟩ | ⟨grown, hmakes, hgrown⟩ | ⟨left, hfails⟩
  · cases hsame.symm.trans h
    by_contra hother
    exact hclear (.inl ⟨hexists, by simpa using hother⟩)
  · cases hgrown.symm.trans h
    exact isDirectory_of_makeDirectories (fun hempty => hclear (.inr hempty)) hmakes
  · cases hfails.symm.trans h

end World

/-! ## Inits -/

namespace Plugin

variable {Held : Type}

/-- The data directory that the host names. -/
def directory (plugin : Plugin Held) : Path := plugin.adapter.host.dataDirectory

/-- The surroundings once an init has seen to the data directory. -/
def prepared (plugin : Plugin Held) : World :=
  (plugin.world.ensureDataDirectory plugin.directory).2

/-- What a host relies on when a first init has ended. -/
structure Grounded (launcher : Launcher Held) (plugin : Plugin Held)
    (result : Except InitFault Unit) (after : Plugin Held) : Prop where
  -- An init that succeeds has its data directory when it goes on to make the worker.
  stands : result = .ok () → plugin.prepared.isDirectory plugin.directory = true
  -- It still has it in the end, if no launch that was made by then has taken it away.
  lasts : result = .ok () → (plugin.executor.runsInline = true → launcher.Spares plugin.directory) →
    after.world.isDirectory plugin.directory = true
  -- Without a directory it fails, and no worker is made and no job submitted.
  refuses : plugin.prepared.isDirectory plugin.directory = false →
    result = .error (.dataDirectory plugin.directory) ∧ after.adapter.worker = none ∧
      after.executor = plugin.executor

section Init

variable {launcher : Launcher Held} {plugin after : Plugin Held} {result : Except InitFault Unit}

theorem Inits.grounded (h : Inits launcher plugin result after)
    (hempty : plugin.adapter.worker = none) (hclear : ¬ plugin.world.Obstructed plugin.directory) :
    Grounded launcher plugin result after := by
  have hstands : ∀ {made},
      plugin.world.ensureDataDirectory plugin.adapter.host.dataDirectory = (.ok (), made) →
        plugin.prepared = made ∧ made.isDirectory plugin.directory = true := by
    intro made hprepares
    exact ⟨congrArg Prod.snd hprepares, World.isDirectory_of_ensureDataDirectory hclear hprepares⟩
  cases h with
  | ignored worker hfound =>
      rw [hempty] at hfound
      cases hfound
  | unprepared left _ hfails =>
      refine ⟨nofun, nofun, ?_⟩
      intro _
      exact ⟨rfl, hempty, rfl⟩
  | accepted made submitted task _ hprepares hsubmits _ =>
      rcases hstands hprepares with ⟨hmade, hdirectory⟩
      refine ⟨fun _ => hmade ▸ hdirectory, ?_, ?_⟩
      · intro _ hspares
        rcases hsubmits.world with hsame | ⟨hinline, invocation, hlaunched⟩
        · rw [hsame]
          exact hdirectory
        · rw [hlaunched]
          exact hspares hinline _ _ _ hdirectory
      · rw [hmade, hdirectory]
        nofun
  | refused made submitted reason _ hprepares _ _ =>
      rcases hstands hprepares with ⟨hmade, hdirectory⟩
      refine ⟨nofun, nofun, ?_⟩
      rw [hmade, hdirectory]
      nofun

theorem Inits.not_grounded (h : Inits launcher plugin result after)
    (hobstructed : plugin.world.Obstructed plugin.directory) :
    ¬ Grounded launcher plugin result after := by
  have hprepares := hobstructed.ensureDataDirectory_eq
  intro hgrounded
  have hnone : plugin.prepared.isDirectory plugin.directory = false := by
    rw [prepared, hprepares]
    exact hobstructed.isDirectory_eq
  have hresult := (hgrounded.refuses hnone).1
  -- The only init that ends so could not see to the data directory.
  cases h with
  | unprepared left _ hfails =>
      rw [show plugin.adapter.host.dataDirectory = plugin.directory from rfl, hprepares] at hfails
      cases hfails
  | _ =>
      cases hresult

end Init

/-- The first init of an adapter keeps its word on the data directory but where that is obstructed. -/
theorem grounded_iff (launcher : Launcher Held) (host : PluginHost) (settings : List Adapter.Setting)
    (executor : Executor) (held : Held) (world : World) :
    Grounded launcher (fresh host settings executor held world)
        (init launcher (fresh host settings executor held world)).1
        (init launcher (fresh host settings executor held world)).2 ↔
      ¬ world.Obstructed host.dataDirectory := by
  have hdirectory : (fresh host settings executor held world).directory = host.dataDirectory := by
    rw [directory, fresh, Adapter.configured_eq]
  have hinits := inits launcher (fresh host settings executor held world)
  constructor
  · intro hgrounded hobstructed
    rw [← hdirectory] at hobstructed
    exact hinits.not_grounded hobstructed hgrounded
  · intro hclear
    rw [← hdirectory] at hclear
    exact hinits.grounded (Adapter.worker_configured host settings) hclear

/-- An init succeeds with the file for a data directory, and with an empty path for one. -/
theorem not_grounded_besideFile :
    ¬ Grounded returning (besideFile (.ofString "/data"))
        (init returning (besideFile (.ofString "/data"))).1
        (init returning (besideFile (.ofString "/data"))).2 ∧
      ¬ Grounded returning (besideFile (.ofString ""))
        (init returning (besideFile (.ofString ""))).1
        (init returning (besideFile (.ofString ""))).2 := by
  have hfile : (besideFile (.ofString "/data")).world.Obstructed (.ofString "/data") :=
    .inl ⟨by cbv, by cbv⟩
  have hempty : (besideFile (.ofString "")).world.Obstructed (.ofString "") := .inr rfl
  exact ⟨(inits returning _).not_grounded hfile, (inits returning _).not_grounded hempty⟩

end Plugin
end NativeLaunch
