import NativeLaunch.Proofs.CommandLine.Endings
import NativeLaunch.Proofs.CommandLine.Spelling
import NativeLaunch.Proofs.Launch.Arguments

/-!
# What a command line launches

A launch takes its arguments, its configuration file and its bundle from the words of the command line
and from the settings, each by a rule of its own: the program name and the first arguments come from the
settings, what stands after the separator is appended, and paths on the command line take the place of
those in the settings.  This file defines:

* `LaunchesGiven` — what is launched, in terms of what the words spell and the settings hold.

The directory of the configuration file is there when the launch starts, and still when the entry point is
called.
-/

namespace NativeLaunch
namespace CommandLine

open World

variable {Library : Type}

/-- What a run launches that comes as far as that, given some words and settings. -/
structure LaunchesGiven (loader : Loader Library) (builtIn : Bundle.Resources) (words : List Bytes)
    (givens : List Given) (forwarded : List String) (loaded : Settings) (world : World)
    (settings : Settings) (config : Path) (prepared : World) : Prop where
  spelled : Spelled words givens forwarded
  sound : Sound givens
  -- The settings are those of the file that is given, or else of the default place.
  source : (match pathOf? givens .settings with
    | some path => Settings.load world path
    | none => Settings.loadDefault world) = .ok loaded
  arguments : (invocationOf settings config).arguments =
    loaded.programName :: "--config" :: Utf8.decodeLossy config.bytes ::
      (loaded.extraArguments ++ forwarded)
  -- The configuration file is that which is given, or else that in the data directory.
  chosen : ∀ path, pathOf? givens .config = some path →
    Path.absolute? world.currentDirectory? path = some config
  default : pathOf? givens .config = none →
    config = world.workingPath.join
      (((pathOf? givens .dataDirectory).getD loaded.dataDirectory).join (.ofString "server.toml"))
  bundle : bundleOf builtIn settings =
    match (pathOf? givens .nativesDirectory).or loaded.nativesDirectory with
    | some root => .directory root
    | none => .embedded builtIn
  absolute : config.isAbsolute = true
  directory : ∀ directory, config.parent? = some directory → prepared.isDirectory directory = true
  -- With this bundle and these arguments the run launches, and cleans up.
  launched : runWords loader builtIn words world =
    (.ofRun ((prepared.launch loader (bundleOf builtIn settings)
      (invocationOf settings config)).1.mapError .launch),
      (prepared.launch loader (bundleOf builtIn settings)
        (invocationOf settings config)).2.runExitCleanup.2)
  -- If it comes to the call, that is how things are then.
  called : ∀ path library block called,
    Completes loader (bundleOf builtIn settings) (invocationOf settings config) prepared path library
      block called →
    block.strings = (invocationOf settings config).arguments.map Utf8.encode ∧
      ∀ directory, config.parent? = some directory → called.isDirectory directory = true

/-! ## The configuration file -/

/-- What is seen from the working directory, if it has a name, is that path joined to its name. -/
theorem seenFrom?_currentDirectory? {world : World} {path seen : Path}
    (h : Path.seenFrom? world.currentDirectory? path = some seen) :
    seen = world.workingPath.join path := by
  unfold Path.seenFrom? at h
  split at h
  · rename_i habsolute
    cases h
    rw [Path.join, if_pos habsolute]
  · rcases Option.map_eq_some_iff.1 h with ⟨directory, hdirectory, rfl⟩
    cases (Option.ite_none_right_eq_some.1 hdirectory).2
    rfl

theorem configPath?_eq {settings : Settings} {world : World} {config : Path}
    (h : settings.configPath? world.currentDirectory? = some config) :
    config = world.workingPath.join (settings.dataDirectory.join (.ofString "server.toml")) := by
  have hslash : Path.slash ∉ Utf8.encode "server.toml" := by decide
  rcases Option.map_eq_some_iff.1 h with ⟨directory, hseen, rfl⟩
  rw [seenFrom?_currentDirectory? hseen]
  exact Path.join_join world.workingPath settings.dataDirectory hslash

theorem isDirectory_of_makeParent {world after : World} {path directory : Path}
    (habsolute : path.isAbsolute = true) (hparent : path.parent? = some directory)
    (h : makeParent world path = (.ok (), after)) : after.isDirectory directory = true := by
  unfold makeParent at h
  rw [hparent] at h
  simp only at h
  split at h
  · rename_i hmade
    cases h
    exact isDirectory_of_makeDirectories (Path.parent?_ne_nil habsolute hparent) hmade
  · cases h

/-! ## The call -/

section Call

variable {loader : Loader Library} {bundle : Bundle} {invocation : Invocation} {world after : World}
  {path directory : Path} {library : Library} {block : ArgumentBlock} {called : World}

/-- What was a directory is one when the entry point is called, whatever was extracted. -/
theorem isDirectory_of_completes
    (h : Completes loader bundle invocation world path library block called)
    (hdirectory : world.isDirectory directory = true) : called.isDirectory directory = true := by
  cases h with
  | intro hcopied _ =>
      cases hcopied with
      | intro _ hextracted =>
          cases hextracted with
          | @intro stream path place made content _ hmakes _ =>
              have hmade := createTemporary_ok hmakes
              rw [hmade.made]
              simp only [atCall, isDirectory, FileTree.insert_insert] at hdirectory ⊢
              exact (FileTree.within_insert hmade.free.node?_eq_none _).isDirectory hdirectory

theorem strings_of_completes
    (h : Completes loader bundle invocation world path library block called) :
    block.strings = invocation.arguments.map Utf8.encode := by
  cases h with
  | intro _ hcalls =>
      exact ArgumentBlock.strings_of_marshal hcalls.marshals

end Call

/-! ## Launches -/

section Resolution

variable {options : Options} {settings : Settings} {world : World} {config : Path}

theorem config_of_given {path : Path} (hgiven : options.config = some path)
    (h : options.configPath settings world = .ok config) :
    Path.absolute? world.currentDirectory? path = some config := by
  rw [Options.configPath, hgiven] at h
  cases habsolute : Path.absolute? world.currentDirectory? path with
  | none =>
      simp [habsolute] at h
  | some absolute =>
      simpa [habsolute] using h

theorem config_of_not_given (habsent : options.config = none)
    (h : options.configPath settings world = .ok config) :
    config = world.workingPath.join (settings.dataDirectory.join (.ofString "server.toml")) := by
  rw [Options.configPath, habsent] at h
  cases hconfig : settings.configPath? world.currentDirectory? with
  | none =>
      simp [hconfig] at h
  | some path =>
      have hpath : path = config := by simpa [hconfig] using h
      rw [← hpath]
      exact configPath?_eq hconfig

theorem isAbsolute_config (h : options.configPath settings world = .ok config) :
    config.isAbsolute = true := by
  cases hgiven : options.config with
  | some path =>
      exact Path.isAbsolute_absolute? (isAbsolute_currentDirectory world) (config_of_given hgiven h)
  | none =>
      rw [config_of_not_given hgiven h]
      exact Path.isAbsolute_join_of_isAbsolute (isAbsolute_workingPath world) _

end Resolution

/-- A run of accepted words launches what they and the settings say. -/
theorem launch_given {loader : Loader Library} {builtIn : Bundle.Resources} {words : List Bytes}
    {options : Options} {world prepared : World} {loaded settings : Settings} {config : Path}
    (hread : Options.read words = .ok options) (hloads : options.loadSettings world = .ok loaded)
    (hreaches : Reaches options world settings config prepared) :
    ∃ givens forwarded,
      LaunchesGiven loader builtIn words givens forwarded loaded world settings config prepared := by
  have hlaunched := @Reaches.runWords_eq _ loader builtIn _ _ _ _ _ _ hread hreaches
  obtain ⟨givens, forwarded, hspelled, hsound, rfl⟩ := read_eq_ok_iff.1 hread
  refine ⟨givens, forwarded, ?_⟩
  cases hreaches with
  | @intro loaded' config prepared hloads' hlaunches hresolves hmakes =>
      rw [hloads] at hloads'
      cases hloads'
      have habsolute := isAbsolute_config hresolves
      have hdirectory : ∀ directory, config.parent? = some directory →
          prepared.isDirectory directory = true :=
        fun directory hparent => isDirectory_of_makeParent habsolute hparent hmakes
      exact {
        spelled := hspelled
        sound := hsound
        source := hloads
        arguments := by
          simp [invocationOf, Invocation.arguments, Invocation.withProgramName, Invocation.addExtra,
            Options.override, optionsOf, Path.display]
        chosen := fun path hgiven => config_of_given hgiven hresolves
        default := fun hgiven => config_of_not_given hgiven hresolves
        bundle := rfl
        absolute := habsolute
        directory := hdirectory
        launched := hlaunched
        called := fun path library block called hcompletes =>
          ⟨strings_of_completes hcompletes, fun directory hparent =>
            isDirectory_of_completes hcompletes (hdirectory directory hparent)⟩ }

/-! ## A command line that forwards -/

/-- What is forwarded may look like options, be empty, or be a separator. -/
def forwarding : Options := { selecting with nativeArguments := ["--config", "", "--"] }

theorem reaches_forwarding :
    Reaches forwarding stocked (forwarding.override {}) (.ofString "/./server.toml") stocked :=
  .intro loadDefault_stocked rfl rfl makeParent_stocked

theorem launch_forwarding :
    Options.read (["--natives-dir", "/n", "--", "--config", "", "--"].map Utf8.encode) =
        .ok forwarding ∧
      forwarding.loadSettings stocked = .ok {} ∧
      Reaches forwarding stocked (forwarding.override {}) (.ofString "/./server.toml") stocked ∧
      (∃ givens forwarded, LaunchesGiven (answering 265) []
        (["--natives-dir", "/n", "--", "--config", "", "--"].map Utf8.encode) givens forwarded {}
        stocked (forwarding.override {}) (.ofString "/./server.toml") stocked) ∧
      (invocationOf (forwarding.override {}) (.ofString "/./server.toml")).arguments =
        ["limbo_bridge", "--config", "/./server.toml", "--config", "", "--"] :=
  ⟨rfl, loadDefault_stocked, reaches_forwarding,
    launch_given rfl loadDefault_stocked reaches_forwarding, by decide⟩

end CommandLine
end NativeLaunch
