import NativeLaunch.CommandLine

/-!
# Runs of a command line

Options that were accepted end a run before the launch, ask for the listing, or lead to a launch.  This
file defines:

* `Fails`, `Lists` and `Reaches` — these three, as relations between the options and what they lead to.

Each says what `execute` does then (`execute_eq`), and one of them holds of any options.
-/

namespace NativeLaunch
namespace CommandLine

variable {Library : Type}

/-- A run ends with a fault before anything is launched. -/
inductive Fails (options : Options) (world : World) : RunFault → World → Prop
  | settings {fault : Settings.FileFault} (unloaded : options.loadSettings world = .error fault) :
      Fails options world (.settings fault) world
  | configPath {loaded : Settings} {fault : RunFault} (loads : options.loadSettings world = .ok loaded)
      (launches : options.listArtifacts = false)
      (unresolved : options.configPath (options.override loaded) world = .error fault) :
      Fails options world fault world
  | dataDirectory {loaded : Settings} {config : Path} {fault : RunFault} {left : World}
      (loads : options.loadSettings world = .ok loaded)
      (launches : options.listArtifacts = false)
      (resolves : options.configPath (options.override loaded) world = .ok config)
      (unmade : makeParent world config = (.error fault, left)) :
      Fails options world fault left

/-- A run lists the artifacts that there are for some settings. -/
inductive Lists (options : Options) (world : World) : Settings → Prop
  | intro {loaded : Settings} (loads : options.loadSettings world = .ok loaded)
      (lists : options.listArtifacts = true) :
      Lists options world (options.override loaded)

/-- A run comes to a launch, for some settings and a configuration file whose directory is made. -/
inductive Reaches (options : Options) (world : World) : Settings → Path → World → Prop
  | intro {loaded : Settings} {config : Path} {prepared : World}
      (loads : options.loadSettings world = .ok loaded)
      (launches : options.listArtifacts = false)
      (resolves : options.configPath (options.override loaded) world = .ok config)
      (makes : makeParent world config = (.ok (), prepared)) :
      Reaches options world (options.override loaded) config prepared

section Execute

variable {loader : Loader Library} {builtIn : Bundle.Resources} {options : Options}
  {world left prepared : World} {settings : Settings} {config : Path} {fault : RunFault}

theorem Fails.execute_eq (h : Fails options world fault left) :
    execute loader builtIn options world = (.error fault, left) := by
  cases h with
  | settings hunloaded =>
      simp only [execute, hunloaded]
  | configPath hloads hlaunches hunresolved =>
      simp [execute, hloads, hlaunches, hunresolved]
  | dataDirectory hloads hlaunches hresolves hunmade =>
      simp [execute, hloads, hlaunches, hresolves, launchWith, hunmade]

theorem Lists.execute_eq (h : Lists options world settings) :
    execute loader builtIn options world =
      (.ok .success, world.print (Utf8.encode (listing (bundleOf builtIn settings) world))) := by
  cases h with
  | intro hloads hlists =>
      simp [execute, hloads, hlists]

theorem Reaches.execute_eq (h : Reaches options world settings config prepared) :
    execute loader builtIn options world =
      ((prepared.launch loader (bundleOf builtIn settings)
          (invocationOf settings config)).1.mapError .launch,
        (prepared.launch loader (bundleOf builtIn settings) (invocationOf settings config)).2) := by
  cases h with
  | intro hloads hlaunches hresolves hmakes =>
      simp only [execute, hloads, hlaunches, Bool.false_eq_true, if_false, hresolves, launchWith,
        hmakes]
      split
      · rename_i hlaunch
        rw [hlaunch]
        rfl
      · rename_i hlaunch
        rw [hlaunch]
        rfl

/-- Every run does one of the three. -/
theorem fails_or_lists_or_reaches (options : Options) (world : World) :
    (∃ fault left, Fails options world fault left) ∨
    (∃ settings, Lists options world settings) ∨
    ∃ settings config prepared, Reaches options world settings config prepared := by
  -- In the order in which a run looks at them.
  cases hloads : options.loadSettings world with
  | error fault =>
      exact .inl ⟨_, _, .settings hloads⟩
  | ok loaded =>
      cases hlists : options.listArtifacts with
      | true =>
          exact .inr (.inl ⟨_, .intro hloads hlists⟩)
      | false =>
          cases hresolves : options.configPath (options.override loaded) world with
          | error fault =>
              exact .inl ⟨_, _, .configPath hloads hlists hresolves⟩
          | ok config =>
              cases hmakes : makeParent world config with
              | mk answer after =>
                  cases answer with
                  | error fault =>
                      exact .inl ⟨_, _, .dataDirectory hloads hlists hresolves hmakes⟩
                  | ok _ =>
                      exact .inr (.inr ⟨_, _, _, .intro hloads hlists hresolves hmakes⟩)

theorem runWords_of_read {words : List Bytes} (hread : Options.read words = .ok options) :
    runWords loader builtIn words world =
      (.ofRun (execute loader builtIn options world).1,
        (execute loader builtIn options world).2.runExitCleanup.2) := by
  simp only [runWords, hread]

end Execute

end CommandLine
end NativeLaunch
