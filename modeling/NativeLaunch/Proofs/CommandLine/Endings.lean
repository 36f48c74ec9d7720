import NativeLaunch.Proofs.CommandLine.Runs
import NativeLaunch.Proofs.Launch.Cleanup
import NativeLaunch.Proofs.Launch.Failures
import NativeLaunch.Proofs.Processor.Effects

/-!
# How runs end

However a run of accepted options ends, it empties the registry, and the files that it extracted are gone:
either the extraction is undone to the last, or the library was called and no file is left at the path
that it was loaded from.  This file defines:

* `Ends` — the exit code of a run and what it leaves, for each of the ways that it can take.

The native code may do to the files whatever it likes, short of the launcher's own books.
-/

namespace NativeLaunch
namespace CommandLine

open World

variable {Library : Type}

/-- How a run of accepted options ends, and what it leaves in the world. -/
structure Ends (loader : Loader Library) (builtIn : Bundle.Resources) (options : Options)
    (world : World) (ending : Ending) (after : World) : Prop where
  -- A run fails, lists, is halted in its launch, or comes to the call.
  ways : (∃ fault left, Fails options world fault left) ∨ (∃ settings, Lists options world settings) ∨
    ∃ settings config prepared, Reaches options world settings config prepared ∧
      ((∃ stage failure, Halts loader (bundleOf builtIn settings) (invocationOf settings config)
          prepared stage failure) ∨
        ∃ path library block called, Completes loader (bundleOf builtIn settings)
          (invocationOf settings config) prepared path library block called)
  -- Whichever it is, nothing stays registered, and the entry point is called once at most.
  pending : after.pending = []
  calls : after.nativeCalls = world.nativeCalls ∨
    ∃ strings, after.nativeCalls = world.nativeCalls ++ [strings]
  -- Settings that cannot be loaded leave everything as it was.
  unloaded : ∀ fault, options.loadSettings world = .error fault →
    ending = .failed (.settings fault) ∧ ending.exitCode = 1 ∧ after = world
  failed : ∀ fault left, Fails options world fault left →
    ending = .failed fault ∧ ending.exitCode = 1 ∧ after = left ∧
      after = { world with files := after.files }
  listed : ∀ settings, Lists options world settings →
    ending.exitCode = 0 ∧
      after = world.print (Utf8.encode (listing (bundleOf builtIn settings) world))
  -- A launch that is halted leaves nothing but the directories made for it.
  halted : ∀ settings config prepared stage failure,
    Reaches options world settings config prepared →
    Halts loader (bundleOf builtIn settings) (invocationOf settings config) prepared stage failure →
    ending = .failed (.launch failure) ∧ ending.exitCode = 1 ∧
      after.nativeCalls = world.nativeCalls ∧ UsesNames prepared after
  -- A call gives the exit code, and leaves what it made of the files less the one it was loaded from.
  called : ∀ settings config prepared path library block called,
    Reaches options world settings config prepared →
    Completes loader (bundleOf builtIn settings) (invocationOf settings config) prepared path library
      block called →
    ending.exitCode = UInt8.ofNat (loader.call library block called).1 ∧
      after.nativeCalls = world.nativeCalls ++ [block.strings] ∧
      after.files.LeadsToNoFile path ∧
      after = { (loader.call library block called).2 with
        pending := []
        files := ((loader.call library block called).2.unlink path).2.files }

/-! ## Before the launch -/

theorem makeDirectories_frame {world after : World} {path : Path} {answer : Except FaultKind Unit}
    (h : world.makeDirectories path = (answer, after)) :
    after = { world with files := after.files } := by
  have hafter : (world.makeDirectories path).2 = after := by rw [h]
  rw [← hafter]
  rfl

theorem makeParent_frame {world after : World} {path : Path} {answer : Except RunFault Unit}
    (h : makeParent world path = (answer, after)) : after = { world with files := after.files } := by
  unfold makeParent at h
  split at h
  · cases h
    rfl
  · split at h
    · cases h
      exact makeDirectories_frame (by assumption)
    · cases h
      exact makeDirectories_frame (by assumption)

section Runs

variable {loader : Loader Library} {builtIn : Bundle.Resources} {options : Options}
  {world left prepared : World} {settings : Settings} {config : Path} {fault : RunFault}

theorem Fails.frame (h : Fails options world fault left) :
    left = { world with files := left.files } := by
  cases h with
  | settings =>
      rfl
  | configPath =>
      rfl
  | dataDirectory _ _ _ hunmade =>
      exact makeParent_frame hunmade

theorem Reaches.frame (h : Reaches options world settings config prepared) :
    prepared = { world with files := prepared.files } := by
  cases h with
  | intro _ _ _ hmakes =>
      exact makeParent_frame hmakes

section Ways

variable {words : List Bytes} (hread : Options.read words = .ok options) (hpending : world.pending = [])
include hread

theorem Reaches.runWords_eq (h : Reaches options world settings config prepared) :
    runWords loader builtIn words world =
      (.ofRun ((prepared.launch loader (bundleOf builtIn settings)
        (invocationOf settings config)).1.mapError .launch),
        (prepared.launch loader (bundleOf builtIn settings)
          (invocationOf settings config)).2.runExitCleanup.2) := by
  rw [runWords_of_read hread, h.execute_eq]

include hpending

theorem Fails.runWords_eq (h : Fails options world fault left) :
    runWords loader builtIn words world = (.failed fault, left) := by
  have hleft : left.pending = [] := by
    rw [h.frame]
    exact hpending
  rw [runWords_of_read hread, h.execute_eq, runExitCleanup_of_pending hleft]
  rfl

theorem Lists.runWords_eq (h : Lists options world settings) :
    runWords loader builtIn words world =
      (.exited .success, world.print (Utf8.encode (listing (bundleOf builtIn settings) world))) := by
  rw [runWords_of_read hread, h.execute_eq, runExitCleanup_of_pending (by exact hpending)]
  rfl

end Ways

theorem Reaches.pending_eq (h : Reaches options world settings config prepared)
    (hpending : world.pending = []) : prepared.pending = [] := by
  rw [h.frame]
  exact hpending

theorem Reaches.nativeCalls_eq (h : Reaches options world settings config prepared) :
    prepared.nativeCalls = world.nativeCalls := by
  rw [h.frame]

end Runs

section Ends

variable {loader : Loader Library} {builtIn : Bundle.Resources} {words : List Bytes}
  {options : Options} {world prepared : World} {settings : Settings} {config : Path}

theorem ways (loader : Loader Library) (builtIn : Bundle.Resources) (options : Options)
    (world : World) :
    (∃ fault left, Fails options world fault left) ∨ (∃ settings, Lists options world settings) ∨
      ∃ settings config prepared, Reaches options world settings config prepared ∧
        ((∃ stage failure, Halts loader (bundleOf builtIn settings) (invocationOf settings config)
            prepared stage failure) ∨
          ∃ path library block called, Completes loader (bundleOf builtIn settings)
            (invocationOf settings config) prepared path library block called) := by
  rcases fails_or_lists_or_reaches options world with
    hfails | hlists | ⟨settings, config, prepared, hreaches⟩
  · exact .inl hfails
  · exact .inr (.inl hlists)
  · exact .inr (.inr ⟨settings, config, prepared, hreaches, halts_or_completes loader _ _ _⟩)

end Ends

/-- A world with an artifact in a directory, and a directory for temporary files. -/
def stocked : World where
  files := ⟨[([Utf8.encode "tmp"], .directory), ([Utf8.encode "n"], .directory),
    ([Utf8.encode "n", Utf8.encode "linux"], .directory),
    ([Utf8.encode "n", Utf8.encode "linux", Utf8.encode "x86_64"], .directory),
    ([Utf8.encode "n", Utf8.encode "linux", Utf8.encode "x86_64", Utf8.encode "libpico_limbo.so"],
      .file [0x7F])]⟩
  homeDirectory := .ofString "/home"
  temporaryDirectory := .ofString "/tmp"

/-- The options that select the directory. -/
def selecting : Options where
  nativesDirectory := some (.ofString "/n")

theorem loadDefault_stocked : Settings.loadDefault stocked = .ok {} := by
  cbv

theorem makeParent_stocked : makeParent stocked (.ofString "/./server.toml") = (.ok (), stocked) := by
  cbv

theorem reaches_stocked :
    Reaches selecting stocked (selecting.override {}) (.ofString "/./server.toml") stocked :=
  .intro loadDefault_stocked rfl rfl makeParent_stocked

theorem launch_stocked :
    (stocked.launch (answering 265) (bundleOf [] (selecting.override {}))
      (invocationOf (selecting.override {}) (.ofString "/./server.toml"))).1 = .ok ⟨9⟩ := by
  have hresolved : stocked.host.resolve =
      .ok ⟨.linux, "x86_64", "lib", ".so", "/linux/x86_64/libpico_limbo.so"⟩ := rfl
  simp only [launch, resolveAndExtract, hresolved]
  cbv

-- Where the working directory has no name, a relative path comes to no configuration file.
example : (run (answering 265) [] ["--config", "server.toml"]
    { stocked with workingDirectoryNamed := false }).1 =
      .failed (.configPath (.ofString "server.toml")) := by
  cbv

end CommandLine
end NativeLaunch
