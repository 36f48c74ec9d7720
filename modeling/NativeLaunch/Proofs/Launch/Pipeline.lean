import Mathlib
import NativeLaunch.Proofs.Launch.Extraction

/-!
# The stages of a launch

A launch resolves the platform and extracts its artifact, in four stages, and goes through three more:
the arguments are made ready, the library is loaded, and its entry point is looked up.  Only if all
seven have passed is the entry point called.  This file defines:

* `Uncalled` and `Calls` — how an extracted library fares, as `Unextracted` and `Extracted` say it of
  the artifact;
* `Halts`, `Copied` and `Completes` — the same of a whole launch;
* `Loader.Discreet` — what is asked of the native component: to leave the launcher's books alone;
* `Pipeline` — what a launch answers, and what it leaves behind at each stage.
-/

namespace NativeLaunch

/-- Native calls of a loader do not meddle with the registry of files to be deleted, with those files,
or with the journal of what was mapped and called. -/
structure Loader.Discreet {Library : Type} (loader : Loader Library) : Prop where
  pending : ∀ library block world,
    (loader.call library block world).2.pending = world.pending
  mapped : ∀ library block world, (loader.call library block world).2.mapped = world.mapped
  nativeCalls : ∀ library block world,
    (loader.call library block world).2.nativeCalls = world.nativeCalls
  spared : ∀ library block world, ∀ path ∈ world.pending,
    (loader.call library block world).2.read path = world.read path

namespace World

variable {Library : Type}

/-! ## Loading and calling -/

/-- The stages before this one have passed, and this one has failed. -/
inductive Uncalled (loader : Loader Library) (invocation : Invocation) (world : World)
    (path : Path) : Stage → Failure → Prop
  | arguments {failure : Failure} (fails : ArgumentBlock.marshal invocation = .error failure) :
      Uncalled loader invocation world path .arguments failure
  | library {block : ArgumentBlock} (marshals : ArgumentBlock.marshal invocation = .ok block)
      (fails : loader.load world path = none) :
      Uncalled loader invocation world path .library (.libraryLoad path)
  | symbol {block : ArgumentBlock} {library : Library}
      (marshals : ArgumentBlock.marshal invocation = .ok block)
      (loads : loader.load world path = some library)
      (fails : loader.hasEntry library = false) :
      Uncalled loader invocation world path .symbol (.symbolResolution entrySymbol path)

/-- All of these stages have passed. -/
structure Calls (loader : Loader Library) (invocation : Invocation) (world : World) (path : Path)
    (library : Library) (block : ArgumentBlock) : Prop where
  marshals : ArgumentBlock.marshal invocation = .ok block
  loads : loader.load world path = some library
  finds : loader.hasEntry library = true

/-- The surroundings in which the entry point is called. -/
def atCall (world : World) (path : Path) (block : ArgumentBlock) : World :=
  { world with
    mapped := path :: world.mapped
    nativeCalls := world.nativeCalls ++ [block.strings] }

section Invoke

variable {loader : Loader Library} {invocation : Invocation} {world : World} {path : Path}

theorem uncalled_or_calls (loader : Loader Library) (invocation : Invocation) (world : World)
    (path : Path) :
    (∃ stage failure, Uncalled loader invocation world path stage failure) ∨
      ∃ library block, Calls loader invocation world path library block := by
  cases hmarshals : ArgumentBlock.marshal invocation with
  | error failure =>
      exact .inl ⟨_, _, .arguments hmarshals⟩
  | ok block =>
      cases hloads : loader.load world path with
      | none =>
          exact .inl ⟨_, _, .library hmarshals hloads⟩
      | some library =>
          cases hfinds : loader.hasEntry library with
          | false =>
              exact .inl ⟨_, _, .symbol hmarshals hloads hfinds⟩
          | true =>
              exact .inr ⟨_, _, hmarshals, hloads, hfinds⟩

/-- What was mapped is unmapped again. -/
theorem Uncalled.invoke_eq {stage : Stage} {failure : Failure}
    (h : Uncalled loader invocation world path stage failure) :
    world.invoke loader path invocation = (.error failure, world) := by
  cases h with
  | arguments hfails =>
      simp only [invoke, hfails]
  | library hmarshals hfails =>
      simp only [invoke, hmarshals, load, hfails]
  | symbol hmarshals hloads hfails =>
      simp [invoke, hmarshals, load, hloads, findEntry, hfails, map, unmap]

theorem Calls.invoke_eq {library : Library} {block : ArgumentBlock}
    (h : Calls loader invocation world path library block) :
    world.invoke loader path invocation =
      (.ok ⟨UInt8.ofNat (loader.call library block (world.atCall path block)).1⟩,
        (loader.call library block (world.atCall path block)).2) := by
  simp only [invoke, h.marshals, load, h.loads, findEntry, h.finds, callEntry, map, atCall, if_true]

end Invoke

/-! ## Whole launches -/

/-- The first four stages have passed. -/
inductive Copied (bundle : Bundle) (world : World) : Path → Bytes → World → Prop
  | intro {descriptor : PlatformDescriptor} {path : Path} {content : Bytes} {after : World}
      (resolved : world.host.resolve = .ok descriptor)
      (extracted : Extracted bundle descriptor world path content after) :
      Copied bundle world path content after

/-- A launch ends at a stage with a failure, the stages before it having passed. -/
inductive Halts (loader : Loader Library) (bundle : Bundle) (invocation : Invocation)
    (world : World) : Stage → Failure → Prop
  | unresolved {failure : Failure} (fails : world.host.resolve = .error failure) :
      Halts loader bundle invocation world .platform failure
  | unextracted {descriptor : PlatformDescriptor} {stage : Stage} {failure : Failure}
      (resolved : world.host.resolve = .ok descriptor)
      (unextracted : Unextracted bundle descriptor world stage failure) :
      Halts loader bundle invocation world stage failure
  | uncalled {path : Path} {content : Bytes} {after : World} {stage : Stage} {failure : Failure}
      (copied : Copied bundle world path content after)
      (uncalled : Uncalled loader invocation after path stage failure) :
      Halts loader bundle invocation world stage failure

/-- A launch passes all stages and comes to the call of an entry point. -/
inductive Completes (loader : Loader Library) (bundle : Bundle) (invocation : Invocation)
    (world : World) : Path → Library → ArgumentBlock → World → Prop
  | intro {path : Path} {content : Bytes} {after : World} {library : Library}
      {block : ArgumentBlock} (copied : Copied bundle world path content after)
      (calls : Calls loader invocation after path library block) :
      Completes loader bundle invocation world path library block (after.atCall path block)

/-- What a launch, by itself or by a launcher with a list of its own, answers and leaves behind. -/
structure Pipeline (loader : Loader Library) (bundle : Bundle) (invocation : Invocation)
    (world : World) : Prop where
  failed : ∀ failure, (world.launch loader bundle invocation).1 = .error failure ↔
    ∃ stage, Halts loader bundle invocation world stage failure
  returned : ∀ status, (world.launch loader bundle invocation).1 = .ok status ↔
    ∃ path library block called, Completes loader bundle invocation world path library block called ∧
      status = ⟨UInt8.ofNat (loader.call library block called).1⟩
  -- A failed stage is the last to have had an effect.
  halted : ∀ stage failure, Halts loader bundle invocation world stage failure →
    if stage.isExtraction then UsesNames world (world.launch loader bundle invocation).2
    else ∃ path content, Copied bundle world path content (world.launch loader bundle invocation).2
  -- The entry point is called once if all stages pass, and then the mapping is kept.
  called : ∀ path library block called,
    Completes loader bundle invocation world path library block called →
      (world.launch loader bundle invocation).2.nativeCalls = world.nativeCalls ++ [block.strings] ∧
      (world.launch loader bundle invocation).2.mapped = path :: world.mapped
  uncalled : (∀ path library block called,
      ¬ Completes loader bundle invocation world path library block called) →
    (world.launch loader bundle invocation).2.nativeCalls = world.nativeCalls ∧
      (world.launch loader bundle invocation).2.mapped = world.mapped
  -- The file is there, and registered, if it was copied, and only then is it in the launcher's list.
  copied : ∀ path content after, Copied bundle world path content after →
    world.pathExists path = false ∧
      (world.launch loader bundle invocation).2.pathExists path = true ∧
      (world.launch loader bundle invocation).2.read path = .ok content ∧
      (world.launch loader bundle invocation).2.pending = world.pending ++ [path] ∧
      ∀ extracted, world.launchNoting loader bundle invocation extracted =
        ((world.launch loader bundle invocation).1, extracted ++ [path],
          (world.launch loader bundle invocation).2)
  uncopied : (∀ path content after, ¬ Copied bundle world path content after) →
    (world.launch loader bundle invocation).2.files = world.files ∧
      (world.launch loader bundle invocation).2.pending = world.pending ∧
      ∀ extracted, world.launchNoting loader bundle invocation extracted =
        ((world.launch loader bundle invocation).1, extracted,
          (world.launch loader bundle invocation).2)

theorem Unextracted.isExtraction {bundle : Bundle} {descriptor : PlatformDescriptor}
    {world : World} {stage : Stage} {failure : Failure}
    (h : Unextracted bundle descriptor world stage failure) : stage.isExtraction = true := by
  cases h <;> rfl

theorem Uncalled.isExtraction {loader : Loader Library} {invocation : Invocation} {world : World}
    {path : Path} {stage : Stage} {failure : Failure}
    (h : Uncalled loader invocation world path stage failure) : ¬ stage.isExtraction = true := by
  cases h <;> exact Bool.false_ne_true

theorem pathExists_of_read {world : World} {path : Path} {content : Bytes}
    (h : world.read path = .ok content) : world.pathExists path = true := by
  unfold read FileTree.read at h
  unfold pathExists FileTree.pathExists
  cases hfind : world.files.find world.workingDirectory path with
  | error kind =>
      rw [hfind] at h
      cases h
  | ok found =>
      rfl

namespace Equips

variable {world after : World} {path : Path} {content : Bytes} (h : Equips world path content after)
include h

theorem read_eq : after.read path = .ok content := by
  rcases h.named with ⟨place, hnames⟩
  simp [read, FileTree.read, hnames.find_eq]

theorem pending_eq : after.pending = world.pending ++ [path] := by rw [h.changed]

theorem mapped_eq : after.mapped = world.mapped := by rw [h.changed]

theorem nativeCalls_eq : after.nativeCalls = world.nativeCalls := by rw [h.changed]

end Equips

section Launch

variable {loader : Loader Library} {bundle : Bundle} {invocation : Invocation} {world after : World}
  {path : Path} {content : Bytes}

theorem Copied.equips (h : Copied bundle world path content after) :
    Equips world path content after := by
  cases h with
  | intro _ hextracted =>
      exact hextracted.equips

theorem Copied.resolveAndExtract_eq (h : Copied bundle world path content after) :
    ∃ artifact, world.resolveAndExtract bundle = (.ok artifact, after) ∧
      artifact.temporaryFilePath = path := by
  cases h with
  | @intro descriptor path content after hresolved hextracted =>
      refine ⟨⟨descriptor.resourceSubpath, path⟩, ?_, rfl⟩
      simp only [resolveAndExtract, hresolved, hextracted.extract_eq]

theorem Copied.launch_eq (h : Copied bundle world path content after) :
    world.launch loader bundle invocation = after.invoke loader path invocation := by
  rcases h.resolveAndExtract_eq with ⟨artifact, hresult, rfl⟩
  simp only [launch, hresult]

theorem Copied.launchNoting_eq (h : Copied bundle world path content after)
    (extracted : List Path) :
    world.launchNoting loader bundle invocation extracted =
      ((world.launch loader bundle invocation).1, extracted ++ [path],
        (world.launch loader bundle invocation).2) := by
  rw [h.launch_eq]
  rcases h.resolveAndExtract_eq with ⟨artifact, hresult, rfl⟩
  simp only [launchNoting, hresult]

/-- A launch that has not copied its artifact fails, and leaves no file. -/
theorem launch_of_uncopied {failure : Failure}
    (h : world.resolveAndExtract bundle = (.error failure, after)) :
    world.launch loader bundle invocation = (.error failure, after) ∧
      ∀ extracted, world.launchNoting loader bundle invocation extracted =
        (.error failure, extracted, after) := by
  refine ⟨?_, ?_⟩
  · simp only [launch, h]
  · intro extracted
    simp only [launchNoting, h]

/-- Either the artifact is copied, or the launch ends before with a failure and uses names at most. -/
theorem copied_or_halts (loader : Loader Library) (bundle : Bundle) (invocation : Invocation)
    (world : World) :
    (∃ path content after, Copied bundle world path content after) ∨
      ∃ stage failure after, Halts loader bundle invocation world stage failure ∧
        world.resolveAndExtract bundle = (.error failure, after) ∧ UsesNames world after := by
  cases hresolved : world.host.resolve with
  | error failure =>
      refine .inr ⟨_, failure, world, .unresolved hresolved, ?_, UsesNames.refl world⟩
      simp only [resolveAndExtract, hresolved]
  | ok descriptor =>
      rcases unextracted_or_extracted bundle descriptor world with
        ⟨stage, failure, hunextracted⟩ | ⟨path, content, after, hextracted⟩
      · rcases hunextracted.extract_eq with ⟨after, hresult, hafter⟩
        refine .inr ⟨stage, failure, after, .unextracted hresolved hunextracted, ?_, hafter⟩
        simp only [resolveAndExtract, hresolved, hresult]
      · exact .inl ⟨path, content, after, .intro hresolved hextracted⟩

/-- A launch ends at one of its stages, or passes them all. -/
theorem halts_or_completes (loader : Loader Library) (bundle : Bundle) (invocation : Invocation)
    (world : World) :
    (∃ stage failure, Halts loader bundle invocation world stage failure) ∨
      ∃ path library block called,
        Completes loader bundle invocation world path library block called := by
  rcases copied_or_halts loader bundle invocation world with
    ⟨path, content, after, hcopied⟩ | ⟨stage, failure, _, hhalts, _⟩
  · rcases uncalled_or_calls loader invocation after path with
      ⟨stage, failure, huncalled⟩ | ⟨library, block, hcalls⟩
    · exact .inl ⟨stage, failure, .uncalled hcopied huncalled⟩
    · exact .inr ⟨path, library, block, _, .intro hcopied hcalls⟩
  · exact .inl ⟨stage, failure, hhalts⟩

/-- What a launch leaves that ends at a stage: used up names, or all that the extraction made. -/
theorem Halts.launch_eq {stage : Stage} {failure : Failure}
    (h : Halts loader bundle invocation world stage failure) :
    ∃ after, world.launch loader bundle invocation = (.error failure, after) ∧
      if stage.isExtraction then UsesNames world after
      else ∃ path content, Copied bundle world path content after := by
  cases h with
  | unresolved hfails =>
      refine ⟨world, ?_, UsesNames.refl world⟩
      simp only [launch, resolveAndExtract, hfails]
  | unextracted hresolved hunextracted =>
      rcases hunextracted.extract_eq with ⟨after, hresult, hafter⟩
      refine ⟨after, ?_, ?_⟩
      · simp only [launch, resolveAndExtract, hresolved, hresult]
      · rw [if_pos hunextracted.isExtraction]
        exact hafter
  | @uncalled path content after _ _ hcopied huncalled =>
      refine ⟨after, ?_, ?_⟩
      · rw [hcopied.launch_eq, huncalled.invoke_eq]
      · rw [if_neg huncalled.isExtraction]
        exact ⟨path, content, hcopied⟩

theorem Halts.journal {stage : Stage} {failure : Failure}
    (h : Halts loader bundle invocation world stage failure) :
    (world.launch loader bundle invocation).2.nativeCalls = world.nativeCalls ∧
      (world.launch loader bundle invocation).2.mapped = world.mapped := by
  rcases h.launch_eq with ⟨after, hresult, hafter⟩
  rw [hresult]
  split at hafter
  · rw [show after = _ from hafter]
    exact ⟨rfl, rfl⟩
  · rcases hafter with ⟨path, content, hcopied⟩
    exact ⟨hcopied.equips.nativeCalls_eq, hcopied.equips.mapped_eq⟩

theorem Completes.launch_eq {library : Library} {block : ArgumentBlock} {called : World}
    (h : Completes loader bundle invocation world path library block called) :
    world.launch loader bundle invocation =
      (.ok ⟨UInt8.ofNat (loader.call library block called).1⟩,
        (loader.call library block called).2) := by
  cases h with
  | intro hcopied hcalls =>
      rw [hcopied.launch_eq, hcalls.invoke_eq]

section Discreet

variable (hdiscreet : loader.Discreet)
include hdiscreet

theorem Completes.journal {library : Library} {block : ArgumentBlock} {called : World}
    (h : Completes loader bundle invocation world path library block called) :
    (world.launch loader bundle invocation).2.nativeCalls = world.nativeCalls ++ [block.strings] ∧
      (world.launch loader bundle invocation).2.mapped = path :: world.mapped := by
  rw [h.launch_eq, hdiscreet.nativeCalls, hdiscreet.mapped]
  cases h with
  | intro hcopied hcalls =>
      simp [atCall, hcopied.equips.nativeCalls_eq, hcopied.equips.mapped_eq]

/-- The file that was copied outlives the launch, whatever comes of it. -/
theorem Copied.kept (h : Copied bundle world path content after) :
    (world.launch loader bundle invocation).2.read path = .ok content ∧
      (world.launch loader bundle invocation).2.pending = world.pending ++ [path] := by
  rcases uncalled_or_calls loader invocation after path with
    ⟨stage, failure, huncalled⟩ | ⟨library, block, hcalls⟩
  · rw [h.launch_eq, huncalled.invoke_eq]
    exact ⟨h.equips.read_eq, h.equips.pending_eq⟩
  · have hpending : (after.atCall path block).pending = world.pending ++ [path] :=
      h.equips.pending_eq
    have hread : (after.atCall path block).read path = .ok content := h.equips.read_eq
    rw [h.launch_eq, hcalls.invoke_eq]
    refine ⟨?_, ?_⟩
    · rw [hdiscreet.spared library block _ path (by simp [hpending]), hread]
    · rw [hdiscreet.pending, hpending]

/-- A launch answers with the first stage that fails, or with the low byte of what the entry point
returned; what it leaves behind is what the stages that passed have made. -/
theorem launch_pipeline (bundle : Bundle) (invocation : Invocation) (world : World) :
    Pipeline loader bundle invocation world where
  failed failure := by
    constructor
    · intro hresult
      rcases halts_or_completes loader bundle invocation world with
        ⟨stage, other, hhalts⟩ | ⟨path, library, block, called, hcompletes⟩
      · rcases hhalts.launch_eq with ⟨after, hlaunch, _⟩
        rw [hlaunch] at hresult
        cases hresult
        exact ⟨stage, hhalts⟩
      · rw [hcompletes.launch_eq] at hresult
        cases hresult
    · rintro ⟨stage, hhalts⟩
      rcases hhalts.launch_eq with ⟨after, hlaunch, _⟩
      rw [hlaunch]
  returned status := by
    constructor
    · intro hresult
      rcases halts_or_completes loader bundle invocation world with
        ⟨stage, other, hhalts⟩ | ⟨path, library, block, called, hcompletes⟩
      · rcases hhalts.launch_eq with ⟨after, hlaunch, _⟩
        rw [hlaunch] at hresult
        cases hresult
      · rw [hcompletes.launch_eq] at hresult
        cases hresult
        exact ⟨path, library, block, called, hcompletes, rfl⟩
    · rintro ⟨path, library, block, called, hcompletes, rfl⟩
      rw [hcompletes.launch_eq]
  halted stage failure hhalts := by
    rcases hhalts.launch_eq with ⟨after, hlaunch, hafter⟩
    rw [hlaunch]
    exact hafter
  called _ _ _ _ hcompletes := hcompletes.journal hdiscreet
  uncalled hnever := by
    rcases halts_or_completes loader bundle invocation world with
      ⟨stage, failure, hhalts⟩ | ⟨path, library, block, called, hcompletes⟩
    · exact hhalts.journal
    · exact absurd hcompletes (hnever path library block called)
  copied path content after hcopied := by
    have hkept : (world.launch loader bundle invocation).2.read path = .ok content ∧
        (world.launch loader bundle invocation).2.pending = world.pending ++ [path] :=
      hcopied.kept hdiscreet
    exact ⟨hcopied.equips.fresh, pathExists_of_read hkept.1, hkept.1, hkept.2,
      hcopied.launchNoting_eq⟩
  uncopied hnever := by
    rcases copied_or_halts loader bundle invocation world with
      ⟨path, content, after, hcopied⟩ | ⟨stage, failure, after, _, hresult, hafter⟩
    · exact absurd hcopied (hnever path content after)
    · rcases launch_of_uncopied hresult with ⟨hlaunch, hnoting⟩
      rw [hlaunch]
      refine ⟨?_, ?_, hnoting⟩
      · rw [show after = _ from hafter]
      · rw [show after = _ from hafter]

end Discreet
end Launch

/-! ## Loaders that only answer -/

/-- A loader that is known by its answers, whatever they are: its native calls do nothing but return
a number. -/
def oracle (load : World → Path → Option Library) (hasEntry : Library → Bool)
    (value : Library → ArgumentBlock → World → Nat) : Loader Library where
  load := load
  hasEntry := hasEntry
  call library block world := (value library block world, world)

theorem oracle_discreet (load : World → Path → Option Library) (hasEntry : Library → Bool)
    (value : Library → ArgumentBlock → World → Nat) : (oracle load hasEntry value).Discreet where
  pending _ _ _ := rfl
  mapped _ _ _ := rfl
  nativeCalls _ _ _ := rfl
  spared _ _ _ _ _ := rfl

/-- Every library loads, and its entry point returns a number. -/
def answering (value : Nat) : Loader Unit :=
  oracle (fun _ _ => some ()) (fun _ => true) fun _ _ _ => value

/-- Of a number too large for a status, the low byte is kept. -/
theorem launch_furnished :
    (answering 265).Discreet ∧
      Pipeline (answering 265) provisions ⟨"limbo_bridge", "server.toml", []⟩ furnished ∧
      (furnished.launch (answering 265) provisions ⟨"limbo_bridge", "server.toml", []⟩).1 =
        .ok ⟨9⟩ := by
  refine ⟨oracle_discreet _ _ _, launch_pipeline (oracle_discreet _ _ _) _ _ _, ?_⟩
  have hresolved : furnished.host.resolve =
      .ok ⟨.linux, "x86_64", "lib", ".so", "/linux/x86_64/libpico_limbo.so"⟩ := rfl
  simp only [launch, resolveAndExtract, hresolved]
  cbv

end World
end NativeLaunch
