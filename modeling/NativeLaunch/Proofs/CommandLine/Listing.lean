import NativeLaunch.Proofs.Bundle.Listing
import NativeLaunch.Proofs.CommandLine.Runs
import NativeLaunch.Proofs.Launch.Cleanup
import NativeLaunch.Proofs.Launch.Failures

/-!
# The listing and the launch

The listing walks the platform directories of a bundle, reads names as texts and compares those; a launch
takes the resource path apart and asks for one file.  They agree on what there is for the host.  This
file defines:

* `Says` — what a listing opens with;
* `ListingAgrees` — what it says against what a launch in the same surroundings does.

A name that is listed may be read with replacements, but then it is no name of an artifact, as those have
no replacement character (`Bundle.mem_resourcePaths_iff`).
-/

namespace NativeLaunch

/-! ## Platforms -/

namespace Platform

/-- The directories and the file name of a target are names, and are read as such. -/
theorem isName_of_mem_targets : ∀ target ∈ targets,
    (target.osFamily.name, target.architecture) ∈ Bundle.platformDirectories ∧
      Path.IsName (Utf8.encode (target.fileName libraryName)) ∧
      '\uFFFD' ∉ (target.fileName libraryName).toList := by
  decide

end Platform

namespace CommandLine

variable {Library : Type}

/-! ## Listings -/

/-- A listing opens with what it found of the artifact for a platform. -/
def Says (text : String) (descriptor : PlatformDescriptor) (finding : String) : Prop :=
  ∃ rest, text = "platform: " ++ descriptor.display ++ " -> " ++ descriptor.resourceSubpath ++
    " (" ++ finding ++ ")\n" ++ rest

/-- How the listing agrees with launches in the same surroundings, and with the table of platforms. -/
structure ListingAgrees (loader : Loader Library) (builtIn : Bundle.Resources) (world : World) :
    Prop where
  -- Of the artifact for the host, out of any bundle that settings can select.
  bundled : ∀ settings descriptor invocation, world.host.resolve = .ok descriptor →
    (Says (listing (bundleOf builtIn settings) world) descriptor "bundled" ↔
      ∀ resource, (world.launch loader (bundleOf builtIn settings) invocation).1 ≠
        .error (.artifactNotFound resource))
  missing : ∀ settings descriptor invocation, world.host.resolve = .ok descriptor →
    (Says (listing (bundleOf builtIn settings) world) descriptor "missing" ↔
      (world.launch loader (bundleOf builtIn settings) invocation).1 =
        .error (.artifactNotFound descriptor.resourceSubpath))
  -- A host without an artifact is told so by both.
  unsupported : ∀ settings failure invocation, world.host.resolve = .error failure →
    (∃ rest,
      listing (bundleOf builtIn settings) world = "platform: " ++ failure.message ++ "\n" ++ rest) ∧
      (world.launch loader (bundleOf builtIn settings) invocation).1 = .error failure
  -- A directory is searched where the artifact of any platform would be opened.
  scanned : ∀ os architecture descriptor, Platform.resolveFor os architecture = .ok descriptor →
    (descriptor.osFamily.name, descriptor.architecture) ∈ Bundle.platformDirectories ∧
      descriptor.resourceSubpath =
        "/" ++ descriptor.osFamily.name ++ "/" ++ descriptor.architecture ++ "/" ++
          descriptor.fileName ∧
      ∀ root files wd, descriptor.resourceSubpath ∈ (Bundle.directory root).resourcePaths files wd ↔
        (Bundle.directory root).openResource files wd descriptor.resourceSubpath ≠ .ok none
  -- A run that is asked for the listing prints it and does nothing else.
  printed : ∀ words options loaded, Options.read words = .ok options →
    options.listArtifacts = true → options.loadSettings world = .ok loaded → world.pending = [] →
    runWords loader builtIn words world =
      (.exited .success,
        world.print (Utf8.encode (listing (bundleOf builtIn (options.override loaded)) world)))
  silent : ∀ words options fault, Options.read words = .ok options →
    options.listArtifacts = true → options.loadSettings world = .error fault → world.pending = [] →
    runWords loader builtIn words world = (.failed (.settings fault), world)

/-- The platform's resource path is listed if and only if it can be opened. -/
theorem mem_resourcePaths_of_resolveFor {os architecture : String}
    {descriptor : PlatformDescriptor} (h : Platform.resolveFor os architecture = .ok descriptor)
    (root : Path) (files : FileTree) (wd : Location) :
    descriptor.resourceSubpath ∈ (Bundle.directory root).resourcePaths files wd ↔
      (Bundle.directory root).openResource files wd descriptor.resourceSubpath ≠ .ok none := by
  obtain ⟨target, htarget, rfl⟩ := Platform.exists_target_of_resolveFor h
  rcases Platform.isName_of_mem_targets target htarget with ⟨hpair, hfile, hread⟩
  rw [Ne, Bundle.openResource_eq_none_iff, Bool.not_eq_false]
  exact Bundle.mem_resourcePaths_iff root files wd hpair hfile hread

theorem joinLines_cons (line : String) (lines : List String) :
    joinLines (line :: lines) = line ++ "\n" ++ joinLines lines := by
  simp [joinLines]

section Says

variable {world : World} {descriptor : PlatformDescriptor}

theorem says_listing (bundle : Bundle) (hresolved : world.host.resolve = .ok descriptor) :
    Says (listing bundle world) descriptor
      (if descriptor.resourceSubpath ∈ bundle.resourcePaths world.files world.workingDirectory then
        "bundled" else "missing") := by
  refine ⟨joinLines ((bundle.resourcePaths world.files world.workingDirectory).map ("  " ++ ·)), ?_⟩
  simp only [listing, hresolved, joinLines_cons]
  split <;> simp_all [String.append_assoc]

/-- Nothing is said to be both there and missing. -/
theorem not_says_both {text : String} (hbundled : Says text descriptor "bundled")
    (hmissing : Says text descriptor "missing") : False := by
  rcases hbundled with ⟨rest, rfl⟩
  rcases hmissing with ⟨rest', hsame⟩
  rw [← String.toList_inj] at hsame
  simp at hsame

theorem says_bundled_iff (bundle : Bundle) (hresolved : world.host.resolve = .ok descriptor) :
    Says (listing bundle world) descriptor "bundled" ↔
      descriptor.resourceSubpath ∈ bundle.resourcePaths world.files world.workingDirectory := by
  have hsays := says_listing bundle hresolved
  split at hsays
  · exact iff_of_true hsays (by assumption)
  · exact iff_of_false (fun hbundled => not_says_both hbundled hsays) (by assumption)

theorem says_missing_iff (bundle : Bundle) (hresolved : world.host.resolve = .ok descriptor) :
    Says (listing bundle world) descriptor "missing" ↔
      descriptor.resourceSubpath ∉ bundle.resourcePaths world.files world.workingDirectory := by
  have hsays := says_listing bundle hresolved
  split at hsays
  · exact iff_of_false (not_says_both hsays) (not_not_intro (by assumption))
  · exact iff_of_true hsays (by assumption)

/-- Whatever bundle the settings select, the host's artifact is listed if and only if it opens. -/
theorem mem_resourcePaths_bundleOf (builtIn : Bundle.Resources) (settings : Settings)
    (hresolved : world.host.resolve = .ok descriptor) (files : FileTree) (wd : Location) :
    descriptor.resourceSubpath ∈ (bundleOf builtIn settings).resourcePaths files wd ↔
      (bundleOf builtIn settings).openResource files wd descriptor.resourceSubpath ≠ .ok none := by
  unfold bundleOf
  cases settings.nativesDirectory with
  | some root =>
      exact mem_resourcePaths_of_resolveFor hresolved root files wd
  | none =>
      simp [Bundle.embedded]

end Says

/-- Out of the same bundle in the same surroundings, the listing calls bundled what a launch finds. -/
theorem listing_agrees (loader : Loader Library) (builtIn : Bundle.Resources) (world : World) :
    ListingAgrees loader builtIn world where
  bundled settings descriptor invocation hresolved := by
    rw [says_bundled_iff _ hresolved, mem_resourcePaths_bundleOf builtIn settings hresolved]
    simp only [Ne, World.launch_artifactNotFound_iff hresolved, not_and, forall_eq]
  missing settings descriptor invocation hresolved := by
    rw [says_missing_iff _ hresolved, mem_resourcePaths_bundleOf builtIn settings hresolved,
      World.launch_artifactNotFound_iff hresolved, Classical.not_not]
    simp only [true_and]
  unsupported settings failure invocation hunresolved := by
    refine ⟨?_, ?_⟩
    · simp only [listing, hunresolved, joinLines_cons]
      exact ⟨_, rfl⟩
    · simp only [World.launch, World.resolveAndExtract, hunresolved]
  scanned os architecture descriptor hresolved := by
    obtain ⟨target, htarget, rfl⟩ := Platform.exists_target_of_resolveFor hresolved
    exact ⟨(Platform.isName_of_mem_targets target htarget).1, rfl,
      mem_resourcePaths_of_resolveFor hresolved⟩
  printed words options loaded hread hlists hloads hpending := by
    rw [runWords_of_read hread, (Lists.intro hloads hlists).execute_eq,
      World.runExitCleanup_of_pending (by exact hpending)]
    rfl
  silent words options fault hread _ hunloaded hpending := by
    rw [runWords_of_read hread, (Fails.settings hunloaded).execute_eq,
      World.runExitCleanup_of_pending hpending]
    rfl

end CommandLine
end NativeLaunch
