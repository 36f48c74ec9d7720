import NativeLaunch.Launch
import NativeLaunch.Proofs.FileTree.Placing

/-!
# What an extraction leaves

An extraction opens the artifact of a platform in the bundle, makes a file under a fresh name, and
copies.  The first of these stages that fails ends it.  This file defines:

* `Stage` — the stages of a launch, these three and those before and after them;
* `Unextracted` — an extraction ends at a stage with a failure;
* `Extracted` — it passes all three.

A failed extraction leaves nothing, whichever stage it failed at, but that it may have used up names.
One that has passed leaves a new file with the artifact's bytes, registered for deletion (`Equips`).
-/

namespace NativeLaunch
namespace World

/-! ## Fresh files -/

/-- Names have been used up, and nothing else has changed. -/
def UsesNames (before after : World) : Prop := after = { before with serial := after.serial }

theorem UsesNames.refl (world : World) : UsesNames world world := rfl

/-- An empty file has been made at a free name. -/
structure MakesFile (before : World) (path : Path) (place : Location) (after : World) : Prop where
  free : before.files.Frees before.workingDirectory path place
  made :
    after =
      { before with serial := after.serial, files := before.files.insert place (.file []) }

/-- Making a file fails and leaves none, or makes one at a name that was free. -/
theorem createTemporaryWithin_cases (directory : Path) (stem ending : String) (attempts : Nat)
    (world : World) :
    (∃ fault after,
      createTemporaryWithin directory stem ending attempts world = (.error fault, after) ∧
        fault.isInterruption = false ∧ UsesNames world after) ∨
    ∃ path place after,
      createTemporaryWithin directory stem ending attempts world = (.ok (path, place), after) ∧
        MakesFile world path place after := by
  induction attempts generalizing world with
  | zero =>
      exact .inl ⟨_, _, rfl, rfl, rfl⟩
  | succ attempts ih =>
      rw [createTemporaryWithin]
      generalize directory.join ⟨TemporaryName.spell stem ending world.serial⟩ = path
      cases hnew : world.files.createNew world.workingDirectory path with
      | mk answer files =>
          simp only [withFiles]
          cases answer with
          | ok place =>
              rcases FileTree.createNew_ok hnew with ⟨hfrees, rfl⟩
              exact .inr ⟨_, _, _, rfl, hfrees, rfl⟩
          | error kind =>
              by_cases htaken : kind = .alreadyExists
              -- The next name is tried, and what is said of it can be said of this one.
              · subst htaken
                rcases ih { world with serial := world.serial + 1 } with
                  ⟨fault, after, hresult, hlasts, hafter⟩ | ⟨path, place, after, hresult, hfree, hmade⟩
                · exact .inl ⟨fault, after, hresult, hlasts, hafter⟩
                · exact .inr ⟨path, place, after, hresult, hfree, hmade⟩
              · refine .inl ⟨.system kind, { world with serial := world.serial + 1 }, ?_, ?_, rfl⟩
                · cases kind with
                  | alreadyExists =>
                      exact absurd rfl htaken
                  | _ =>
                      rfl
                · exact decide_eq_false (FileTree.createNew_ne_interrupted hnew)

/-- A file that was made and not filled is taken back without a trace. -/
theorem MakesFile.unlink {before after : World} {path : Path} {place : Location}
    (h : MakesFile before path place after) : UsesNames before (after.unlink path).2 := by
  have hnames := h.free.names_insert []
  rw [h.made]
  unfold UsesNames World.unlink withFiles
  rw [hnames.unlink_eq, FileTree.erase_insert, FileTree.erase_of_node? h.free.node?_eq_none]

theorem MakesFile.medium_eq {before after : World} {path : Path} {place : Location}
    (h : MakesFile before path place after) : after.medium = before.medium := by
  rw [h.made]

/-! ## Stages -/

/-- The stages of a launch, in order. -/
inductive Stage
  | platform
  | resource
  | file
  | copy
  | arguments
  | library
  | symbol
deriving DecidableEq, Repr

def Stage.isExtraction : Stage → Bool
  | .platform => true
  | .resource => true
  | .file => true
  | .copy => true
  | _ => false

/-- An extraction for a platform ends at a stage with a failure; those before have passed. -/
inductive Unextracted (bundle : Bundle) (descriptor : PlatformDescriptor) (world : World) :
    Stage → Failure → Prop
  | unreadable {fault : Fault}
      (fails : bundle.openResource world.files world.workingDirectory descriptor.resourceSubpath =
        .error fault) :
      Unextracted bundle descriptor world .resource
        (.extraction descriptor.resourceSubpath (.ofString descriptor.resourceSubpath) fault)
  | missing
      (fails : bundle.openResource world.files world.workingDirectory descriptor.resourceSubpath =
        .ok none) :
      Unextracted bundle descriptor world .resource (.artifactNotFound descriptor.resourceSubpath)
  | file {stream : Stream} {fault : Fault} {tried : World}
      (opens : bundle.openResource world.files world.workingDirectory descriptor.resourceSubpath =
        .ok (some stream))
      (fails : world.createTemporary Platform.libraryName descriptor.fileExtension =
        (.error fault, tried)) :
      Unextracted bundle descriptor world .file
        (.extraction descriptor.resourceSubpath world.temporaryDirectory fault)
  | copy {stream : Stream} {fault : Fault} {path : Path} {place : Location} {made : World}
      (opens : bundle.openResource world.files world.workingDirectory descriptor.resourceSubpath =
        .ok (some stream))
      (makes : world.createTemporary Platform.libraryName descriptor.fileExtension =
        (.ok (path, place), made))
      (fails : World.copy world.medium [] stream = .error fault) :
      Unextracted bundle descriptor world .copy
        (.extraction descriptor.resourceSubpath path fault)

/-- It passes all its stages. -/
inductive Extracted (bundle : Bundle) (descriptor : PlatformDescriptor) (world : World) :
    Path → Bytes → World → Prop
  | intro {stream : Stream} {path : Path} {place : Location} {made : World} {content : Bytes}
      (opens : bundle.openResource world.files world.workingDirectory descriptor.resourceSubpath =
        .ok (some stream))
      (makes : world.createTemporary Platform.libraryName descriptor.fileExtension =
        (.ok (path, place), made))
      (copies : World.copy world.medium [] stream = .ok content) :
      Extracted bundle descriptor world path content
        { made with
          files := made.files.insert place (.file content)
          pending := made.pending ++ [path] }

/-- A file has appeared at a free name, with some content, and is registered for deletion. -/
structure Equips (before : World) (path : Path) (content : Bytes) (after : World) : Prop where
  fresh : before.pathExists path = false
  named : ∃ place, after.files.Names after.workingDirectory path place content
  changed :
    after =
      { before with
        serial := after.serial
        files := after.files
        pending := before.pending ++ [path] }

section Extraction

variable {bundle : Bundle} {descriptor : PlatformDescriptor} {world after : World} {path : Path}
  {content : Bytes}

theorem createTemporary_error {stem ending : String} {fault : Fault}
    (h : world.createTemporary stem ending = (.error fault, after)) :
    fault.isInterruption = false ∧ UsesNames world after := by
  unfold createTemporary at h
  split at h
  · cases h
    exact ⟨rfl, UsesNames.refl world⟩
  · rename_i directory _
    rcases createTemporaryWithin_cases directory stem ending (world.files.nodes.length + 1) world with
      ⟨_, _, hresult, hlasts, hafter⟩ | ⟨_, _, _, hresult, _⟩
    · cases hresult.symm.trans h
      exact ⟨hlasts, hafter⟩
    · cases hresult.symm.trans h

theorem createTemporary_ok {stem ending : String} {place : Location}
    (h : world.createTemporary stem ending = (.ok (path, place), after)) :
    MakesFile world path place after := by
  unfold createTemporary at h
  split at h
  · cases h
  · rename_i directory _
    rcases createTemporaryWithin_cases directory stem ending (world.files.nodes.length + 1) world with
      ⟨_, _, hresult, _, _⟩ | ⟨_, _, _, hresult, hmakes⟩
    · cases hresult.symm.trans h
    · cases hresult.symm.trans h
      exact hmakes

theorem Extracted.equips (h : Extracted bundle descriptor world path content after) :
    Equips world path content after := by
  cases h with
  | @intro stream path place made content opens makes copies =>
      have hmakes := createTemporary_ok makes
      refine ⟨?_, ⟨place, ?_⟩, ?_⟩
      · simp [pathExists, FileTree.pathExists, hmakes.free.find_error, Except.isOk, Except.toBool]
      · rw [hmakes.made, FileTree.insert_insert]
        exact hmakes.free.names_insert content
      · rw [hmakes.made]

/-- An extraction ends at one of its stages, or passes them all. -/
theorem unextracted_or_extracted (bundle : Bundle) (descriptor : PlatformDescriptor)
    (world : World) :
    (∃ stage failure, Unextracted bundle descriptor world stage failure) ∨
      ∃ path content after, Extracted bundle descriptor world path content after := by
  cases hopens : bundle.openResource world.files world.workingDirectory
      descriptor.resourceSubpath with
  | error fault =>
      exact .inl ⟨_, _, .unreadable hopens⟩
  | ok opened =>
      cases opened with
      | none =>
          exact .inl ⟨_, _, .missing hopens⟩
      | some stream =>
          cases hmakes : world.createTemporary Platform.libraryName descriptor.fileExtension with
          | mk answer made =>
              cases answer with
              | error fault =>
                  exact .inl ⟨_, _, .file hopens hmakes⟩
              | ok found =>
                  cases hcopies : World.copy world.medium [] stream with
                  | error fault =>
                      exact .inl ⟨_, _, .copy hopens hmakes hcopies⟩
                  | ok content =>
                      exact .inr ⟨_, _, _, .intro hopens hmakes hcopies⟩

/-- The failure is that of the stage, and nothing is left. -/
theorem Unextracted.extract_eq {stage : Stage} {failure : Failure}
    (h : Unextracted bundle descriptor world stage failure) :
    ∃ after, world.extract bundle descriptor = (.error failure, after) ∧ UsesNames world after := by
  cases h with
  | unreadable hfails =>
      refine ⟨world, ?_, UsesNames.refl world⟩
      simp only [extract, hfails]
  | missing hfails =>
      refine ⟨world, ?_, UsesNames.refl world⟩
      simp only [extract, hfails]
  | file hopens hfails =>
      refine ⟨_, ?_, (createTemporary_error hfails).2⟩
      simp only [extract, hopens, hfails]
  | copy hopens hmade hfails =>
      -- The one failure that comes after the file was made: it is taken back.
      have hmakes := createTemporary_ok hmade
      refine ⟨_, ?_, hmakes.unlink⟩
      simp only [extract, hopens, hmade, hmakes.medium_eq, hfails]

theorem Extracted.extract_eq (h : Extracted bundle descriptor world path content after) :
    world.extract bundle descriptor = (.ok ⟨descriptor.resourceSubpath, path⟩, after) := by
  cases h with
  | intro opens makes copies =>
      rw [← (createTemporary_ok makes).medium_eq] at copies
      simp only [extract, opens, makes, copies]
      rfl

end Extraction

/-- A world with a directory for temporary files. -/
def furnished : World where
  files := ⟨[([Utf8.encode "tmp"], .directory)]⟩
  temporaryDirectory := .ofString "/tmp"

/-- An artifact for its platform. -/
def provisions : Bundle := .memory [("/linux/x86_64/libpico_limbo.so", [0x7F, 0x45, 0x4C, 0x46])]

end World
end NativeLaunch
