import NativeLaunch.Proofs.FileTree.Walking
import NativeLaunch.Proofs.Launch.Pipeline
import NativeLaunch.Proofs.Processor.Effects

/-!
# Cleaning up after a launch

The file that a launch extracts is deleted at the end of the process.  If the library was not called, the
cleanup undoes the extraction to the last (`Copied.usesNames_runExitCleanup`).  If it was, its code may
have changed any files, and what is left to say is that no file is at that path any more.  This file
defines:

* `FileTree.LeadsToNoFile` — a path leads to nothing, or at most to a directory.
-/

namespace NativeLaunch

namespace FileTree

variable {tree : FileTree} {path : Path}

/-- From wherever it is seen, and without following a link at its end, a path leads to no file or link. -/
def LeadsToNoFile (tree : FileTree) (path : Path) : Prop :=
  ∀ wd place node, tree.resolve wd false path = .ok (.present place node) → node = .directory

end FileTree

/-! ## Extracted files -/

namespace World

theorem isAbsolute_workingPath (world : World) : world.workingPath.isAbsolute = true := by
  unfold workingPath Location.toPath
  split
  · rfl
  · rename_i place hplace
    cases hlocation : world.workingDirectory with
    | nil =>
        exact absurd hlocation hplace
    | cons name rest =>
        rfl

theorem isAbsolute_currentDirectory (world : World) :
    ∀ directory ∈ world.currentDirectory?, directory.isAbsolute = true := by
  intro directory hdirectory
  cases (Option.ite_none_right_eq_some.1 hdirectory).2
  exact isAbsolute_workingPath world

theorem isAbsolute_of_createTemporaryWithin {directory : Path} {stem ending : String} {attempts : Nat}
    {world after : World} {path : Path} {place : Location} (hdirectory : directory.isAbsolute = true)
    (h : createTemporaryWithin directory stem ending attempts world = (.ok (path, place), after)) :
    path.isAbsolute = true := by
  induction attempts generalizing world with
  | zero =>
      cases h
  | succ attempts ih =>
      rw [createTemporaryWithin] at h
      simp only at h
      split at h
      · cases h
        exact Path.isAbsolute_join_of_isAbsolute hdirectory _
      · exact ih h
      · cases h

theorem isAbsolute_of_createTemporary {stem ending : String} {world after : World} {path : Path}
    {place : Location} (h : world.createTemporary stem ending = (.ok (path, place), after)) :
    path.isAbsolute = true := by
  unfold createTemporary at h
  split at h
  · cases h
  · rename_i directory hdirectory
    exact isAbsolute_of_createTemporaryWithin
      (Path.isAbsolute_seenFrom? (isAbsolute_currentDirectory world) hdirectory) h

section Extracted

variable {bundle : Bundle} {descriptor : PlatformDescriptor} {world after : World} {path : Path}
  {content : Bytes}

theorem Extracted.isAbsolute (h : Extracted bundle descriptor world path content after) :
    path.isAbsolute = true := by
  cases h with
  | intro _ hmakes _ =>
      exact isAbsolute_of_createTemporary hmakes

/-- Where nothing is registered, there is nothing to clean up. -/
theorem runExitCleanup_of_pending (hpending : world.pending = []) :
    world.runExitCleanup.2 = world := by
  unfold runExitCleanup
  rw [hpending, unlinkEach, ← hpending]

/-- Of one registered file, the cleanup unlinks the path and forgets it. -/
theorem runExitCleanup_of_single (hpending : world.pending = [path]) :
    world.runExitCleanup.2 =
      { world with
        pending := []
        files := (world.files.unlink world.workingDirectory path).2 } := by
  unfold runExitCleanup
  rw [hpending, unlinkEach]
  cases hunlink : world.files.unlink world.workingDirectory path with
  | mk answer files =>
      cases answer with
      | ok _ =>
          simp [World.unlink, withFiles, hunlink, unlinkEach]
      | error kind =>
          simp [World.unlink, withFiles, hunlink, unlinkEach, FileTree.unlink_error hunlink]

end Extracted

/-! ## Launches -/

section Launch

variable {Library : Type} {loader : Loader Library} {bundle : Bundle} {invocation : Invocation}
  {world : World}

namespace Completes

variable {path : Path} {library : Library} {block : ArgumentBlock} {called : World}
  (h : Completes loader bundle invocation world path library block called)
include h

theorem pending_eq (hpending : world.pending = []) : called.pending = [path] := by
  cases h with
  | intro hcopied _ =>
      have hregistered := hcopied.equips.pending_eq
      rw [hpending] at hregistered
      exact hregistered

theorem nativeCalls_eq : called.nativeCalls = world.nativeCalls ++ [block.strings] := by
  cases h with
  | intro hcopied _ =>
      simp [atCall, hcopied.equips.nativeCalls_eq]

/-- What the call leaves of the files is left, but for the file that it was loaded from. -/
theorem runExitCleanup_eq (hbooks : loader.LeavesBooks) (hpending : world.pending = []) :
    (world.launch loader bundle invocation).2.runExitCleanup.2 =
      { (loader.call library block called).2 with
        pending := []
        files := ((loader.call library block called).2.unlink path).2.files } := by
  have hregistered : (loader.call library block called).2.pending = [path] := by
    rw [hbooks.pending, h.pending_eq hpending]
  rw [h.launch_eq, runExitCleanup_of_single hregistered]
  rfl

end Completes

end Launch
end World
end NativeLaunch
