import NativeLaunch.World

/-!
# Files to delete at the end

Every extracted file is registered for deletion at the end of the process, and can be released
before.  Being registered means equality of paths by component.  A release that cannot delete the
file leaves the registry as it is; the cleanup at the end tries each path once and forgets it.
-/

namespace NativeLaunch

namespace World

/-- Registers a file for deletion. -/
def register (world : World) (path : Path) : World :=
  { world with pending := world.pending ++ [path] }

/-- The list without the entry at an index; the last entry takes its place. -/
def swapRemove {α : Type} (entries : List α) (index : Nat) : List α :=
  match entries.getLast? with
  | none => entries
  | some last =>
    if index + 1 = entries.length then entries.dropLast else entries.dropLast.set index last

/-- Where a path is registered. -/
def pendingIndex? (world : World) (path : Path) : Option Nat :=
  world.pending.findIdx? (·.sameComponents path)

/-- Deletes one registered file and forgets it; answers whether that happened. -/
def releaseExtracted (world : World) (path : Path) : Bool × World :=
  match world.pendingIndex? path with
  | none => (false, world)
  | some index =>
    match world.unlink path with
    | (.error _, _) => (false, world)
    | (.ok _, unlinked) =>
      (true, { unlinked with pending := swapRemove unlinked.pending index })

/-- Deletes the files at the given paths, and counts those that could be deleted. -/
def unlinkEach (world : World) : List Path → Nat × World
  | [] => (0, world)
  | path :: rest =>
    match world.unlink path with
    | (.ok _, unlinked) =>
      let (count, done) := unlinked.unlinkEach rest
      (count + 1, done)
    | (.error _, _) => world.unlinkEach rest

/-- Deletes every registered file and empties the registry; answers how many files went. -/
def runExitCleanup (world : World) : Nat × World :=
  { world with pending := [] }.unlinkEach world.pending

end World

end NativeLaunch
