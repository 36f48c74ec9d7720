import NativeLaunch.Launch

/-!
# Launchers

What a worker calls to make its native call and a host calls to clean up after it: two functions
over a state of the launcher's own.  The call may be left waiting inside the native component, and
then there is no result yet.
-/

namespace NativeLaunch

/-- Makes native calls, over a state of its own. -/
structure Launcher (Held : Type) where
  /-- Makes the call of an invocation; without a result it is waiting inside the component. -/
  launch : Invocation → Held → World → Option (Except Failure ExitStatus) × Held × World
  /-- Removes what earlier calls left behind, and counts it. -/
  release : Held → World → Nat × Held × World

namespace Launcher

/-- The launcher of the artifact in a bundle; it holds the files that it extracted. -/
def ofBundle {Library : Type} (loader : Loader Library) (bundle : Bundle) :
    Launcher (List Path) where
  launch invocation extracted world :=
    let (result, kept, after) := world.launchNoting loader bundle invocation extracted
    (some result, kept, after)
  release extracted world := world.releaseArtifacts extracted

end Launcher

end NativeLaunch
