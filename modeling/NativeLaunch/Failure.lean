import NativeLaunch.ExitStatus
import NativeLaunch.Fault
import NativeLaunch.Path

/-!
# Failures of a launch

Everything that can go wrong between picking an artifact and getting a status back.  All causes but
one come before the native component runs; nothing is tried again and no other artifact is tried.
-/

namespace NativeLaunch

/-- Why a launch failed. -/
inductive Failure
  | unsupportedPlatform (os architecture : String)
  | artifactNotFound (resource : String)
  | extraction (resource : String) (path : Path) (cause : Fault)
  | libraryLoad (path : Path)
  | symbolResolution (symbol : String) (path : Path)
  | invalidArgument (index : Nat)
  | nativeFailure (status : UInt8)
deriving DecidableEq, Repr

namespace Failure

/-- The message of a failure; `<diag>` stands for the dynamic loader's own words. -/
def message : Failure → String
  | .unsupportedPlatform os architecture =>
    "unsupported platform: os `" ++ os ++ "`, architecture `" ++ architecture ++ "`"
  | .artifactNotFound resource => "native artifact not found in bundle: " ++ resource
  | .extraction resource path cause =>
    "failed to extract " ++ resource ++ " to " ++ path.display ++ ": " ++ cause.text
  | .libraryLoad path => "failed to load native library " ++ path.display ++ ": <diag>"
  | .symbolResolution symbol path =>
    "entry point `" ++ symbol ++ "` not found in " ++ path.display ++ ": <diag>"
  | .invalidArgument index =>
    "invalid native argument at position " ++ toString index ++ ": contains a NUL byte"
  | .nativeFailure status => "native component exited with status " ++ toString status.toNat

/-- Whether the failure came before the native component ran. -/
def isBridgeStage : Failure → Bool
  | .nativeFailure _ => false
  | _ => true

/-- The process exit code of a failure: the component's own status, or one for any other cause. -/
def exitCode : Failure → UInt8
  | .nativeFailure status => status
  | _ => 1

end Failure

namespace ExitStatus

/-- The status as a result: a status other than zero is a failure that carries it. -/
def toResult (status : ExitStatus) : Except Failure ExitStatus :=
  if status.isSuccess then .ok status else .error (.nativeFailure status.code)

end ExitStatus

end NativeLaunch
