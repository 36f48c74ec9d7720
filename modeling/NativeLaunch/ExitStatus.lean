/-!
# Exit status

The byte with which a native component ends, read as a process exit code.
-/

namespace NativeLaunch

/-- The status byte of a native component; zero means success. -/
structure ExitStatus where
  code : UInt8
deriving DecidableEq, Repr, Inhabited

namespace ExitStatus

/-- The status of a component that ended well. -/
def success : ExitStatus := ⟨0⟩

/-- Whether the component ended well. -/
def isSuccess (status : ExitStatus) : Bool := status.code = 0

/-- The status in decimal. -/
def toText (status : ExitStatus) : String := toString status.code.toNat

end ExitStatus

end NativeLaunch
