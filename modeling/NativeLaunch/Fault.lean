/-!
# Faults

Why an operation on a file or stream failed.  A fault is told apart by its kind; it may carry words
of its own, and otherwise the operating system's words stand for it.
-/

namespace NativeLaunch

/-- The kinds of fault that reading and writing can meet. -/
inductive FaultKind
  | notFound | permissionDenied | connectionRefused | connectionReset | hostUnreachable
  | networkUnreachable | connectionAborted | notConnected | addrInUse | addrNotAvailable
  | networkDown | brokenPipe | alreadyExists | wouldBlock | notADirectory | isADirectory
  | directoryNotEmpty | readOnlyFilesystem | filesystemLoop | staleNetworkFileHandle
  | invalidInput | invalidData | timedOut | writeZero | storageFull | notSeekable
  | quotaExceeded | fileTooLarge | resourceBusy | executableFileBusy | deadlock
  | crossesDevices | tooManyLinks | invalidFilename | argumentListTooLong | interrupted
  | unsupported | unexpectedEof | outOfMemory | inProgress | other
deriving DecidableEq, Repr, Inhabited

namespace FaultKind

/-- Every kind with its name. -/
def names : List (FaultKind × String) :=
  [(.notFound, "NotFound"), (.permissionDenied, "PermissionDenied"),
    (.connectionRefused, "ConnectionRefused"), (.connectionReset, "ConnectionReset"),
    (.hostUnreachable, "HostUnreachable"), (.networkUnreachable, "NetworkUnreachable"),
    (.connectionAborted, "ConnectionAborted"), (.notConnected, "NotConnected"),
    (.addrInUse, "AddrInUse"), (.addrNotAvailable, "AddrNotAvailable"),
    (.networkDown, "NetworkDown"), (.brokenPipe, "BrokenPipe"),
    (.alreadyExists, "AlreadyExists"), (.wouldBlock, "WouldBlock"),
    (.notADirectory, "NotADirectory"), (.isADirectory, "IsADirectory"),
    (.directoryNotEmpty, "DirectoryNotEmpty"), (.readOnlyFilesystem, "ReadOnlyFilesystem"),
    (.filesystemLoop, "FilesystemLoop"), (.staleNetworkFileHandle, "StaleNetworkFileHandle"),
    (.invalidInput, "InvalidInput"), (.invalidData, "InvalidData"), (.timedOut, "TimedOut"),
    (.writeZero, "WriteZero"), (.storageFull, "StorageFull"), (.notSeekable, "NotSeekable"),
    (.quotaExceeded, "QuotaExceeded"), (.fileTooLarge, "FileTooLarge"),
    (.resourceBusy, "ResourceBusy"), (.executableFileBusy, "ExecutableFileBusy"),
    (.deadlock, "Deadlock"), (.crossesDevices, "CrossesDevices"),
    (.tooManyLinks, "TooManyLinks"), (.invalidFilename, "InvalidFilename"),
    (.argumentListTooLong, "ArgumentListTooLong"), (.interrupted, "Interrupted"),
    (.unsupported, "Unsupported"), (.unexpectedEof, "UnexpectedEof"),
    (.outOfMemory, "OutOfMemory"), (.inProgress, "InProgress"), (.other, "Other")]

/-- The name of a kind. -/
def name (kind : FaultKind) : String :=
  (names.find? (·.1 = kind)).elim "Other" (·.2)

/-- The kind of a name; a name outside the table counts as `other`. -/
def ofName (name : String) : FaultKind :=
  (names.find? (·.2 = name)).elim .other (·.1)

end FaultKind

/-- A fault: its kind, and its own words if it has any. -/
structure Fault where
  kind : FaultKind
  words : Option String := none
deriving DecidableEq, Repr, Inhabited

namespace Fault

/-- A fault that the operating system reports. -/
def system (kind : FaultKind) : Fault := ⟨kind, none⟩

/-- The words of a fault; `<io>` stands for the operating system's own. -/
def text (fault : Fault) : String := fault.words.getD "<io>"

/-- Whether the fault asks for the same read to be tried again. -/
def isInterruption (fault : Fault) : Bool := fault.kind = .interrupted

end Fault

end NativeLaunch
