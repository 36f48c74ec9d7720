import NativeLaunch.Failure
import NativeLaunch.Text.Blank

/-!
# Platforms

Which bundled artifact belongs to which operating system and processor.  The table of targets is
fixed; a pair outside it has no artifact.  Names reported by a host are compared up to surrounding
blanks and ASCII case, and a few aliases of architectures are known.
-/

namespace NativeLaunch

/-- Families of operating systems that have an artifact. -/
inductive OsFamily
  | windows
  | macos
  | linux
deriving DecidableEq, Repr

namespace OsFamily

/-- The family's directory in a bundle. -/
def name : OsFamily → String
  | .windows => "windows"
  | .macos => "macos"
  | .linux => "linux"

/-- The family that a reported system name belongs to. -/
def parse? (os : String) : Option OsFamily :=
  let name := Text.normalize os
  if "windows".toList.isPrefixOf name then some .windows
  else if name = "macos".toList || name = "darwin".toList || "mac os".toList.isPrefixOf name then
    some .macos
  else if name = "linux".toList then some .linux
  else none

end OsFamily

/-- What is known of the artifact for one target. -/
structure PlatformDescriptor where
  osFamily : OsFamily
  architecture : String
  libraryPrefix : String
  fileExtension : String
  resourceSubpath : String
deriving DecidableEq, Repr

namespace Platform

/-- The family name of the artifacts as this library is built. -/
def libraryName : String := "pico_limbo"

/-- A row of the table of targets. -/
structure Target where
  osFamily : OsFamily
  architecture : String
  fileExtension : String
  libraryPrefix : String
deriving DecidableEq, Repr

/-- The targets that have an artifact. -/
def targets : List Target :=
  [⟨.windows, "x86_64", ".dll", ""⟩,
    ⟨.macos, "aarch64", ".dylib", "lib"⟩,
    ⟨.linux, "x86_64", ".so", "lib"⟩,
    ⟨.linux, "aarch64", ".so", "lib"⟩]

/-- The architecture name used in bundles for a reported one. -/
def normalizeArchitecture (architecture : String) : String :=
  let name := Text.normalize architecture
  if name = "amd64".toList || name = "x64".toList || name = "x86-64".toList then "x86_64"
  else if name = "arm64".toList then "aarch64"
  else String.ofList name

namespace Target

/-- The file name of a target's artifact in the artifact family `stem`. -/
def fileName (stem : String) (target : Target) : String :=
  target.libraryPrefix ++ stem ++ target.fileExtension

/-- The descriptor of a target in the artifact family `stem`. -/
def descriptor (stem : String) (target : Target) : PlatformDescriptor where
  osFamily := target.osFamily
  architecture := target.architecture
  libraryPrefix := target.libraryPrefix
  fileExtension := target.fileExtension
  resourceSubpath :=
    "/" ++ target.osFamily.name ++ "/" ++ target.architecture ++ "/" ++ target.fileName stem

end Target

/-- The descriptor in the artifact family `stem` for a reported system and architecture. -/
def resolveIn (stem os architecture : String) : Except Failure PlatformDescriptor :=
  match OsFamily.parse? os with
  | none => .error (.unsupportedPlatform os architecture)
  | some family =>
    let name := normalizeArchitecture architecture
    match targets.find? (fun t => t.osFamily = family && t.architecture = name) with
    | none => .error (.unsupportedPlatform os architecture)
    | some target => .ok (target.descriptor stem)

/-- The descriptor for a reported system and architecture. -/
def resolveFor (os architecture : String) : Except Failure PlatformDescriptor :=
  resolveIn libraryName os architecture

/-- A system and an architecture as their host reports them. -/
structure Host where
  os : String
  architecture : String
deriving DecidableEq, Repr

namespace Host

/-- The host that the command line and the launchers run on. -/
def current : Host := ⟨"linux", "x86_64"⟩

/-- The descriptor for a host. -/
def resolve (host : Host) : Except Failure PlatformDescriptor :=
  resolveFor host.os host.architecture

end Host

end Platform

namespace PlatformDescriptor

/-- The artifact's file name in the artifact family `stem`. -/
def fileNameIn (stem : String) (descriptor : PlatformDescriptor) : String :=
  descriptor.libraryPrefix ++ stem ++ descriptor.fileExtension

/-- The artifact's file name. -/
def fileName (descriptor : PlatformDescriptor) : String :=
  descriptor.fileNameIn Platform.libraryName

/-- The target for a reader: family and architecture. -/
def display (descriptor : PlatformDescriptor) : String :=
  descriptor.osFamily.name ++ "/" ++ descriptor.architecture

end PlatformDescriptor

end NativeLaunch
