import NativeLaunch.Extraction
import NativeLaunch.Loader

/-!
# Launching

From a bundle to a status: resolve the platform, extract its artifact, load it, and call its entry
point.  The arguments are checked before anything is loaded, a library without an entry point is
unmapped again, and one that was called stays mapped for good.  The first stage that fails ends the
launch; a status other than zero is no failure.
-/

namespace NativeLaunch

namespace World

/-- Notes that a library was mapped. -/
def map (world : World) (path : Path) : World := { world with mapped := path :: world.mapped }

/-- Notes that a library was unmapped. -/
def unmap (world : World) (path : Path) : World := { world with mapped := world.mapped.erase path }

variable {Library : Type}

/-- Loads a library and notes its mapping. -/
def load (loader : Loader Library) (world : World) (path : Path) : Except Failure Library × World :=
  match loader.load world path with
  | none => (.error (.libraryLoad path), world)
  | some library => (.ok library, world.map path)

/-- Whether a library has the entry point, or the failure that it has none. -/
def findEntry (loader : Loader Library) (library : Library) (path : Path) : Except Failure Unit :=
  if loader.hasEntry library then .ok () else .error (.symbolResolution entrySymbol path)

/-- Calls the entry point; the low byte of what it returns is the status. -/
def callEntry (loader : Loader Library) (library : Library) (block : ArgumentBlock)
    (world : World) : ExitStatus × World :=
  let noted := { world with nativeCalls := world.nativeCalls ++ [block.strings] }
  let (value, after) := loader.call library block noted
  (⟨UInt8.ofNat value⟩, after)

/-- Finds the entry point of a loaded library and calls it; only then are the arguments checked. -/
def callLoaded (loader : Loader Library) (library : Library) (path : Path)
    (invocation : Invocation) (world : World) : Except Failure ExitStatus × World :=
  match findEntry loader library path with
  | .error failure => (.error failure, world)
  | .ok _ =>
    match ArgumentBlock.marshal invocation with
    | .error failure => (.error failure, world)
    | .ok block =>
      let (status, after) := world.callEntry loader library block
      (.ok status, after)

/-- Loads the artifact at a path and calls its entry point. -/
def invoke (loader : Loader Library) (path : Path) (invocation : Invocation) (world : World) :
    Except Failure ExitStatus × World :=
  match ArgumentBlock.marshal invocation with
  | .error failure => (.error failure, world)
  | .ok block =>
    match world.load loader path with
    | (.error failure, same) => (.error failure, same)
    | (.ok library, mapped) =>
      match findEntry loader library path with
      | .error failure => (.error failure, mapped.unmap path)
      | .ok _ =>
        let (status, after) := mapped.callEntry loader library block
        (.ok status, after)

/-- Extracts the artifact for the host out of a bundle. -/
def resolveAndExtract (bundle : Bundle) (world : World) : Except Failure Artifact × World :=
  match world.host.resolve with
  | .error failure => (.error failure, world)
  | .ok descriptor => world.extract bundle descriptor

/-- Launches the artifact for the host out of a bundle. -/
def launch (loader : Loader Library) (bundle : Bundle) (invocation : Invocation) (world : World) :
    Except Failure ExitStatus × World :=
  match world.resolveAndExtract bundle with
  | (.error failure, after) => (.error failure, after)
  | (.ok artifact, after) => after.invoke loader artifact.temporaryFilePath invocation

/-! ## Launchers -/

/-- Launches out of a bundle and notes the extracted file in a launcher's list, also when a later
stage fails. -/
def launchNoting (loader : Loader Library) (bundle : Bundle) (invocation : Invocation)
    (extracted : List Path) (world : World) : Except Failure ExitStatus × List Path × World :=
  match world.resolveAndExtract bundle with
  | (.error failure, after) => (.error failure, extracted, after)
  | (.ok artifact, after) =>
    let (result, final) := after.invoke loader artifact.temporaryFilePath invocation
    (result, extracted ++ [artifact.temporaryFilePath], final)

/-- Releases the files in a launcher's list; those that could not be released stay in it. -/
def releaseEach (world : World) : List Path → List Path × World
  | [] => ([], world)
  | path :: rest =>
    match world.releaseExtracted path with
    | (true, released) => released.releaseEach rest
    | (false, same) =>
      let (kept, final) := same.releaseEach rest
      (path :: kept, final)

/-- Releases a launcher's files: how many went, those that are left, and the surroundings. -/
def releaseArtifacts (world : World) (extracted : List Path) : Nat × List Path × World :=
  let (kept, after) := world.releaseEach extracted
  (extracted.length - kept.length, kept, after)

end World

end NativeLaunch
