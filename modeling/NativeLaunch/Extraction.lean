import NativeLaunch.Bundle
import NativeLaunch.Registry

/-!
# Extraction

Copies an artifact out of a bundle into a fresh temporary file that the dynamic loader can open.
Each extraction makes a file of its own, registered for deletion at the end; a failed one leaves
no file and no registration.  The stages are: open the resource, make the file, copy, register.
-/

namespace NativeLaunch

/-- An artifact on disk. -/
structure Artifact where
  sourceResourcePath : String
  temporaryFilePath : Path
deriving DecidableEq, Repr

/-! ## Temporary names -/

namespace TemporaryName

/-- The characters of the varying part of a temporary name. -/
def alphabet : List UInt8 :=
  Utf8.encode "ABCDEFGHIJKLMNOPQRSTUVWXYZabcdefghijklmnopqrstuvwxyz0123456789"

/-- The least length of the varying part. -/
def width : Nat := 6

/-- The varying part for a serial number: its digits over the alphabet, least first, to at least
the given width.  Different numbers have different parts. -/
def digits (serial width : Nat) : Bytes :=
  if serial = 0 ∧ width = 0 then []
  else
    (alphabet[serial % 62]?.getD 0x41) :: digits (serial / 62) (width - 1)
termination_by serial + width
decreasing_by
  rcases Nat.eq_zero_or_pos serial with h | h
  · subst h; omega
  · have := Nat.div_lt_self h (by decide : 1 < 62); omega

/-- A temporary file name: a stem, the part for a serial number, and an ending. -/
def spell (stem ending : String) (serial : Nat) : Bytes :=
  Utf8.encode stem ++ digits serial width ++ Utf8.encode ending

end TemporaryName

namespace World

/-- Makes an empty file under a fresh name in a directory, trying further names while they are taken. -/
def createTemporaryWithin (directory : Path) (stem ending : String) :
    Nat → World → Except Fault (Path × Location) × World
  | 0, world => (.error (.system .alreadyExists), world)
  | attempts + 1, world =>
    let path := directory.join ⟨TemporaryName.spell stem ending world.serial⟩
    let next := { world with serial := world.serial + 1 }
    match next.withFiles (next.files.createNew next.workingDirectory path) with
    | (.ok place, made) => (.ok (path, place), made)
    | (.error .alreadyExists, _) => createTemporaryWithin directory stem ending attempts next
    | (.error kind, _) => (.error (.system kind), next)

/-- Makes an empty file under a fresh name in the temporary directory.  A name is tried once, so
one more than the names in use are enough.  A relative directory needs a working directory with a
name. -/
def createTemporary (world : World) (stem ending : String) :
    Except Fault (Path × Location) × World :=
  match Path.seenFrom? world.currentDirectory? world.temporaryDirectory with
  | none => (.error (.system .notFound), world)
  | some directory =>
    createTemporaryWithin directory stem ending (world.files.nodes.length + 1) world

/-! ## Copying -/

/-- Copies a stream to the medium chunk by chunk, after what was written already; the first fault
of reading, writing or final syncing stops it. -/
def copy (medium : Medium) : (written : Bytes) → Stream → Except Fault Bytes
  | written, [] => medium.sync written
  | written, .chunk [] :: _ => medium.sync written
  | written, .chunk bytes :: rest =>
    match medium.append written bytes with
    | .ok longer => copy medium longer rest
    | .error fault => .error fault
  | written, .fault fault :: rest =>
    if fault.isInterruption then copy medium written rest else .error fault

/-- Extracts the artifact that a descriptor names into a fresh temporary file. -/
def extract (bundle : Bundle) (descriptor : PlatformDescriptor) (world : World) :
    Except Failure Artifact × World :=
  let resource := descriptor.resourceSubpath
  match bundle.openResource world.files world.workingDirectory resource with
  | .error fault => (.error (.extraction resource (Path.ofString resource) fault), world)
  | .ok none => (.error (.artifactNotFound resource), world)
  | .ok (some stream) =>
    match world.createTemporary Platform.libraryName descriptor.fileExtension with
    | (.error fault, tried) =>
      (.error (.extraction resource world.temporaryDirectory fault), tried)
    | (.ok (path, place), made) =>
      match copy made.medium [] stream with
      | .error fault => (.error (.extraction resource path fault), (made.unlink path).2)
      | .ok content =>
        let filled := { made with files := made.files.insert place (.file content) }
        (.ok ⟨resource, path⟩, filled.register path)

end World

end NativeLaunch
