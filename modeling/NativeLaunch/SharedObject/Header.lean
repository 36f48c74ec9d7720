import NativeLaunch.Memory

/-!
# Headers of shared objects

What stands at the start of a 64-bit little-endian ELF file for x86-64: the file header, and the
program headers, which list the segments.  A file that no loader for this host would take has no
header here.
-/

namespace NativeLaunch

namespace SharedObject

/-- The number in a field of a file; nothing if the file ends before it. -/
def number? (file : Array UInt8) (offset width : Nat) : Option Nat :=
  if offset + width ≤ file.size then
    some (littleEndian ((file.extract offset (offset + width)).toList))
  else none

/-! ## File header -/

/-- The fields of the file header that loading depends on. -/
structure Header where
  programHeaderOffset : Nat
  programHeaderCount : Nat
deriving DecidableEq, Repr

/-- The length of the file header. -/
def headerLength : Nat := 64

/-- The length of a program header. -/
def programHeaderLength : Nat := 56

/-- Whether a version of a system convention is known: the plain convention has one version, that of
GNU systems has four. -/
def isKnownConvention (convention version : UInt8) : Bool :=
  (convention = 0 && version = 0) || (convention = 3 && version < 4)

/-- The first bytes of a file: magic number, 64-bit, little-endian, version one, a system convention
with its version, then zeros. -/
def isIdentified (file : Array UInt8) : Bool :=
  let start : Bytes := [0x7F, 0x45, 0x4C, 0x46, 2, 1, 1]
  (file.extract 0 7).toList = start &&
    isKnownConvention (file.getD 7 0) (file.getD 8 0) &&
    (file.extract 9 16).toList = List.replicate 7 0

/-- Reads the file header of a shared object for x86-64. -/
def Header.read? (file : Array UInt8) : Option Header :=
  if file.size < headerLength || !isIdentified file then none
  else if number? file 16 2 ≠ some 3 then none
  else if number? file 18 2 ≠ some 62 then none
  else if number? file 20 4 ≠ some 1 then none
  else if number? file 54 2 ≠ some programHeaderLength then none
  else
    (number? file 32 8).bind fun offset => (number? file 56 2).map fun count => ⟨offset, count⟩

/-! ## Program headers -/

/-- A program header: a stretch of the file and where it belongs in memory. -/
structure Segment where
  kind : Nat
  flags : Nat
  fileOffset : Nat
  address : Nat
  fileSize : Nat
  memorySize : Nat
  alignment : Nat
deriving DecidableEq, Repr

namespace Segment

/-- The kind of segments that are mapped. -/
def load : Nat := 1

/-- The kind of the segment that holds the dynamic section. -/
def dynamic : Nat := 2

/-- The kind of the segment that is read-only once the object is relocated. -/
def sealed : Nat := 0x6474E552

/-- Reads the program header at an offset. -/
def read? (file : Array UInt8) (offset : Nat) : Option Segment := do
  return {
    kind := ← number? file offset 4
    flags := ← number? file (offset + 4) 4
    fileOffset := ← number? file (offset + 8) 8
    address := ← number? file (offset + 16) 8
    fileSize := ← number? file (offset + 32) 8
    memorySize := ← number? file (offset + 40) 8
    alignment := ← number? file (offset + 48) 8 }

/-- Whether the segment may be written to. -/
def isWritable (segment : Segment) : Bool := segment.flags / 2 % 2 = 1

/-- The address after the part that the file holds. -/
def fileStop (segment : Segment) : Nat := segment.address + segment.fileSize

/-- The address after the segment. -/
def stop (segment : Segment) : Nat := segment.address + segment.memorySize

/-- The start of its first page. -/
def pagesStart (segment : Segment) : Nat := Memory.pageDown segment.address

/-- The end of the last page that the file has a part of. -/
def pagesStop (segment : Segment) : Nat := Memory.pageUp segment.fileStop

end Segment

/-- Reads the program headers that a file header tells of. -/
def Header.segments? (header : Header) (file : Array UInt8) : Option (List Segment) :=
  (List.range header.programHeaderCount).mapM fun i =>
    Segment.read? file (header.programHeaderOffset + i * programHeaderLength)

end SharedObject

end NativeLaunch
