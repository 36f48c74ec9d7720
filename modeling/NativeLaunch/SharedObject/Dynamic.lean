import NativeLaunch.SharedObject.Image

/-!
# Dynamic sections

The table through which a shared object tells a loader what it needs and where its parts are:
entries of a tag and a value, up to a closing tag.  Of several entries with one tag the last one
counts, except for libraries needed, each of which counts.
-/

namespace NativeLaunch

namespace SharedObject

/-- Tags of the dynamic section. -/
inductive DynamicTag
  | needed
  | jumpSize
  | hash
  | stringTable
  | symbolTable
  | relocations
  | relocationsSize
  | libraryName
  | searchPath
  | jumpKind
  | jumpRelocations
  | bindNow
  | ownSearchPath
  | flags
  | nameHash
  | symbolVersions
  | versionsDefined
  | versionsNeeded
  | openFlags
  | filtered
deriving DecidableEq, Repr

/-- The number of a tag. -/
def DynamicTag.number : DynamicTag → Nat
  | .needed => 1
  | .jumpSize => 2
  | .hash => 4
  | .stringTable => 5
  | .symbolTable => 6
  | .relocations => 7
  | .relocationsSize => 8
  | .libraryName => 14
  | .searchPath => 15
  | .jumpKind => 20
  | .jumpRelocations => 23
  | .bindNow => 24
  | .ownSearchPath => 29
  | .flags => 30
  | .nameHash => 0x6FFFFEF5
  | .symbolVersions => 0x6FFFFFF0
  | .versionsDefined => 0x6FFFFFFC
  | .versionsNeeded => 0x6FFFFFFE
  | .openFlags => 0x6FFFFFFB
  | .filtered => 0x7FFFFFFF

/-- A dynamic section: tags and values in their order. -/
structure Dynamic where
  entries : List (Nat × Nat)
deriving Repr

namespace Dynamic

/-- Reads entries up to the closing tag. -/
def readEntries (memory : Memory) : (limit : Nat) → (address : Nat) → List (Nat × Nat)
  | 0, _ => []
  | limit + 1, address =>
    match memory.numberAt? address 8, memory.numberAt? (address + 8) 8 with
    | some 0, _ => []
    | some tag, some value => (tag, value) :: readEntries memory limit (address + 16)
    | _, _ => []

/-- Reads the dynamic section at an address. -/
def read (memory : Memory) (address : Nat) : Dynamic :=
  ⟨readEntries memory (memory.storedSize / 16 + 1) address⟩

/-- The value of a tag. -/
def value? (dynamic : Dynamic) (tag : DynamicTag) : Option Nat :=
  dynamic.entries.reverse.lookup tag.number

/-- Whether a program may open the object: it must neither say that it is not to be opened nor that
it is a program itself. -/
def mayBeOpened (dynamic : Dynamic) : Bool :=
  let flags := (dynamic.value? .openFlags).getD 0
  flags / 0x40 % 2 = 0 && flags / 0x08000000 % 2 = 0

/-- Whether calls to other functions are bound when the object is loaded. -/
def bindsNow (dynamic : Dynamic) : Bool :=
  (dynamic.value? .bindNow).isSome || ((dynamic.value? .flags).getD 0) / 8 % 2 = 1 ||
    ((dynamic.value? .openFlags).getD 0) % 2 = 1

end Dynamic

/-- Where the dynamic section is: the last segment of its kind tells, and each has to hold a part of
the file. -/
def dynamicAddress? (segments : List Segment) : Option Nat :=
  let holders := segments.filter (·.kind = Segment.dynamic)
  if holders.any (·.fileSize = 0) then none else holders.getLast?.map (·.address)

end SharedObject

/-- A shared object as it is mapped. -/
structure SharedObject where
  /-- Where it is loaded; addresses in the file are counted from here. -/
  base : Nat
  image : SharedObject.Image
  dynamic : SharedObject.Dynamic
deriving Repr

namespace SharedObject

/-- The memory of an object. -/
def memory (object : SharedObject) : Memory := object.image.memory

/-- The memory of an object at the addresses where it is loaded. -/
def placedMemory (object : SharedObject) : Memory := object.memory.shift object.base

/-- The first address that a next object can be loaded at. -/
def stop (object : SharedObject) : Nat := object.base + object.image.stop

/-- The value of a tag of the dynamic section. -/
def tag? (object : SharedObject) (tag : DynamicTag) : Option Nat := object.dynamic.value? tag

/-- The string at an offset of the object's strings. -/
def stringAt (object : SharedObject) (offset : Nat) : Bytes :=
  match object.tag? .stringTable with
  | none => []
  | some strings => object.memory.textAt object.memory.storedSize (strings + offset)

/-- The names of the libraries that the object needs. -/
def needed (object : SharedObject) : List Bytes :=
  (object.dynamic.entries.filter fun (tag, _) =>
    tag = DynamicTag.needed.number || tag = DynamicTag.filtered.number).map fun (_, value) =>
      object.stringAt value

/-- The name that the object gives itself. -/
def name? (object : SharedObject) : Option Bytes :=
  (object.tag? .libraryName).map object.stringAt

/-- Whether all records of a chain of needed versions have the form that is known.  A record starts
with the number of its form, and tells at its end how far off the next one is. -/
def areKnownRecords (memory : Memory) : (limit : Nat) → (address : Nat) → Bool
  | 0, _ => true
  | limit + 1, address =>
    memory.numberAt? address 2 = some 1 &&
      match memory.numberAt? (address + 12) 4 with
      | some 0 => true
      | some distance => areKnownRecords memory limit (address + distance)
      | none => false

/-- Whether the object tells of the versions it needs in a form that is known, or needs none. -/
def hasKnownVersions (object : SharedObject) : Bool :=
  (object.tag? .versionsNeeded).all (areKnownRecords object.memory object.memory.storedSize)

/-- The directories that the object names for its own libraries, between colons. -/
def ownSearchPath? (object : SharedObject) : Option Bytes :=
  (object.tag? .ownSearchPath).map object.stringAt

/-- The directories that the object names for its libraries and for those that they need in turn. -/
def searchPath? (object : SharedObject) : Option Bytes :=
  (object.tag? .searchPath).map object.stringAt

end SharedObject

end NativeLaunch
