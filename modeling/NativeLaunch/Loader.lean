import NativeLaunch.Loader.Dependency
import NativeLaunch.Processor.Machine

/-!
# Loaders

What a dynamic loader does for a launch, as three functions: it loads a library from a path, says
whether the library has the entry point, and calls it.  A launch is defined over any loader; this
file also defines the one that loads shared objects for x86-64.
-/

namespace NativeLaunch

/-- A dynamic loader whose loaded libraries have the given type. -/
structure Loader (Library : Type) where
  /-- Loads the library at a path; nothing if the path leads to none. -/
  load : World → Path → Option Library
  /-- Whether the library exports the entry point. -/
  hasEntry : Library → Bool
  /-- Calls the entry point: the number it returns, and the surroundings afterwards. -/
  call : Library → ArgumentBlock → World → Nat × World

/-- The symbol that every artifact exports as its entry point. -/
def entrySymbol : String := "start_app"

/-- What a path can be loaded as. -/
inductive NativeLibrary
  /-- The running program itself, for an empty name. -/
  | program
  /-- A library of the system. -/
  | system
  /-- A shared object with the objects it needs, in the order in which names are looked up. -/
  | objects (scope : List LoadedObject)
deriving Repr

namespace NativeLibrary

/-- The mapped library that gives itself a name. -/
def mappedAs? (world : World) (name : Bytes) : Option Path :=
  world.mapped.find? fun path => (world.mapObject 0 [] path).any (·.object.name? = some name)

/-- Loads the library at a path.  A name without a slash is looked for among the mapped libraries and
the system's. -/
def load (world : World) (path : Path) : Option NativeLibrary :=
  (LibraryName.ofPath? path).bind fun name =>
    if name = [] then some .program
    else if LibraryName.isPath name then
      let place := LibraryName.expand world.programDirectory.bytes name
      if LibraryName.isSystem place then some .system
      else (world.loadScope ⟨place⟩).map .objects
    else
      match mappedAs? world name with
      | some place => (world.loadScope place).map .objects
      | none => if LibraryName.isSystem name then some .system else none

/-- The address of the entry point: that of the first object that has it. -/
def entry? : NativeLibrary → Option Nat
  | .objects scope => scope.findSome? fun loaded =>
    (loaded.object.symbol? (Utf8.encode entrySymbol)).map loaded.object.addressOf
  | _ => none

/-- The memory of all objects of the library. -/
def memory : NativeLibrary → Memory
  | .objects scope => ⟨scope.flatMap fun loaded => loaded.object.placedMemory.mappings⟩
  | _ => {}

/-- Calls the entry point. -/
def call (library : NativeLibrary) (block : ArgumentBlock) (world : World) : Nat × World :=
  match library.entry? with
  | some address => Processor.Machine.callFunction library.memory address block world
  | none => (0, world)

end NativeLibrary

/-- The loader of shared objects for x86-64. -/
def nativeLoader : Loader NativeLibrary where
  load := NativeLibrary.load
  hasEntry library := library.entry?.isSome
  call := NativeLibrary.call

end NativeLaunch
