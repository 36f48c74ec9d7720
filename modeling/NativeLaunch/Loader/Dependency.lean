import NativeLaunch.Loader.Name
import NativeLaunch.SharedObject

/-!
# Dependencies

The libraries that a shared object needs are loaded with it, and those that they need in turn.  A
name that is looked up in the object is looked up in all of them, breadth first.  This file defines:

* `LoadedObject` — an object with the place it came from;
* `LoadedObject.lookup` — what the name of a symbol leads to;
* `LoadedObject.requirement` — where a needed name leads;
* `World.loadScope` — an object with all that it needs.
-/

namespace NativeLaunch

/-- A shared object and where it came from. -/
structure LoadedObject where
  place : Location
  /-- The name under which it was loaded. -/
  name : Bytes
  /-- Where those that it was loaded for want libraries to be looked for. -/
  inherited : List Path
  object : SharedObject
deriving Repr

namespace LoadedObject

/-- Where the first object is loaded. -/
def firstBase : Nat := 0x100000000000

/-- The directory that the object is in. -/
def origin (loaded : LoadedObject) : Bytes := (Location.toPath loaded.place.dropLast).bytes

/-- Whether a name means this object: that under which it was loaded, or that which it gives
itself. -/
def answersTo (loaded : LoadedObject) (name : Bytes) : Bool :=
  loaded.name = name || loaded.object.name? = some name

/-- The texts between colons. -/
def splitAtColons : Bytes → List Bytes
  | [] => [[]]
  | b :: rest =>
    match splitAtColons rest with
    | [] => [[b]]
    | first :: others => if b = 0x3A then [] :: first :: others else (b :: first) :: others

/-- The directories in a text of the object; an empty one is the working directory. -/
def directoriesIn (loaded : LoadedObject) (text : Bytes) : List Path :=
  (splitAtColons text).map fun directory =>
    if directory = [] then ⟨[Path.dot]⟩ else ⟨LibraryName.expand loaded.origin directory⟩

/-- The directories in which the object wants libraries to be looked for that are needed by it and by
what is loaded for it.  An object with directories for its own libraries has none of these. -/
def sharedDirectories (loaded : LoadedObject) : List Path :=
  match loaded.object.ownSearchPath?, loaded.object.searchPath? with
  | none, some text => loaded.directoriesIn text ++ loaded.inherited
  | _, _ => loaded.inherited

/-- The directories in which the libraries of the object are looked for. -/
def searchDirectories (loaded : LoadedObject) : List Path :=
  match loaded.object.ownSearchPath? with
  | some text => loaded.directoriesIn text
  | none => loaded.sharedDirectories

/-! ## Names of symbols -/

/-- Names that the libraries of the running program define, of the many that they do. -/
def residentSymbols : List String :=
  ["abort", "access", "atoi", "atol", "calloc", "chdir", "chmod", "clock_gettime", "close", "dlclose",
    "dlerror", "dlopen", "dlsym", "dup", "dup2", "environ", "execve", "exit", "_exit",
    "fclose", "fflush", "fopen", "fork", "fprintf", "fputs", "fread", "free", "fwrite", "getcwd",
    "getenv", "getpid", "gettimeofday", "ioctl", "kill", "lseek", "malloc", "memchr", "memcmp",
    "memcpy", "memmove", "memset", "mkdir", "mmap", "mprotect", "munmap", "nanosleep", "open",
    "perror", "pipe", "printf", "putchar", "puts", "raise", "read", "realloc", "rename", "rmdir",
    "setenv", "sigaction", "signal", "sleep", "snprintf", "sprintf", "stat", "stderr", "stdin",
    "stdout", "strcat", "strchr", "strcmp", "strcpy", "strdup", "strlen", "strncmp", "strncpy",
    "strrchr", "strstr", "strtol", "strtoul", "syscall", "system", "time", "unlink", "usleep",
    "vfprintf", "vsnprintf", "waitpid", "write", "__cxa_atexit", "__cxa_finalize",
    "__errno_location", "__libc_start_main", "__stack_chk_fail", "__tls_get_addr"]

/-- Where such a symbol is.  Nothing is mapped there: what they do is not part of a launch. -/
def residentTarget : SharedObject.Target := ⟨0x7C0000000000, 8⟩

/-- What a name leads to, when only some symbols count: the running program comes first, then the
objects in their order. -/
def lookup (scope : List LoadedObject) (counts : SharedObject.Symbol → Bool) (name : Bytes) :
    Option SharedObject.Target :=
  if residentSymbols.any fun known => Utf8.encode known = name then some residentTarget
  else
    scope.findSome? fun loaded =>
      (loaded.object.symbolAmong? counts name).map loaded.object.targetOf

/-! ## Names of libraries -/

/-- Where the name of a needed library leads. -/
inductive Requirement
  /-- Nothing to be loaded: the program, a library of the system, or one that is there already. -/
  | present
  | file (path : Path)
  | missing
deriving DecidableEq, Repr

/-- Where a name that an object needs leads. -/
def requirement (loaded : LoadedObject) (world : World) (known : List LoadedObject) (name : Bytes) :
    Requirement :=
  if name = [] || LibraryName.isResident name || known.any (·.answersTo name) then
    .present
  else if LibraryName.isPath name then
    let path := LibraryName.expand loaded.origin name
    if LibraryName.isSystem path then .present else .file ⟨path⟩
  else
    match (loaded.searchDirectories.map (·.join ⟨name⟩)).find? (world.read · |>.toOption.isSome) with
    | some path => .file path
    | none => if LibraryName.isSystem name then .present else .missing

end LoadedObject

namespace World

/-- Maps the object at a path. -/
def mapObject (world : World) (base : Nat) (inherited : List Path) (path : Path) :
    Option LoadedObject :=
  match world.files.find world.workingDirectory path with
  | .error _ => none
  | .ok (place, _) =>
    match world.read path with
    | .error _ => none
    | .ok content => (SharedObject.ofFile? base content).map fun object =>
      ⟨place, path.bytes, inherited, object⟩

/-- Adds to the mapped objects those that one of them needs, each behind the last. -/
def mapNeeded (world : World) (loaded : LoadedObject) (known : List LoadedObject) :
    Option (List LoadedObject) :=
  loaded.object.needed.foldlM
    (fun known name =>
      match loaded.requirement world known name with
      | .present => some known
      | .missing => none
      | .file path =>
        let base := (known.getLast?.map (·.object.stop)).getD LoadedObject.firstBase
        (world.mapObject base loaded.sharedDirectories path).map fun found =>
          if known.any (·.place = found.place) then known else known ++ [found])
    known

/-- Adds to the mapped objects all that those from an index on need. -/
def mapFrom (world : World) : (limit : Nat) → (index : Nat) → List LoadedObject →
    Option (List LoadedObject)
  | 0, _, known => some known
  | limit + 1, index, known =>
    match known[index]? with
    | none => some known
    | some loaded => (world.mapNeeded loaded known).bind (mapFrom world limit (index + 1))

/-- The object at a path and all that it needs, breadth first, with their relocations performed.
Each is mapped once, so there are no more than files. -/
def loadScope (world : World) (path : Path) : Option (List LoadedObject) :=
  (world.mapObject LoadedObject.firstBase [] path).bind fun loaded =>
    (world.mapFrom (world.files.nodes.length + 1) 0 [loaded]).bind fun scope =>
      scope.mapM fun member =>
        (member.object.relocated? (LoadedObject.lookup scope)).map fun object =>
          { member with object := object }

end World

end NativeLaunch
