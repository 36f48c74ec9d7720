import NativeLaunch.Text.Utf8

/-!
# Paths

Paths as they are written: bytes with slashes between segments.  Everything here is lexical and
looks at no file.  This file defines:

* `Path.components` — what a path means segment by segment; empty segments and `.` segments mean
  nothing, save a `.` at the very start of a relative path;
* `Path.join`, `Path.parent?`, `Path.fileName?` — building a path and taking it apart, keeping the
  spelling of what remains;
* `Path.absolute?` — a path made absolute against a working directory, with `..` left in place;
* `Path.sameComponents` — equality up to spelling.
-/

namespace NativeLaunch

/-- A path as written; any bytes will do. -/
structure Path where
  bytes : Bytes
deriving DecidableEq, Repr, Inhabited

namespace Path

/-- The byte between segments. -/
def slash : UInt8 := 0x2F

/-- The byte of which the segments `.` and `..` are made. -/
def dot : UInt8 := 0x2E

/-- The path spelled by a text. -/
def ofString (text : String) : Path := ⟨Utf8.encode text⟩

/-- The path for a reader: its text, with ill-formed bytes replaced. -/
def display (path : Path) : String := Utf8.decodeLossy path.bytes

/-- Whether the path starts at the root. -/
def isAbsolute (path : Path) : Bool := path.bytes.head? = some slash

/-- Whether the path is written with a slash at its end. -/
def endsWithSlash (path : Path) : Bool := path.bytes.getLast? = some slash

/-! ## Segments -/

/-- The parts between the slashes, empty ones included. -/
def split : Bytes → List Bytes
  | [] => [[]]
  | b :: rest =>
    if b = slash then [] :: split rest
    else
      match split rest with
      | [] => [[b]]
      | segment :: segments => (b :: segment) :: segments

/-- Segments with a slash between each two. -/
def unsplit : List Bytes → Bytes
  | [] => []
  | [segment] => segment
  | segment :: segments => segment ++ slash :: unsplit segments

/-- Whether a segment inside a path means nothing: it is empty or a single dot. -/
def isIdle (segment : Bytes) : Bool := segment = [] || segment = [dot]

/-- The part that fixes where a path starts: the root's slash, a leading `.`, or nothing. -/
def anchor (path : Path) : Bytes :=
  if path.isAbsolute then [slash]
  else if (split path.bytes).head? = some [dot] then [dot]
  else []

/-- The segments after the anchor. -/
def body (path : Path) : List Bytes :=
  split (path.bytes.drop path.anchor.length)

/-! ## Components -/

/-- One step of a path's meaning. -/
inductive Component
  | root
  | here
  | up
  | named (name : Bytes)
deriving DecidableEq, Repr

namespace Component

/-- The spelling of a component. -/
def bytes : Component → Bytes
  | .root => [slash]
  | .here => [dot]
  | .up => [dot, dot]
  | .named name => name

/-- The meaning of a segment inside a path; idle segments have none. -/
def ofSegment? (segment : Bytes) : Option Component :=
  if isIdle segment then none
  else if segment = [dot, dot] then some .up
  else some (.named segment)

end Component

/-- The components of a path, in order. -/
def components (path : Path) : List Component :=
  let inner := path.body.filterMap Component.ofSegment?
  if path.isAbsolute then .root :: inner
  else if path.anchor = [dot] then .here :: inner
  else inner

/-- Whether two paths are the same up to spelling. -/
def sameComponents (p q : Path) : Bool := p.components = q.components

/-! ## Building and taking apart -/

/-- The second path seen from the first: put after it, unless it is absolute and stands alone. -/
def join (path next : Path) : Path :=
  if next.isAbsolute then next
  else if path.bytes = [] || path.endsWithSlash then ⟨path.bytes ++ next.bytes⟩
  else ⟨path.bytes ++ slash :: next.bytes⟩

/-- The second path seen from the first, of which an absolute one has no need. -/
def seenFrom? (start : Option Path) (path : Path) : Option Path :=
  if path.isAbsolute then some path else start.map (·.join path)

/-- The path without its last component, idle segments around it dropped; nothing if the path has
no component but the root. -/
def parent? (path : Path) : Option Path :=
  match path.body.reverse.dropWhile isIdle with
  | [] => if path.anchor = [dot] then some ⟨[]⟩ else none
  | _ :: before => some ⟨path.anchor ++ unsplit (before.dropWhile isIdle).reverse⟩

/-- The name at the end of a path, if its last component is a name. -/
def fileName? (path : Path) : Option Bytes :=
  match path.components.getLast? with
  | some (.named name) => some name
  | _ => none

/-- The path made absolute against a working directory.  Idle segments go, `..` stays, a slash at
the end stays, and so do exactly two slashes at the start.  The empty path has no absolute form, nor
has a relative one where the working directory has no name. -/
def absolute? (workingDirectory : Option Path) (path : Path) : Option Path :=
  let extend (start : Path) (steps : List Component) : Path :=
    let reached := steps.foldl (fun p step => p.join ⟨step.bytes⟩) start
    if path.endsWithSlash then reached.join ⟨[]⟩ else reached
  match path.bytes with
  | [] => none
  | b :: rest =>
    if b = slash then
      if rest.head? = some slash && rest.tail.head? ≠ some slash then
        some (extend ⟨[slash, slash]⟩ path.components.tail)
      else
        some (extend ⟨[]⟩ path.components)
    else
      workingDirectory.map (extend · (path.components.filter (· ≠ .here)))

end Path

end NativeLaunch
