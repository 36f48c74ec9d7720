import NativeLaunch.World

/-!
# Names of libraries

How a dynamic loader reads the name of a library.  A name with a slash is a path, in which tokens
after a dollar sign stand for directories of the host; a name without one is looked for among the
libraries of the system.  This file defines:

* `LibraryName.expand` — the path with its tokens replaced;
* `LibraryName.isSystem` — the names under which the system's libraries are found.
-/

namespace NativeLaunch

namespace LibraryName

/-! ## Tokens -/

/-- The byte before a token. -/
def dollar : UInt8 := 0x24

/-- Whether a byte goes on with an identifier. -/
def isIdentifierByte (b : UInt8) : Bool :=
  let c := Char.ofNat b.toNat
  b < 0x80 && (c.isAlphanum || c = '_')

/-- What follows a token at the start of a text, if the text starts with it.  Between braces a token
ends at the closing one; otherwise no identifier may go on with it. -/
def dropToken? (token : Bytes) (text : Bytes) : Option Bytes :=
  let braced := text.head? = some 0x7B
  let bare := if braced then text.drop 1 else text
  if token.isPrefixOf bare then
    match bare.drop token.length with
    | [] => if braced then none else some []
    | b :: rest =>
      if isIdentifierByte b then none
      else if braced then (if b = 0x7D then some rest else none)
      else some (b :: rest)
  else none

/-- The tokens and what they stand for: the directory of the object that names the library, the
processor, and the place of libraries in a directory of the system. -/
def tokens (origin : Bytes) : List (Bytes × Bytes) :=
  [(Utf8.encode "ORIGIN", origin), (Utf8.encode "PLATFORM", Utf8.encode "x86_64"),
    (Utf8.encode "LIB", Utf8.encode "lib/x86_64-linux-gnu")]

/-- What a token at the start of a text stands for, and what follows it. -/
def token? (origin : Bytes) (text : Bytes) : Option (Bytes × Bytes) :=
  (tokens origin).findSome? fun (token, meaning) =>
    (dropToken? token text).map fun rest => (meaning, rest)

/-- Replaces tokens, at most as many as the limit says. -/
def expandUpTo (origin : Bytes) : (limit : Nat) → Bytes → Bytes
  | 0, text => text
  | _, [] => []
  | limit + 1, b :: rest =>
    if b = dollar then
      match token? origin rest with
      | some (meaning, after) => meaning ++ expandUpTo origin limit after
      | none => b :: expandUpTo origin limit rest
    else b :: expandUpTo origin limit rest

/-- A name with its tokens replaced.  Other dollar signs stay. -/
def expand (origin : Bytes) (name : Bytes) : Bytes := expandUpTo origin name.length name

/-! ## Libraries of the system -/

/-- The name of the loader itself. -/
def loaderName : String := "ld-linux-x86-64.so.2"

/-- The names of the system's libraries. -/
def systemNames : List String :=
  ["libc.so.6", "libm.so.6", "libdl.so.2", "libpthread.so.0", "librt.so.1", "libutil.so.1",
    "libanl.so.1", "libnsl.so.1", "libresolv.so.2", "libBrokenLocale.so.1", "libmvec.so.1",
    "libnss_compat.so.2", "libnss_dns.so.2", "libnss_files.so.2", "libnss_hesiod.so.2",
    "libgcc_s.so.1", "libstdc++.so.6", loaderName]

/-- The names of what is part of every running program; the first one is an object that the kernel
maps. -/
def residentNames : List String :=
  ["linux-vdso.so.1", "libc.so.6", "libgcc_s.so.1", loaderName]

/-- The paths of the system's libraries. -/
def systemPaths : List Path :=
  (systemNames.flatMap fun name =>
    ["/lib/x86_64-linux-gnu/", "/usr/lib/x86_64-linux-gnu/"].map fun directory =>
      .ofString (directory ++ name)) ++
    ["/lib64/", "/usr/lib64/"].map fun directory => .ofString (directory ++ loaderName)

/-- Whether a name is a path. -/
def isPath (name : Bytes) : Bool := name.contains Path.slash

/-- Whether a name without a slash is that of something that every running program has. -/
def isResident (name : Bytes) : Bool := residentNames.any fun known => Utf8.encode known = name

/-- Whether a name or a path leads to a library of the system. -/
def isSystem (name : Bytes) : Bool :=
  if isPath name then
    let path : Path := ⟨name⟩
    !path.endsWithSlash && systemPaths.any path.sameComponents
  else isResident name || systemNames.any fun known => Utf8.encode known = name

/-- The name that a path gives to the loader: one zero byte at its end may be there already, and
no other. -/
def ofPath? (path : Path) : Option Bytes :=
  let name := if path.bytes.getLast? = some 0 then path.bytes.dropLast else path.bytes
  if name.contains 0 then none else some name

end LibraryName

end NativeLaunch
