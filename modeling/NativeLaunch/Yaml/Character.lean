/-!
# Characters of a YAML text

Which characters a text may hold, which of them break lines and which separate, and where in a text
a reader stands.  Line breaks of every spelling but two are read as a line feed before anything
else happens; the line and paragraph separators stay as they are.
-/

namespace NativeLaunch

namespace Yaml

/-- The line separator U+2028, which breaks lines and is kept in text. -/
def lineSeparator : Char := '\u2028'

/-- The paragraph separator U+2029, which breaks lines and is kept in text. -/
def paragraphSeparator : Char := '\u2029'

/-- The byte order mark. -/
def byteOrderMark : Char := '\ufeff'

/-- Whether a character may stand in a text at all. -/
def isAllowed (c : Char) : Bool :=
  let n := c.toNat
  n = 0x09 || n = 0x0A || n = 0x0D || (0x20 ≤ n && n ≤ 0x7E) || n = 0x85 ||
    (0xA0 ≤ n && n ≤ 0xD7FF) || (0xE000 ≤ n && n ≤ 0xFFFD) || 0x10000 ≤ n

/-- Carriage returns, with or without a line feed, and next-line characters made line feeds. -/
def unifyBreaks : List Char → List Char
  | [] => []
  | '\r' :: '\n' :: rest => '\n' :: unifyBreaks rest
  | c :: rest => (if c = '\r' || c = '\x85' then '\n' else c) :: unifyBreaks rest

/-- Whether a character breaks a line. -/
def isBreak (c : Char) : Bool := c = '\n' || c = lineSeparator || c = paragraphSeparator

/-- Whether a character is a space or a tab. -/
def isSpaceOrTab (c : Char) : Bool := c = ' ' || c = '\t'

/-- Whether a character ends a word. -/
def isSeparator (c : Char) : Bool := isSpaceOrTab c || isBreak c

/-- Whether a text is at its end or goes on with a separator. -/
def separated : List Char → Bool
  | [] => true
  | c :: _ => isSeparator c

/-- The characters of names: ASCII letters and digits, `_` and `-`. -/
def isNameChar (c : Char) : Bool := c.isAlphanum || c = '_' || c = '-'

/-- Whether a text starts with a mark between documents: three dashes or three dots. -/
def startsDocumentMark : List Char → Bool
  | '-' :: '-' :: '-' :: rest => separated rest
  | '.' :: '.' :: '.' :: rest => separated rest
  | _ => false

/-! ## Places in a text -/

/-- A place in a text: how many bytes its characters so far take in UTF-8, lines read so far, and the
column, which counts characters. -/
structure Position where
  index : Nat := 0
  line : Nat := 0
  column : Nat := 0
deriving DecidableEq, Repr, Inhabited

namespace Position

/-- The place after one more character. -/
def after (place : Position) (c : Char) : Position :=
  if isBreak c then ⟨place.index + c.utf8Size, place.line + 1, 0⟩
  else ⟨place.index + c.utf8Size, place.line, place.column + 1⟩

/-- The place after some more ASCII characters on the same line. -/
def along (place : Position) (count : Nat) : Position :=
  ⟨place.index + count, place.line, place.column + count⟩

end Position

/-- The unread part of a text and its place. -/
structure Cursor where
  rest : List Char
  place : Position := {}
deriving DecidableEq, Repr, Inhabited

namespace Cursor

/-- Passes over some characters of the current line. -/
def skip (cursor : Cursor) (count : Nat) : Cursor :=
  ⟨cursor.rest.drop count, (cursor.rest.take count).foldl Position.after cursor.place⟩

/-- Takes the characters of a class from the current line. -/
def takeWhile (cursor : Cursor) (p : Char → Bool) : List Char × Cursor :=
  let taken := cursor.rest.takeWhile p
  (taken, cursor.skip taken.length)

end Cursor

end Yaml

end NativeLaunch
