import NativeLaunch.Yaml.Character

/-!
# Block scalars

Scalars of whole lines after `|` or `>`.  The header may fix the indentation and says what becomes
of the breaks at the end; the lines keep their breaks after `|`, and after `>` single line feeds
between lines that start with a word become spaces.
-/

namespace NativeLaunch

namespace Yaml

namespace Block

/-- What becomes of the line breaks at the end of a block scalar. -/
inductive Chomping
  /-- All go. -/
  | strip
  /-- The break of the last line stays. -/
  | clip
  /-- All stay. -/
  | keep
deriving DecidableEq, Repr

/-- The header of a block scalar. -/
structure Header where
  chomping : Chomping := .clip
  /-- The indentation in relation to the surrounding block; zero leaves it to the first line. -/
  indent : Nat := 0
deriving DecidableEq, Repr

namespace Header

/-- The chomping that a sign asks for. -/
def chompingOf? : Char → Option Chomping
  | '+' => some .keep
  | '-' => some .strip
  | _ => none

/-- Reads a sign and a digit in either order, both optional; the digit may not be zero. -/
def scan (text : List Char) : Option (Header × List Char) :=
  let digitOf (c : Char) : Nat := c.toNat - '0'.toNat
  match text with
  | [] => some ({}, [])
  | c :: rest =>
    match chompingOf? c with
    | some chomping =>
      match rest with
      | d :: rest' =>
        if d.isDigit then
          if d = '0' then none else some (⟨chomping, digitOf d⟩, rest')
        else some (⟨chomping, 0⟩, rest)
      | [] => some (⟨chomping, 0⟩, [])
    | none =>
      if c.isDigit then
        if c = '0' then none
        else
          match rest with
          | d :: rest' =>
            match chompingOf? d with
            | some chomping => some (⟨chomping, digitOf c⟩, rest')
            | none => some (⟨.clip, digitOf c⟩, rest)
          | [] => some (⟨.clip, digitOf c⟩, [])
      else some ({}, text)

end Header

/-! ## Lines -/

/-- What is to be known of the lines before a place. -/
structure Above where
  /-- The column of the lines; zero until it is known. -/
  indent : Nat
  /-- The deepest column reached before the indentation is known. -/
  deepest : Nat := 0
  /-- The break of the last line. -/
  lastBreak : List Char := []
  /-- The breaks of the empty lines after it. -/
  emptyLines : List Char := []
  /-- Whether the last line starts with a space or tab. -/
  lastBlank : Bool := false
deriving DecidableEq, Repr

namespace Above

/-- The indentation once a line with text is reached: at least the surrounding one. -/
def settledIndent (above : Above) (margin column : Nat) : Nat :=
  if above.indent = 0 then max (max (max above.deepest column) margin) 1
  else above.indent

/-- What stands between the last line and one that starts with the given character. -/
def join (literal : Bool) (above : Above) (first : Char) : List Char :=
  if !literal && above.lastBreak.head? = some '\n' && !above.lastBlank &&
      !isSpaceOrTab first then
    if above.emptyLines = [] then [' '] else above.emptyLines
  else above.lastBreak ++ above.emptyLines

/-- What is left of the breaks at the end. -/
def chomp (chomping : Chomping) (above : Above) : List Char :=
  match chomping with
  | .strip => []
  | .clip => above.lastBreak
  | .keep => above.lastBreak ++ above.emptyLines

end Above

/-- The text of a block scalar and the cursor after it. -/
structure Scanned where
  text : List Char
  after : Cursor
deriving DecidableEq, Repr

/-- Scans the lines of a block scalar; `inLine` tells whether the place is inside a line's text or
before it.  A line indented less ends the scalar; a tab in the indentation is ill formed. -/
def scanLines (literal : Bool) (chomping : Chomping) (margin : Nat) :
    List Char → Position → Above → (inLine : Bool) → Option Scanned
  | [], place, above, _ => some ⟨above.chomp chomping, ⟨[], place⟩⟩
  | c :: rest, place, above, true =>
    if isBreak c then
      scanLines literal chomping margin rest (place.after c) { above with lastBreak := [c] } false
    else
      (scanLines literal chomping margin rest (place.after c) above true).map fun scanned =>
        { scanned with text := c :: scanned.text }
  | c :: rest, place, above, false =>
    let shallow := above.indent = 0 || place.column < above.indent
    if shallow && c = ' ' then
      scanLines literal chomping margin rest (place.after c) above false
    else if shallow && c = '\t' then none
    else if isBreak c then
      scanLines literal chomping margin rest (place.after c)
        { above with
          deepest := max above.deepest place.column
          emptyLines := above.emptyLines ++ [c] } false
    else
      let indent := above.settledIndent margin place.column
      if place.column = indent then
        let inside : Above := { indent := indent, lastBlank := isSpaceOrTab c }
        (scanLines literal chomping margin rest (place.after c) inside true).map fun scanned =>
          { scanned with text := above.join literal c ++ c :: scanned.text }
      else some ⟨above.chomp chomping, ⟨c :: rest, place⟩⟩

/-- Scans what follows the indicator of a block scalar.  `margin` is the least column of nested
content. -/
def scan (literal : Bool) (margin : Nat) (cursor : Cursor) : Option Scanned :=
  (Header.scan cursor.rest).bind fun (header, rest) =>
    let place := cursor.place.along (cursor.rest.length - rest.length)
    let (_, afterBlanks) := Cursor.takeWhile ⟨rest, place⟩ isSpaceOrTab
    let (_, atEnd) :=
      if afterBlanks.rest.head? = some '#' then
        afterBlanks.takeWhile (!isBreak ·)
      else ([], afterBlanks)
    let above : Above := { indent := if header.indent = 0 then 0 else margin - 1 + header.indent }
    match atEnd.rest with
    | [] => some ⟨[], atEnd⟩
    | c :: text =>
      if isBreak c then scanLines literal header.chomping margin text (atEnd.place.after c) above false
      else none

end Block

end Yaml

end NativeLaunch
