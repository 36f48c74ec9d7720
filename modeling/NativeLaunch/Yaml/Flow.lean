import NativeLaunch.Yaml.Character

/-!
# Plain and quoted scalars

Scalars that flow over lines.  Between two words of such a scalar stands a gap: spaces on one line
are kept, while a gap that holds line breaks is folded, so that one line feed becomes a space and
further breaks are kept in place of it.  This file defines:

* `Gap` and its text;
* `Plain.scan` — a scalar without quotes, which ends where a key, a comment, a document mark or
  less indented text begins;
* `Quoted.scanSingle` and `Quoted.scanDouble` — what follows an opening quote.

Each scan gives the scalar's text and the rest after it, or nothing if the text is ill formed.
-/

namespace NativeLaunch

namespace Yaml

/-! ## Gaps -/

/-- The separators read since the last word. -/
structure Gap where
  /-- Spaces and tabs, as long as there was no break. -/
  blanks : List Char := []
  /-- Whether a break was read; blanks around breaks do not count. -/
  broken : Bool := false
  /-- The first break, unless it was escaped. -/
  firstBreak : List Char := []
  moreBreaks : List Char := []
deriving DecidableEq, Repr

namespace Gap

/-- The gap with one more separator. -/
def add (gap : Gap) (c : Char) : Gap :=
  if isBreak c then
    if gap.broken then { gap with moreBreaks := gap.moreBreaks ++ [c] }
    else { gap with blanks := [], broken := true, firstBreak := [c] }
  else if gap.broken then gap
  else { gap with blanks := gap.blanks ++ [c] }

/-- A gap that starts with an escaped break, which leaves no text. -/
def escaped : Gap := { broken := true }

/-- What a gap amounts to between two words. -/
def text (gap : Gap) : List Char :=
  if gap.broken then
    if gap.firstBreak = ['\n'] then
      if gap.moreBreaks = [] then [' '] else gap.moreBreaks
    else gap.firstBreak ++ gap.moreBreaks
  else gap.blanks

end Gap

/-- A scalar's text and the cursor after it. -/
structure ScannedText where
  text : List Char
  after : Cursor
deriving DecidableEq, Repr

namespace ScannedText

/-- Puts characters before the text. -/
def prepend (lead : List Char) (scanned : ScannedText) : ScannedText :=
  { scanned with text := lead ++ scanned.text }

end ScannedText

/-! ## Plain scalars -/

namespace Plain

/-- A plain scalar, and whether line breaks were read after its last word. -/
structure Scanned extends ScannedText where
  brokenAfter : Bool
deriving DecidableEq, Repr

/-- The characters that end a plain scalar inside brackets. -/
def isBracketOrComma (c : Char) : Bool :=
  c = ',' || c = '[' || c = ']' || c = '\x7b' || c = '\x7d'

/-- Whether a plain scalar ends before a character and what follows it. -/
def endsBefore (inFlow : Bool) (c : Char) (rest : List Char) : Bool :=
  (c = ':' && separated rest) || (inFlow && isBracketOrComma c)

/-- A colon inside brackets may not touch a bracket, a comma or a question mark. -/
def isMisplacedColon (inFlow : Bool) (c : Char) (rest : List Char) : Bool :=
  inFlow && c = ':' &&
    match rest with
    | d :: _ => isBracketOrComma d || d = '?'
    | [] => false

/-- Scans a plain scalar from the gap before its next word.  `margin` is the least column of its
lines outside brackets; `atWord` tells that no separator came since the last character. -/
def scan (inFlow : Bool) (margin : Nat) :
    List Char → Position → (gap : Gap) → (atWord : Bool) → Option Scanned
  | [], place, gap, _ => some ⟨⟨[], ⟨[], place⟩⟩, gap.broken⟩
  | c :: rest, place, gap, atWord =>
    if isSeparator c then
      if gap.broken && place.column < margin && c = '\t' then none
      else scan inFlow margin rest (place.after c) (gap.add c) false
    else if !atWord &&
        ((!inFlow && place.column < margin) || c = '#' ||
          (place.column = 0 && startsDocumentMark (c :: rest))) then
      some ⟨⟨[], ⟨c :: rest, place⟩⟩, gap.broken⟩
    else if isMisplacedColon inFlow c rest then none
    else if endsBefore inFlow c rest then
      some ⟨⟨[], ⟨c :: rest, place⟩⟩, gap.broken⟩
    else
      (scan inFlow margin rest (place.after c) {} true).map fun scanned =>
        { scanned with text := gap.text ++ c :: scanned.text }

end Plain

/-! ## Quoted scalars -/

namespace Quoted

/-- Scans what follows an opening single quote, up to the closing one; two quotes stand for one. -/
def scanSingle : List Char → Position → Gap → Option ScannedText
  | [], _, _ => none
  | '\'' :: '\'' :: rest, place, gap =>
    (scanSingle rest (place.along 2) {}).map (·.prepend (gap.text ++ ['\'']))
  | c :: rest, place, gap =>
    if c = '\'' then some ⟨gap.text, ⟨rest, place.after c⟩⟩
    else if isSeparator c then scanSingle rest (place.after c) (gap.add c)
    else if place.column = 0 && startsDocumentMark (c :: rest) then none
    else (scanSingle rest (place.after c) {}).map (·.prepend (gap.text ++ [c]))

/-- The characters that a backslash and one letter stand for. -/
def simpleEscape? : Char → Option Char
  | '0' => some '\x00'
  | 'a' => some '\x07'
  | 'b' => some '\x08'
  | 't' => some '\t'
  | '\t' => some '\t'
  | 'n' => some '\n'
  | 'v' => some '\x0b'
  | 'f' => some '\x0c'
  | 'r' => some '\r'
  | 'e' => some '\x1b'
  | ' ' => some ' '
  | '"' => some '"'
  | '/' => some '/'
  | '\\' => some '\\'
  | 'N' => some '\x85'
  | '_' => some '\xa0'
  | 'L' => some lineSeparator
  | 'P' => some paragraphSeparator
  | _ => none

/-- The value of a hexadecimal digit. -/
def hexValue? (c : Char) : Option Nat :=
  if '0' ≤ c && c ≤ '9' then some (c.toNat - '0'.toNat)
  else if 'a' ≤ c && c ≤ 'f' then some (c.toNat - 'a'.toNat + 10)
  else if 'A' ≤ c && c ≤ 'F' then some (c.toNat - 'A'.toNat + 10)
  else none

/-- The number that hexadecimal digits spell. -/
def hexNumber? (digits : List Char) : Option Nat :=
  digits.foldlM (fun value c => (hexValue? c).map (value * 16 + ·)) 0

/-- The character with a code point; surrogates and numbers past the last code point have none. -/
def charOfCode? (code : Nat) : Option Char :=
  if code.isValidChar then some (Char.ofNat code) else none

/-- The character for some hexadecimal digits. -/
def hexChar? (digits : List Char) : Option Char :=
  (hexNumber? digits).bind charOfCode?

/-- Scans what follows an opening double quote, up to the closing one. -/
def scanDouble : List Char → Position → Gap → Option ScannedText
  | [], _, _ => none
  | '\\' :: 'x' :: a :: b :: rest, place, gap =>
    (hexChar? [a, b]).bind fun c =>
      (scanDouble rest (place.along 4) {}).map (·.prepend (gap.text ++ [c]))
  | '\\' :: 'u' :: a :: b :: c :: d :: rest, place, gap =>
    (hexChar? [a, b, c, d]).bind fun e =>
      (scanDouble rest (place.along 6) {}).map (·.prepend (gap.text ++ [e]))
  | '\\' :: 'U' :: a :: b :: c :: d :: e :: f :: g :: h :: rest, place, gap =>
    (hexChar? [a, b, c, d, e, f, g, h]).bind fun i =>
      (scanDouble rest (place.along 10) {}).map (·.prepend (gap.text ++ [i]))
  | '\\' :: c :: rest, place, gap =>
    if isBreak c then
      (scanDouble rest ((place.along 1).after c) Gap.escaped).map (·.prepend gap.text)
    else
      (simpleEscape? c).bind fun e =>
        (scanDouble rest (place.along 2) {}).map (·.prepend (gap.text ++ [e]))
  | c :: rest, place, gap =>
    if c = '"' then some ⟨gap.text, ⟨rest, place.after c⟩⟩
    else if isSeparator c then scanDouble rest (place.after c) (gap.add c)
    else if c = '\\' then none
    else if place.column = 0 && startsDocumentMark (c :: rest) then none
    else (scanDouble rest (place.after c) {}).map (·.prepend (gap.text ++ [c]))

end Quoted

end Yaml

end NativeLaunch
