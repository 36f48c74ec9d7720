import NativeLaunch.Yaml.Character
import NativeLaunch.Yaml.Schema

/-!
# Writing scalars

How a text is written as a scalar in a block, so that reading gives it back.  A text is plain if
nothing in it would be read as anything else, quoted otherwise, and written as a literal block if it
holds a line feed.  This file defines:

* the conditions under which a style can carry a text;
* `Style.choose` — the style of a text;
* `Scalar.write` — its written form, up to the start of the next line.
-/

namespace NativeLaunch

namespace Yaml

/-- How a scalar is written. -/
inductive Style
  | plain
  | singleQuoted
  | doubleQuoted
  | literal
deriving DecidableEq, Repr

namespace Style

/-! ## What a style can carry -/

/-- Whether a character can be written as it is. -/
def isPrintable (c : Char) : Bool :=
  let n := c.toNat
  n = 0x0A || (0x20 ≤ n && n ≤ 0x7E) || (0xA0 ≤ n && n ≤ 0xD7FF) ||
    (0xE000 ≤ n && n ≤ 0xFFFD && n ≠ 0xFEFF) || 0x10000 ≤ n

/-- Whether two characters that pass the tests stand side by side. -/
def hasAdjacent (p q : Char → Bool) : List Char → Bool
  | a :: b :: rest => (p a && q b) || hasAdjacent p q (b :: rest)
  | _ => false

/-- Whether a text holds a character that only double quotes can carry. -/
def hasSpecial (text : List Char) : Bool := text.any (!isPrintable ·)

/-- Whether a text has a space right before a line break. -/
def hasSpaceBeforeBreak (text : List Char) : Bool := hasAdjacent (· = ' ') isBreak text

/-- Whether a text has a space right after a line break. -/
def hasSpaceAfterBreak (text : List Char) : Bool := hasAdjacent isBreak (· = ' ') text

/-- Whether a text ends in a space. -/
def endsInSpace (text : List Char) : Bool := text.getLast? = some ' '

/-- The characters that no plain scalar starts with. -/
def leadingIndicators : List Char := "#,[]\x7b\x7d&*!|>'\"%@`".toList

/-- Whether a text starts like something that is no plain scalar: an indicator, a question mark or
dash that stands alone, or a mark between documents. -/
def startsLikeIndicator : List Char → Bool
  | '-' :: '-' :: '-' :: _ => true
  | '.' :: '.' :: '.' :: _ => true
  | c :: rest => leadingIndicators.contains c || ((c = '?' || c = '-') && separated rest)
  | [] => false

/-- Whether a text holds a colon that ends a word, or is its last character. -/
def hasKeyColon : List Char → Bool
  | [] => false
  | c :: rest => (c = ':' && separated rest) || hasKeyColon rest

/-- Whether a text can be written without quotes. -/
def canBePlain (text : List Char) : Bool :=
  !(hasSpecial text || text.any isBreak || text.head? = some ' ' || endsInSpace text ||
    startsLikeIndicator text || hasKeyColon text || hasAdjacent isSeparator (· = '#') text)

/-- Whether a text can be written in single quotes. -/
def canBeSingleQuoted (text : List Char) : Bool :=
  !(hasSpecial text || hasSpaceBeforeBreak text || hasSpaceAfterBreak text)

/-- Whether a text can be written as a literal block. -/
def canBeLiteral (text : List Char) : Bool :=
  !(hasSpecial text || hasSpaceBeforeBreak text || endsInSpace text)

/-- The quotes that a text is written in when it is neither plain nor a block. -/
def quotes (text : List Char) : Style :=
  if canBeSingleQuoted text then .singleQuoted else .doubleQuoted

/-- The style of a text. -/
def choose (text : List Char) : Style :=
  if text.contains '\n' then (if canBeLiteral text then .literal else .doubleQuoted)
  else if Schema.isTyped text || !canBePlain text then quotes text
  else .plain

end Style

namespace Scalar

/-! ## Written forms -/

/-- The indentation of lines inside a scalar. -/
def margin : List Char := [' ', ' ']

/-- A text between single quotes: quotes are doubled, and lines after a break are indented. -/
def singleQuotedBody : (afterBreak : Bool) → List Char → List Char
  | afterBreak, [] => if afterBreak then margin else []
  | afterBreak, c :: rest =>
    if isBreak c then c :: singleQuotedBody true rest
    else
      (if afterBreak then margin else []) ++ (if c = '\'' then ['\'', '\''] else [c]) ++
        singleQuotedBody false rest

/-- A number in capital hexadecimal digits, padded with zeros. -/
def hexDigits (width code : Nat) : List Char :=
  let digits := (Nat.toDigits 16 code).map Char.toUpper
  List.replicate (width - digits.length) '0' ++ digits

/-- The letters for characters that have an escape of their own. -/
def escapeLetters : List (Char × Char) :=
  [('\x00', '0'), ('\x07', 'a'), ('\x08', 'b'), ('\t', 't'), ('\n', 'n'), ('\x0b', 'v'),
    ('\x0c', 'f'), ('\r', 'r'), ('\x1b', 'e'), ('"', '"'), ('\\', '\\'), ('\x85', 'N'),
    (lineSeparator, 'L'), (paragraphSeparator, 'P')]

/-- A character between double quotes. -/
def doubleQuotedChar (c : Char) : List Char :=
  match escapeLetters.lookup c with
  | some letter => ['\\', letter]
  | none =>
    if Style.isPrintable c then [c]
    else if c.toNat ≤ 0xFF then '\\' :: 'x' :: hexDigits 2 c.toNat
    else if c.toNat ≤ 0xFFFF then '\\' :: 'u' :: hexDigits 4 c.toNat
    else '\\' :: 'U' :: hexDigits 8 c.toNat

/-- The lines of a literal block; line breaks stay and each line with text is indented. -/
def literalBody : (lineStart : Bool) → List Char → List Char
  | _, [] => []
  | lineStart, c :: rest =>
    if isBreak c then c :: literalBody true rest
    else (if lineStart then margin else []) ++ c :: literalBody false rest

/-- The sign that says how many breaks end a literal block. -/
def chompingSign (text : List Char) : List Char :=
  match text.reverse with
  | [] => ['-']
  | last :: before =>
    if !isBreak last then ['-']
    else
      match before with
      | [] => ['+']
      | c :: _ => if isBreak c then ['+'] else []

/-- The header of a literal block.  The indentation is given where the text starts with a space or
a break, for it could not be seen there. -/
def literalHeader (text : List Char) : List Char :=
  let starts := match text with
    | c :: _ => c = ' ' || isBreak c
    | [] => false
  '|' :: (if starts then ['2'] else []) ++ chompingSign text ++ ['\n']

/-- A text in a style, up to the start of the next line. -/
def writeIn (style : Style) (text : List Char) : List Char :=
  match style with
  | .plain => text ++ ['\n']
  | .singleQuoted => '\'' :: singleQuotedBody false text ++ ['\'', '\n']
  | .doubleQuoted => '"' :: text.flatMap doubleQuotedChar ++ ['"', '\n']
  | .literal =>
    literalHeader text ++ literalBody true text ++
      (if (text.getLast?.map isBreak).getD true then [] else ['\n'])

/-- The written form of a text, up to the start of the next line. -/
def write (text : List Char) : List Char :=
  writeIn (Style.choose text) text

end Scalar

end Yaml

end NativeLaunch
