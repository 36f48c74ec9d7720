import NativeLaunch.Text.Utf8
import NativeLaunch.Yaml.Block
import NativeLaunch.Yaml.Flow

/-!
# Tokens of a YAML text

The words of a YAML text.  Indentation shows in tokens that open and close blocks, and a key that
is written without a mark of its own gets its mark once the colon after it is seen.  This file
defines:

* `Token`;
* `Reader` — the state between two tokens: open blocks, open brackets, and where a key may have
  started;
* `Token.ofText?` — the tokens of a text, or nothing if it has none.

A key without a mark must end on its line and within 1024 bytes.  Where the indentation shows
that a key has to stand, its colon is required.
-/

namespace NativeLaunch

namespace Yaml

/-- A word of a YAML text. -/
inductive Token
  | versionDirective (major minor : Nat)
  | tagDirective (handle : List Char) (lead : Bytes)
  | documentStart
  | documentEnd
  | blockSequenceStart
  | blockMappingStart
  | blockEnd
  | flowSequenceStart
  | flowSequenceEnd
  | flowMappingStart
  | flowMappingEnd
  | blockEntry
  | flowEntry
  | key
  | value
  | alias (name : List Char)
  | anchor (name : List Char)
  | tag (handle : List Char) (suffix : Bytes)
  | scalar (text : List Char) (plain : Bool)
deriving DecidableEq, Repr

/-! ## Names, tags and directives -/

namespace Tag

/-- The punctuation allowed in a tag. -/
def punctuation : List Char := "-_;/?:@&=+$.%!~*'()".toList

/-- The characters of a tag; between angle brackets and in directives also commas and square
brackets. -/
def isTagChar (wide : Bool) (c : Char) : Bool :=
  c.isAlphanum || punctuation.contains c || (wide && (c = ',' || c = '[' || c = ']'))

/-- How many bytes a UTF-8 sequence has, by its first byte. -/
def sequenceWidth? (first : Nat) : Option Nat :=
  if first < 0x80 then some 1
  else if first < 0xC0 then none
  else if first < 0xE0 then some 2
  else if first < 0xF0 then some 3
  else if first < 0xF8 then some 4
  else none

/-- Decodes bytes written as `%` and two hexadecimal digits.  They come in groups, each as long as
its first byte says; `missing` bytes of the current group are still to come. -/
def unescape? : (missing : Nat) → List Char → Option Bytes
  | 0, [] => some []
  | _ + 1, [] => none
  | missing, '%' :: a :: b :: rest =>
    (Quoted.hexNumber? [a, b]).bind fun n =>
      let left := if missing = 0 then (sequenceWidth? n).map (· - 1)
        else if n / 64 = 2 then some (missing - 1) else none
      left.bind fun left => (unescape? left rest).map (UInt8.ofNat n :: ·)
  | 0, c :: rest => if c = '%' then none else (unescape? 0 rest).map (Utf8.encodeChar c ++ ·)
  | _ + 1, _ :: _ => none

/-- The bytes before the first zero byte, which ends a tag. -/
def untilZero (text : Bytes) : Bytes := text.takeWhile (· ≠ 0)

/-- Reads tag characters and decodes them; what stands from the first zero byte on is dropped. -/
def scanSuffix (wide : Bool) (cursor : Cursor) : Option (Bytes × Cursor) :=
  let (raw, after) := cursor.takeWhile (isTagChar wide)
  (unescape? 0 raw).map fun text => (untilZero text, after)

/-- Reads one or more tag characters and decodes them. -/
def scanSuffix1 (wide : Bool) (cursor : Cursor) : Option (Bytes × Cursor) :=
  if (cursor.rest.head?.map (isTagChar wide)).getD false then scanSuffix wide cursor else none

/-- Reads an exclamation mark, name characters, and a second exclamation mark if there is one. -/
def scanHandle (cursor : Cursor) : Option (List Char × Cursor) :=
  if cursor.rest.head? = some '!' then
    let (name, after) := (cursor.skip 1).takeWhile isNameChar
    if after.rest.head? = some '!' then some ('!' :: name ++ ['!'], after.skip 1)
    else some ('!' :: name, after)
  else none

/-- Whether a handle ends in an exclamation mark of its own. -/
def isClosed (handle : List Char) : Bool :=
  handle.length > 1 && handle.getLast? = some '!'

/-- Scans a tag: handle and suffix. -/
def scan (inFlow : Bool) (cursor : Cursor) : Option (Token × Cursor) :=
  let ended (handle : List Char) (suffix : Bytes) (after : Cursor) : Option (Token × Cursor) :=
    if separated after.rest || (inFlow && after.rest.head? = some ',') then
      some (.tag handle suffix, after)
    else none
  if cursor.rest.tail.head? = some '<' then
    (scanSuffix1 true (cursor.skip 2)).bind fun (suffix, after) =>
      if after.rest.head? = some '>' then ended [] suffix (after.skip 1) else none
  else
    (scanHandle cursor).bind fun (handle, afterHandle) =>
      if isClosed handle then
        (scanSuffix1 false afterHandle).bind fun (suffix, after) => ended handle suffix after
      else
        (scanSuffix false afterHandle).bind fun (suffix, after) =>
          let whole := Utf8.encodeChars handle.tail ++ suffix
          if whole = [] then ended [] (Utf8.encode "!") after else ended ['!'] whole after

end Tag

/-- Scans the name of an anchor or alias after its indicator. -/
def scanAnchorName (cursor : Cursor) : Option (List Char × Cursor) :=
  let (name, after) := cursor.takeWhile isNameChar
  let ended := match after.rest with
    | [] => true
    | c :: _ => isSeparator c || "?:,]\x7d%@`".toList.contains c
  if name ≠ [] && ended then some (name, after) else none

namespace Directive

/-- Reads a number of at most nine digits. -/
def scanNumber (cursor : Cursor) : Option (Nat × Cursor) :=
  let (digits, after) := cursor.takeWhile Char.isDigit
  if digits = [] || 9 < digits.length then none
  else some (digits.foldl (fun n c => n * 10 + (c.toNat - '0'.toNat)) 0, after)

/-- Passes over spaces and tabs. -/
def skipBlanks (cursor : Cursor) : Cursor := (cursor.takeWhile isSpaceOrTab).2

/-- Passes over the rest of a line, which may hold a comment and nothing else. -/
def endLine (cursor : Cursor) : Option Cursor :=
  let blank := skipBlanks cursor
  let done := if blank.rest.head? = some '#' then (blank.takeWhile (!isBreak ·)).2 else blank
  match done.rest with
  | [] => some done
  | c :: rest => if isBreak c then some ⟨rest, done.place.after c⟩ else none

/-- Reads two numbers with a point between them. -/
def scanVersion (cursor : Cursor) : Option (Token × Cursor) :=
  (scanNumber (skipBlanks cursor)).bind fun (major, after) =>
    if after.rest.head? = some '.' then
      (scanNumber (after.skip 1)).map fun (minor, after) => (.versionDirective major minor, after)
    else none

/-- Reads a tag handle and what it stands for. -/
def scanTag (cursor : Cursor) : Option (Token × Cursor) :=
  (Tag.scanHandle (skipBlanks cursor)).bind fun (handle, after) =>
    if (handle = ['!'] || Tag.isClosed handle) &&
        (after.rest.head?.map isSpaceOrTab).getD false then
      (Tag.scanSuffix1 true (skipBlanks after)).bind fun (lead, after) =>
        if separated after.rest then some (.tagDirective handle lead, after) else none
    else none

/-- Scans a directive with its line. -/
def scan (cursor : Cursor) : Option (Token × Cursor) :=
  let (name, after) := (cursor.skip 1).takeWhile isNameChar
  if name = [] || !separated after.rest then none
  else
    let content :=
      if name = "YAML".toList then scanVersion after
      else if name = "TAG".toList then scanTag after
      else none
    content.bind fun (token, after) => (endLine after).map fun after => (token, after)

end Directive

/-! ## The state between tokens -/

/-- Where a key without a mark may have started. -/
structure PossibleKey where
  required : Bool
  /-- How many tokens stand before the key. -/
  tokensBefore : Nat
  place : Position
deriving DecidableEq, Repr

namespace PossibleKey

/-- How many bytes a key without a mark may have. -/
def maxLength : Nat := 1024

/-- Whether a place is too far for the colon of the key. -/
def isStale (key : PossibleKey) (place : Position) : Bool :=
  key.place.line < place.line || key.place.index + maxLength < place.index

end PossibleKey

/-- The state between two tokens. -/
structure Reader where
  cursor : Cursor
  /-- The tokens so far, last first. -/
  tokens : List Token := []
  /-- The least column of content nested in the innermost open block: one more than the block's
  own column, and zero outside all blocks. -/
  margin : Nat := 0
  /-- The margins of the blocks around. -/
  outerMargins : List Nat := []
  /-- Whether a key without a mark may start here. -/
  keyAllowed : Bool := true
  /-- The possible key on this level of brackets. -/
  possibleKey : Option PossibleKey := none
  /-- The possible keys on the levels around; their number is the depth of brackets. -/
  outerKeys : List (Option PossibleKey) := []
deriving Repr

namespace Reader

/-- Whether the place is inside brackets. -/
def inFlow (reader : Reader) : Bool := !reader.outerKeys.isEmpty

/-- Adds a token. -/
def emit (token : Token) (reader : Reader) : Reader :=
  { reader with tokens := token :: reader.tokens }

/-- Adds a token after the given number of tokens. -/
def emitAt (token : Token) (before : Nat) (reader : Reader) : Reader :=
  let late := reader.tokens.length - before
  { reader with tokens := reader.tokens.take late ++ token :: reader.tokens.drop late }

/-- Passes over characters of the current line. -/
def skip (count : Nat) (reader : Reader) : Reader :=
  { reader with cursor := reader.cursor.skip count }

/-- Says whether a key may start next. -/
def allowKey (allowed : Bool) (reader : Reader) : Reader :=
  { reader with keyAllowed := allowed }

/-! ### Blocks -/

/-- Opens a block at a column if it lies deeper than the innermost one; brackets have no blocks. -/
def openBlock (column : Nat) (token : Token) (before : Option Nat) (reader : Reader) : Reader :=
  if reader.inFlow || column < reader.margin then reader
  else
    let opened :=
      { reader with margin := column + 1, outerMargins := reader.margin :: reader.outerMargins }
    match before with
    | some before => opened.emitAt token before
    | none => opened.emit token

/-- Closes the blocks whose margin is greater than the given one. -/
def closeBlocksTo (margin : Nat) (reader : Reader) : Reader :=
  if reader.inFlow then reader
  else close reader.margin reader.outerMargins reader.tokens
where
  close (inner : Nat) (outer : List Nat) (tokens : List Token) : Reader :=
    match outer with
    | [] => { reader with margin := inner, outerMargins := [], tokens := tokens }
    | next :: rest =>
      if margin < inner then close next rest (.blockEnd :: tokens)
      else { reader with margin := inner, outerMargins := next :: rest, tokens := tokens }

/-! ### Keys -/

/-- Gives up the possible key of this level; one that is required is an error. -/
def dropKey (reader : Reader) : Option Reader :=
  match reader.possibleKey with
  | some key => if key.required then none else some { reader with possibleKey := none }
  | none => some reader

/-- Notes that a key may start here. -/
def noteKey (reader : Reader) : Option Reader :=
  if reader.keyAllowed then
    reader.dropKey.map fun dropped =>
      { dropped with
        possibleKey := some
          { required := !reader.inFlow && reader.margin = reader.cursor.place.column + 1
            tokensBefore := reader.tokens.length
            place := reader.cursor.place } }
  else some reader

/-- Gives up a possible key that is too far behind; one that is required is an error. -/
def expire (place : Position) : Option PossibleKey → Option (Option PossibleKey)
  | none => some none
  | some key =>
    if key.isStale place then (if key.required then none else some none) else some (some key)

/-- Gives up all possible keys that are too far behind. -/
def expireKeys (reader : Reader) : Option Reader :=
  (expire reader.cursor.place reader.possibleKey).bind fun possible =>
    (reader.outerKeys.mapM (expire reader.cursor.place)).map fun outer =>
      { reader with possibleKey := possible, outerKeys := outer }

/-! ### Between tokens -/

/-- Passes over spaces, comments and line breaks, and over a byte order mark at the start of a line.
Tabs count as space inside brackets and where no key may start; outside brackets a new line allows a
key. -/
def skipFiller (inFlow : Bool) :
    List Char → Position → (keyAllowed inComment : Bool) → Cursor × Bool
  | [], place, allowed, _ => (⟨[], place⟩, allowed)
  | c :: rest, place, allowed, inComment =>
    if isBreak c then skipFiller inFlow rest (place.after c) (allowed || !inFlow) false
    else if (c = byteOrderMark && place.column = 0) || inComment || c = ' ' || (c = '\t' && (inFlow || !allowed)) then
      skipFiller inFlow rest (place.after c) allowed inComment
    else if c = '#' then skipFiller inFlow rest (place.after c) allowed true
    else (⟨c :: rest, place⟩, allowed)

/-- Moves to the next token: over filler, past keys that are too far behind, and out of blocks that
end before this column. -/
def approach (reader : Reader) : Option Reader :=
  let start := reader.cursor
  let (cursor, allowed) := skipFiller reader.inFlow start.rest start.place reader.keyAllowed false
  let moved : Reader := { reader with cursor := cursor, keyAllowed := allowed }
  moved.expireKeys.map fun live => live.closeBlocksTo (cursor.place.column + 1)

/-! ### One token -/

/-- Ends the text: all blocks close. -/
def finish (reader : Reader) : Option (List Token) :=
  (reader.closeBlocksTo 0).dropKey.map (·.tokens.reverse)

/-- Takes a token that closes all blocks first. -/
def takeTopLevel (take : Reader → Option Reader) (reader : Reader) : Option Reader :=
  (reader.closeBlocksTo 0).dropKey.bind fun outside => take (outside.allowKey false)

/-- Takes an opening bracket. -/
def takeOpening (token : Token) (reader : Reader) : Option Reader :=
  reader.noteKey.map fun noted =>
    { noted with possibleKey := none, outerKeys := noted.possibleKey :: noted.outerKeys }
      |>.allowKey true |>.skip 1 |>.emit token

/-- Takes a closing bracket; outside brackets it is left to the grammar. -/
def takeClosing (token : Token) (reader : Reader) : Option Reader :=
  reader.dropKey.map fun dropped =>
    let outside := match dropped.outerKeys with
      | [] => dropped
      | key :: keys => { dropped with possibleKey := key, outerKeys := keys }
    outside.allowKey false |>.skip 1 |>.emit token

/-- Takes an indicator that opens a block outside brackets, where it has to be the first on its
line or after another one. -/
def takeBlockIndicator (block indicator : Token) (allowsKeyInFlow : Bool) (reader : Reader) :
    Option Reader :=
  if !reader.inFlow && !reader.keyAllowed then none
  else
    (reader.openBlock reader.cursor.place.column block none).dropKey.map fun opened =>
      opened.allowKey (!reader.inFlow || allowsKeyInFlow) |>.skip 1 |>.emit indicator

/-- Takes a colon.  A possible key before it becomes a key, and opens a block mapping if it lies
deeper; without one the colon stands for itself. -/
def takeValue (reader : Reader) : Option Reader :=
  match reader.possibleKey with
  | some key =>
    let keyed := reader.emitAt .key key.tokensBefore
    let opened := keyed.openBlock key.place.column .blockMappingStart (some key.tokensBefore)
    some ({ opened with possibleKey := none }.allowKey false |>.skip 1 |>.emit .value)
  | none =>
    if !reader.inFlow && !reader.keyAllowed then none
    else
      some (reader.openBlock reader.cursor.place.column .blockMappingStart none
        |>.allowKey (!reader.inFlow) |>.skip 1 |>.emit .value)

/-- Takes a token that may start a key. -/
def takeNode (scan : Reader → Option (Token × Cursor)) (reader : Reader) : Option Reader :=
  reader.noteKey.bind fun noted =>
    (scan noted).map fun (token, after) =>
      { noted with cursor := after }.allowKey false |>.emit token

/-- Takes a quoted scalar. -/
def takeQuoted (scan : List Char → Position → Gap → Option ScannedText) (reader : Reader) :
    Option Reader :=
  reader.takeNode fun noted =>
    let opened := noted.cursor.skip 1
    (scan opened.rest opened.place {}).map fun scanned =>
      (.scalar scanned.text false, scanned.after)

/-- Takes a plain scalar; a key may start after it if it ended beyond a line break. -/
def takePlain (reader : Reader) : Option Reader :=
  reader.noteKey.bind fun noted =>
    let cursor := noted.cursor
    (Plain.scan noted.inFlow noted.margin cursor.rest cursor.place {} true).map fun scanned =>
      { noted with cursor := scanned.after }.allowKey scanned.brokenAfter
        |>.emit (.scalar scanned.text true)

/-- Takes a block scalar. -/
def takeBlockScalar (literal : Bool) (reader : Reader) : Option Reader :=
  reader.dropKey.bind fun dropped =>
    (Block.scan literal dropped.margin (dropped.cursor.skip 1)).map fun scanned =>
      { dropped with cursor := scanned.after }.allowKey true |>.emit (.scalar scanned.text false)

/-- Whether a plain scalar may start with a character and what follows it. -/
def startsPlain (inFlow : Bool) (c : Char) (rest : List Char) : Bool :=
  !(isSeparator c || "-?:,[]\x7b\x7d#&*!|>'\"%@`".toList.contains c) ||
    (c = '-' && !(rest.head?.map isSpaceOrTab).getD false) ||
    (!inFlow && (c = '?' || c = ':') && !separated rest)

/-- Takes the token that starts with a character. -/
def takeToken (c : Char) (rest : List Char) (reader : Reader) : Option Reader :=
  let atLineStart := reader.cursor.place.column = 0
  if atLineStart && c = '%' then
    reader.takeTopLevel fun outside =>
      (Directive.scan outside.cursor).map fun (token, after) =>
        { outside with cursor := after }.emit token
  else if atLineStart && startsDocumentMark (c :: rest) then
    reader.takeTopLevel fun outside =>
      some (outside.skip 3 |>.emit (if c = '-' then .documentStart else .documentEnd))
  else if c = '[' then reader.takeOpening .flowSequenceStart
  else if c = '\x7b' then reader.takeOpening .flowMappingStart
  else if c = ']' then reader.takeClosing .flowSequenceEnd
  else if c = '\x7d' then reader.takeClosing .flowMappingEnd
  else if c = ',' then
    reader.dropKey.map fun dropped => dropped.allowKey true |>.skip 1 |>.emit .flowEntry
  else if c = '-' && separated rest then
    reader.takeBlockIndicator .blockSequenceStart .blockEntry true
  else if c = '?' && (reader.inFlow || separated rest) then
    reader.takeBlockIndicator .blockMappingStart .key false
  else if c = ':' && (reader.inFlow || separated rest) then reader.takeValue
  else if c = '*' then
    reader.takeNode fun noted =>
      (scanAnchorName (noted.cursor.skip 1)).map fun (name, after) => (.alias name, after)
  else if c = '&' then
    reader.takeNode fun noted =>
      (scanAnchorName (noted.cursor.skip 1)).map fun (name, after) => (.anchor name, after)
  else if c = '!' then reader.takeNode fun noted => Tag.scan noted.inFlow noted.cursor
  else if c = '|' && !reader.inFlow then reader.takeBlockScalar true
  else if c = '>' && !reader.inFlow then reader.takeBlockScalar false
  else if c = '\'' then reader.takeQuoted Quoted.scanSingle
  else if c = '"' then reader.takeQuoted Quoted.scanDouble
  else if startsPlain reader.inFlow c rest then reader.takePlain
  else none

/-- Reads tokens to the end of the text.  Each token takes at least one character; a step that
takes none is refused. -/
def readAll (reader : Reader) : Option (List Token) :=
  match reader.approach with
  | none => none
  | some near =>
    match near.cursor.rest with
    | [] => near.finish
    | c :: rest =>
      match near.takeToken c rest with
      | none => none
      | some next =>
        if next.cursor.rest.length < reader.cursor.rest.length then next.readAll else none
termination_by reader.cursor.rest.length

end Reader

/-- The tokens of a text; nothing if it holds a character that no text may hold, or a part that is
no token. -/
def Token.ofText? (text : List Char) : Option (List Token) :=
  if text.all isAllowed then Reader.readAll { cursor := ⟨unifyBreaks text, {}⟩ } else none

end Yaml

end NativeLaunch
