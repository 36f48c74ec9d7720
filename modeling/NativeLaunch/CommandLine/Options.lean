import NativeLaunch.Path

/-!
# Command line options

How the words of a command line are read.  A word `--name` or `--name=value` names an option in
full, a word `-abc` names one by each letter, and the word `--` ends the options: what follows it
belongs to the native component, whatever it looks like.  Words are bytes, and paths may be any.  This
file defines:

* `Word` — what a single word is by its looks;
* `Options` with the four options that take a path and the two switches;
* `Options.read` — the options of a whole command line, or why it is not carried out.

A path follows in the next word or is attached, after `=` or, for a letter, directly.  No option
may be given twice, no path may be empty, and a path in a word of its own may not look like an
option.  What belongs to the native component has to be text.  The first word that says otherwise
decides, as does the first that asks for the version or for help.
-/

namespace NativeLaunch

namespace CommandLine

/-! ## Words -/

/-- What a word is by its looks. -/
inductive Word
  /-- The word that ends the options. -/
  | separator
  | long (name : Bytes) (attached : Option Bytes)
  | letters (letters : Bytes)
  | plain
deriving DecidableEq, Repr

/-- The byte with which options start. -/
@[match_pattern]
def dash : UInt8 := 0x2D

/-- The byte between an option and its path. -/
@[match_pattern]
def equals : UInt8 := 0x3D

/-- Splits a word at its first equals sign. -/
def splitAtEquals (text : Bytes) : Bytes × Option Bytes :=
  match text.dropWhile (· ≠ equals) with
  | [] => (text, none)
  | _ :: value => (text.takeWhile (· ≠ equals), some value)

/-- The looks of a word.  A single dash is plain. -/
def Word.ofBytes : Bytes → Word
  | [dash, dash] => .separator
  | dash :: dash :: rest => .long (splitAtEquals rest).1 (splitAtEquals rest).2
  | dash :: letter :: rest => .letters (letter :: rest)
  | _ => .plain

/-! ## Options -/

/-- What a command line asks for. -/
structure Options where
  config : Option Path := none
  dataDirectory : Option Path := none
  settings : Option Path := none
  nativesDirectory : Option Path := none
  listArtifacts : Bool := false
  debug : Bool := false
  nativeArguments : List String := []
deriving DecidableEq, Repr

/-- Why a command line is not carried out. -/
inductive Halt
  | version
  | help
  | misuse
deriving DecidableEq, Repr

/-- The options that take a path. -/
inductive PathOption
  | config
  | dataDirectory
  | settings
  | nativesDirectory
deriving DecidableEq, Repr

/-- The options that take nothing. -/
inductive Switch
  | listArtifacts
  | debug
  | version
  | help
deriving DecidableEq, Repr

/-- An option of either kind. -/
inductive AnyOption
  | path (option : PathOption)
  | switch (switch : Switch)
deriving DecidableEq, Repr

/-- The options by name. -/
def optionNames : List (String × AnyOption) :=
  [("config", .path .config), ("data-dir", .path .dataDirectory), ("settings", .path .settings),
    ("natives-dir", .path .nativesDirectory), ("list-artifacts", .switch .listArtifacts),
    ("debug", .switch .debug), ("help", .switch .help), ("version", .switch .version)]

/-- The options that have a letter. -/
def optionLetters : List (UInt8 × AnyOption) :=
  [('c'.toUInt8, .path .config), ('d'.toUInt8, .switch .debug), ('h'.toUInt8, .switch .help),
    ('V'.toUInt8, .switch .version)]

/-- The option of a name. -/
def namedOption? (name : Bytes) : Option AnyOption :=
  (optionNames.find? fun (text, _) => Utf8.encode text = name).map (·.2)

namespace Options

/-- The path given for an option. -/
def path? (options : Options) : PathOption → Option Path
  | .config => options.config
  | .dataDirectory => options.dataDirectory
  | .settings => options.settings
  | .nativesDirectory => options.nativesDirectory

/-- Gives an option its path, in place of what it had. -/
def setPath (options : Options) (option : PathOption) (path : Path) : Options :=
  match option with
  | .config => { options with config := some path }
  | .dataDirectory => { options with dataDirectory := some path }
  | .settings => { options with settings := some path }
  | .nativesDirectory => { options with nativesDirectory := some path }

/-- Takes a path for an option; it may not be empty, nor the second one. -/
def give (options : Options) (option : PathOption) (value : Bytes) : Except Halt Options :=
  if value = [] then .error .misuse
  else if (options.path? option).isSome then .error .misuse
  else .ok (options.setPath option ⟨value⟩)

/-- Takes a switch; one that asks for a text ends the reading. -/
def turnOn (options : Options) (switch : Switch) : Except Halt Options :=
  match switch with
  | .listArtifacts =>
    if options.listArtifacts then .error .misuse else .ok { options with listArtifacts := true }
  | .debug => if options.debug then .error .misuse else .ok { options with debug := true }
  | .version => .error .version
  | .help => .error .help

/-! ## Reading -/

/-- Takes an option named in full; answers also the option whose path is in the next word. -/
def takeNamed (options : Options) (name : Bytes) (attached : Option Bytes) :
    Except Halt (Options × Option PathOption) :=
  match namedOption? name, attached with
  | some (.path option), some value => (options.give option value).map (·, none)
  | some (.path option), none => .ok (options, some option)
  | some (.switch switch), none => (options.turnOn switch).map (·, none)
  | some (.switch _), some _ => .error .misuse
  | none, _ => .error .misuse

/-- Takes options named by letters, up to one that takes a path: the rest of the word is its path,
less one equals sign at the start, or there is no rest and the path is in the next word. -/
def takeLetters (options : Options) : Bytes → Except Halt (Options × Option PathOption)
  | [] => .ok (options, none)
  | letter :: rest =>
    match optionLetters.lookup letter with
    | none => .error .misuse
    | some (.switch switch) =>
      match options.turnOn switch with
      | .error halt => .error halt
      | .ok more => more.takeLetters rest
    | some (.path option) =>
      match rest with
      | [] => .ok (options, some option)
      | equals :: value => (options.give option value).map (·, none)
      | value => (options.give option value).map (·, none)

/-- Takes the words for the native component, which have to be text. -/
def takeNative (options : Options) (words : List Bytes) : Except Halt Options :=
  match words.mapM Utf8.decode? with
  | none => .error .misuse
  | some arguments => .ok { options with nativeArguments := arguments }

/-- Reads words after some options, the last of which may still wait for its path. -/
def readFrom (options : Options) (awaiting : Option PathOption) :
    List Bytes → Except Halt Options
  | [] => if awaiting.isSome then .error .misuse else .ok options
  | word :: rest =>
    match awaiting, Word.ofBytes word with
    | some option, .plain =>
      match options.give option word with
      | .error halt => .error halt
      | .ok more => more.readFrom none rest
    | some _, _ => .error .misuse
    | none, .separator => options.takeNative rest
    | none, .plain => .error .misuse
    | none, .long name attached =>
      match options.takeNamed name attached with
      | .error halt => .error halt
      | .ok (more, next) => more.readFrom next rest
    | none, .letters letters =>
      match options.takeLetters letters with
      | .error halt => .error halt
      | .ok (more, next) => more.readFrom next rest

/-- Reads the words of a command line, the program's own name left out. -/
def read (words : List Bytes) : Except Halt Options := readFrom {} none words

/-- Reads a command line of texts. -/
def parse (words : List String) : Except Halt Options := read (words.map Utf8.encode)

end Options

end CommandLine

end NativeLaunch
