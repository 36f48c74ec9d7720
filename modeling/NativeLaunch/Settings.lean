import NativeLaunch.Invocation
import NativeLaunch.Yaml.Node
import NativeLaunch.Yaml.Print

/-!
# Launcher settings

The settings of the launcher and their form as a YAML mapping.  Each of the four fields may be left
out and then has its default; fields of other names are ignored, and a field given twice is an
error.  This file defines:

* `Settings` with its defaults;
* `Settings.ofDocument?` — the settings that a document holds;
* `Settings.render?` — the text of settings, for those whose paths are text;
* `Settings.configPath?` — the configuration file in the data directory, made absolute.
-/

namespace NativeLaunch

/-- The launcher's settings. -/
structure Settings where
  /-- The directory that holds the server's configuration file. -/
  dataDirectory : Path := .ofString "."
  /-- The program name given to the native entry point. -/
  programName : String := Invocation.defaultProgramName
  /-- Arguments after the configuration path. -/
  extraArguments : List String := []
  /-- A directory to take artifacts from, in place of the built-in ones. -/
  nativesDirectory : Option Path := none
deriving DecidableEq, Repr

namespace Settings

open Yaml (Node Document)

/-! ## Reading -/

/-- The fields that a mapping has given so far. -/
structure Given where
  dataDirectory : Option Path := none
  programName : Option String := none
  extraArguments : Option (List String) := none
  nativesDirectory : Option (Option Path) := none
deriving Repr

/-- The settings for some given fields, the others at their defaults. -/
def Given.complete (given : Given) : Settings :=
  let defaults : Settings := {}
  { dataDirectory := given.dataDirectory.getD defaults.dataDirectory
    programName := given.programName.getD defaults.programName
    extraArguments := given.extraArguments.getD defaults.extraArguments
    nativesDirectory := given.nativesDirectory.getD defaults.nativesDirectory }

/-- The text of a scalar, whatever its tag. -/
def text? (document : Document) (node : Node) : Option String :=
  match document.resolve? node with
  | some (.scalar _ _ _ text) => some (String.ofList text)
  | _ => none

/-- The texts in a sequence; a plain scalar with no text is an empty sequence. -/
def texts? (document : Document) (node : Node) : Option (List String) :=
  match document.resolve? node with
  | some (.sequence _ items) => items.mapM (text? document)
  | some (.scalar _ _ plain text) => if plain && text = [] then some [] else none
  | _ => none

/-- The tag of null. -/
def nullTag : Bytes := Utf8.encode "tag:yaml.org,2002:null"

/-- The text of a scalar, or null: a plain scalar without a tag that is empty or a word for null,
or one tagged as null that is such a word. -/
def optionalText? (document : Document) (node : Node) : Option (Option String) :=
  match document.resolve? node with
  | some (.scalar _ tag plain text) =>
    let given : Option String := some (String.ofList text)
    if !plain then some given
    else
      match tag with
      | none => some (if text = [] || Yaml.Schema.isNull text then none else given)
      | some tag =>
        if tag ≠ nullTag then some given
        else if Yaml.Schema.isNull text then some none
        else none
  | _ => none

/-- Takes one pair of a mapping. -/
def Given.add? (document : Document) (given : Given) (pair : Node × Node) : Option Given :=
  (text? document pair.1).bind fun key =>
    match key with
    | "data_dir" =>
      if given.dataDirectory.isSome then none
      else (text? document pair.2).map fun text =>
        { given with dataDirectory := some (.ofString text) }
    | "program_name" =>
      if given.programName.isSome then none
      else (text? document pair.2).map fun text => { given with programName := some text }
    | "extra_args" =>
      if given.extraArguments.isSome then none
      else (texts? document pair.2).map fun texts => { given with extraArguments := some texts }
    | "natives_dir" =>
      if given.nativesDirectory.isSome then none
      else (optionalText? document pair.2).map fun text =>
        { given with nativesDirectory := some (text.map Path.ofString) }
    | _ => some given

/-- The settings that a document holds; an empty document holds the defaults. -/
def ofDocument? (document : Document) : Option Settings :=
  match document.root with
  | none => some {}
  | some root =>
    match document.resolve? root with
    | some (.mapping _ pairs) => (pairs.foldlM (Given.add? document) {}).map Given.complete
    | some (.scalar _ _ plain text) => if plain && text = [] then some {} else none
    | _ => none

/-- The settings that a text holds. -/
def ofText? (text : String) : Option Settings :=
  (Document.ofText? text.toList).bind ofDocument?

/-! ## Writing -/

/-- A field of a block mapping with a scalar value. -/
def field (name : String) (value : List Char) : List Char :=
  name.toList ++ ':' :: ' ' :: value

/-- The field of a list of texts. -/
def listField (name : String) (texts : List String) : List Char :=
  if texts = [] then field name "[]\n".toList
  else
    name.toList ++ ':' :: '\n' ::
      texts.flatMap fun text => '-' :: ' ' :: Yaml.Scalar.write text.toList

/-- The text of settings.  There is none if a path is no text. -/
def render? (settings : Settings) : Option String :=
  (Utf8.decodeChars? settings.dataDirectory.bytes).bind fun dataDirectory =>
    let natives : Option (List Char) :=
      match settings.nativesDirectory with
      | none => some "null\n".toList
      | some path => (Utf8.decodeChars? path.bytes).map Yaml.Scalar.write
    natives.map fun nativesDirectory =>
      String.ofList <|
        field "data_dir" (Yaml.Scalar.write dataDirectory) ++
          field "program_name" (Yaml.Scalar.write settings.programName.toList) ++
          listField "extra_args" settings.extraArguments ++
          field "natives_dir" nativesDirectory

/-! ## The configuration file -/

/-- The configuration file in the data directory, made absolute against a working directory.  There is
none for a relative data directory where the working directory has no name. -/
def configPath? (settings : Settings) (workingDirectory : Option Path) : Option Path :=
  (Path.seenFrom? workingDirectory settings.dataDirectory).map
    (·.join (.ofString Invocation.configFileName))

end Settings

end NativeLaunch
