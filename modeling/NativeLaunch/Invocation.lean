import NativeLaunch.Path

/-!
# Invocations

The arguments of one native call: a program name, the option `--config` with the path of the
configuration file, and whatever the caller adds after them.
-/

namespace NativeLaunch

/-- The arguments of one native call. -/
structure Invocation where
  programName : String
  configPath : String
  extra : List String := []
deriving DecidableEq, Repr, Inhabited

namespace Invocation

/-- The program name given when the caller chooses none. -/
def defaultProgramName : String := "limbo_bridge"

/-- The name of the server's configuration file in a data directory. -/
def configFileName : String := "server.toml"

/-- An invocation under a program name; the path is passed as text, ill-formed bytes replaced. -/
def withProgramName (programName : String) (config : Path) : Invocation :=
  ⟨programName, config.display, []⟩

/-- An invocation under the default program name. -/
def forConfig (config : Path) : Invocation :=
  withProgramName defaultProgramName config

/-- Adds arguments after those already there. -/
def addExtra (invocation : Invocation) (arguments : List String) : Invocation :=
  { invocation with extra := invocation.extra ++ arguments }

/-- The whole argument list. -/
def arguments (invocation : Invocation) : List String :=
  invocation.programName :: "--config" :: invocation.configPath :: invocation.extra

/-- The arguments in one line, a blank between each two. -/
def display (invocation : Invocation) : String :=
  " ".intercalate invocation.arguments

end Invocation

end NativeLaunch
