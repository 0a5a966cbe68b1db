import WebCall.Files.Tree

/-!
# Places

Where the program keeps its configuration and its log: below directories that the user's environment
names, or below the home directory.
-/
namespace WebCall

/-- What the environment says about directories. -/
structure Places where
  /-- The home directory. -/
  home : String
  /-- The directory for configurations, if one is named. -/
  configHome : Option String := none
  /-- The directory for logs and other state, if one is named. -/
  stateHome : Option String := none
  deriving DecidableEq, Repr, Inhabited

namespace Places

/-- The directory below which the program keeps files of one kind. A name that is not an absolute
path is ignored. -/
def base (p : Places) (named : Option String) (usual : String) : String :=
  (named.filter Path.isAbsolute).getD (Path.join p.home usual)

/-- The name of the program, and of its directories. -/
def program : String := "callguard"

/-- The path of the configuration file. -/
def configFile (p : Places) : String :=
  Path.join (Path.join (p.base p.configHome ".config") program) "config.toml"

/-- The path of the log file. -/
def logFile (p : Places) : String :=
  Path.join (Path.join (p.base p.stateHome ".local/state") program) s!"{program}.log"

end Places

end WebCall
