import WebCall.Config.Reading
import WebCall.Files.Tree
import WebCall.Log.Record
import WebCall.Places

/-!
# Loading the configuration

Reading the configuration file. If there is none, one with the default configuration is made, with
the directories it needs; nothing that is there already is ever changed.
-/
namespace WebCall

/-- Why no configuration was loaded. -/
inductive ConfigError
  /-- No default configuration could be made. -/
  | create (cause : FileError)
  /-- The file cannot be read. -/
  | read (path : String) (cause : FileError)
  /-- The file is not text. -/
  | encoding (path : String)
  /-- The text is no configuration. -/
  | content (path : String)
  deriving DecidableEq, Repr

/-- The texts of the error and of what lies behind it, outermost first. Where the content is wrong
is not told. -/
def ConfigError.chain : ConfigError → List String
  | create cause => [cause.message]
  | read path cause => [s!"read config: {path}", cause.message]
  | encoding path => [s!"read config: {path}", "stream did not contain valid UTF-8"]
  | content path => [s!"parse config: {path}", "TOML parse error"]

namespace Config

/-- What loading comes to. -/
structure Loading where
  /-- The configuration. -/
  result : Except ConfigError Config
  /-- The files afterwards. -/
  files : FileTree
  /-- What the log says. -/
  records : List Log.Record := []

/-- Makes the file of the default configuration. -/
def createFile (files : FileTree) (path : String) : Except FileError Unit × FileTree :=
  match files.makeParents path with
  | (.ok _, files) => files.write path (Utf8.encode defaultText)
  | failed => failed

/-- The configuration in the file at a path. -/
def readFile (files : FileTree) (path : String) : Except ConfigError Config :=
  match files.read path with
  | .error e => .error (.read path e)
  | .ok bytes =>
    match Utf8.decode? bytes with
    | none => .error (.encoding path)
    | some text =>
      match ofText? text with
      | none => .error (.content path)
      | some config => .ok config

/-- Loads the configuration at a path, or makes a default one there. -/
def load (files : FileTree) (path : String) : Loading :=
  if files.has path then { result := readFile files path, files }
  else
    match createFile files path with
    | (.ok _, files) =>
      { result := .ok {}
        files
        records := [⟨.info, .config, s!"created default config at {path}"⟩] }
    | (.error e, files) => { result := .error (.create e), files }

/-- Loads the configuration of a user. The directory of its file is made in any case. -/
def loadUsual (files : FileTree) (places : Places) : Loading :=
  match files.makeParents places.configFile with
  | (.ok _, files) => load files places.configFile
  | (.error e, files) => { result := .error (.create e), files }

end Config

end WebCall
