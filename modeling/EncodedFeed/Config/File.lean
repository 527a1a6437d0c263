import EncodedFeed.Config.Preferences
import EncodedFeed.FileTree

/-!
# The configuration file

Where preferences are kept, and how they get there and back.  A file that is not there is no error:
all preferences have defaults.
-/

namespace EncodedFeed.Preferences

/-- The configuration file within the user's directory for such files. -/
def defaultPath (configDirectory : String) : String :=
  FileTree.join configDirectory "passthru/config.toml"

/-- The configuration file of a user, found by the variables that name the user's directories. -/
def userPath (configHome home : Option String) : String :=
  match configHome.filter fun d => d.startsWith "/", home with
  | some directory, _ => defaultPath directory
  | none, some directory => defaultPath (FileTree.join directory ".config")
  | none, none => defaultPath "/etc"

/-- Preferences out of the file at a path. -/
def load (t : FileTree) (path : String) : Except Error Preferences :=
  if t.contains path then
    match t.readText path with
    | .ok text => read text
    | .error e => .error (.config ("Failed to read config file: " ++ e.message))
  else .ok {}

/-- The warning given when a file that cannot be used is ignored. -/
def ignored (e : Error) : String :=
  "Failed to load config file: " ++ e.message ++ ", using defaults"

/-- Preferences out of the file at a path, or else the defaults with a warning. -/
def loadOrDefault (t : FileTree) (path : String) : Preferences × List String :=
  match load t path with
  | .ok p => (p, [])
  | .error e => ({}, [ignored e])

/-- The tree with the directory that is to hold the file at a path. -/
def makeRoom (t : FileTree) (path : String) : Except OsError FileTree :=
  if t.contains (FileTree.parent path) then .ok t else t.makeDirectories (FileTree.parent path)

/-- Put preferences into the file at a path, making its directory if there is none. -/
def save (p : Preferences) (t : FileTree) (path : String) : Except Error Unit × FileTree :=
  match makeRoom t path with
  | .error e => (.error (.config ("Failed to create config directory: " ++ e.message)), t)
  | .ok t =>
    match p.write with
    | .error e => (.error e, t)
    | .ok text =>
      match t.write path (Octets.ofText text) with
      | .error e => (.error (.config ("Failed to write config file: " ++ e.message)), t)
      | .ok t => (.ok (), t)

end EncodedFeed.Preferences
