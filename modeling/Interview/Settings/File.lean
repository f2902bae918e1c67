import Interview.Files.FileSystem
import Interview.Format
import Interview.Json.Writer
import Interview.Settings.Dotted
import Interview.Toml.Patch
import Interview.Yaml.Writer

/-! Stores kept in files. The extension says the format; a TOML file is patched rather than replaced,
so what it says about other things stays. -/

namespace Interview.Settings

def parse (path : Path) (format : Format) (text : String) : Except Error Settings :=
  let cs := text.toList
  if (Text.trim cs).isEmpty then .ok empty
  else
    match (format.readEntries? cs).bind Raw.table? with
    | some t => ofDotted t
    | none => .error (.unparsable path none)

def load (fs : FileSystem) (path : Path) : Except Error Settings :=
  match fs.readText path with
  | .ok text => parse path (.ofPath path) text
  | .error _ => .error (.inaccessible path)

def render (s : Settings) (format : Format) (existing : Option String) : Except Error String :=
  match format with
  | .yaml => .ok (String.ofList (Yaml.render s.root))
  | .json => .ok (String.ofList (Json.render s.root))
  | .toml =>
    match Toml.render? (existing.getD "").toList s with
    | some cs => .ok (String.ofList cs)
    | none => .error .unserializable

/-- The text that a file already has, where it is to be patched. -/
def existing (fs : FileSystem) (path : Path) : Except Error (Option String) :=
  match Format.ofPath path with
  | .toml =>
    match fs.readText path with
    | .ok text => .ok (some text)
    | .error .missing => .ok none
    | .error _ => .error (.inaccessible path)
  | _ => .ok none

def makeParents (fs : FileSystem) (path : Path) : FileSystem × Except Error Unit :=
  match path.parent? with
  | some parent =>
    if parent.isEmpty then (fs, .ok ())
    else
      match fs.makeDirectories parent with
      | (fs, none) => (fs, .ok ())
      | (fs, some _) => (fs, .error (.inaccessible parent))
  | none => (fs, .ok ())

/-- Writes the store to a file. Directories that were made before a failure stay. -/
def save (s : Settings) (fs : FileSystem) (path : Path) : FileSystem × Except Error Unit :=
  match do s.render (.ofPath path) (← existing fs path) with
  | .error e => (fs, .error e)
  | .ok text =>
    match makeParents fs path with
    | (fs, .error e) => (fs, .error e)
    | (fs, .ok ()) =>
      match fs.writeText path text with
      | .ok fs => (fs, .ok ())
      | .error _ => (fs, .error (.inaccessible path))

end Interview.Settings
