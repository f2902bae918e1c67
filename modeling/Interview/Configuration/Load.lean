import Interview.Configuration.Layer
import Interview.Toml.Reader

/-! Loading the configuration: the defaults, the user's file, a file given explicitly, and the
environment, each over those before it. -/

namespace Interview.Configuration

/-- The layer of one file. Options that are not known are errors, but only in a file that is otherwise
well formed. -/
def fileLayer (path : Path) (text : String) : Except Error Layer :=
  match (Toml.read? text.toList).bind fun l => Draft.ofRaw? l.raw with
  | none => .error (.unparsable path none)
  | some d =>
    if d.unknown.isEmpty then .ok d.layer
    else .error (.unknownFields (d.unknown.map fun name => path ++ ": " ++ name))

def filesLayer (files : List (Path × String)) : Except Error Layer :=
  files.foldlM (fun base (path, text) => (fileLayer path text).map fun top => top.above base) {}

def resolve (files : List (Path × String)) (environment : Environment) :
    Except Error Configuration × List Event :=
  match filesLayer files with
  | .error e => (.error e, [])
  | .ok base =>
    match environmentLayer {} [] environment with
    | (.error e, log) => (.error e, log)
    | (.ok top, log) => ((top.above base).configuration, log)

/-- The directory where the user's programs keep their settings. -/
def userDirectory (environment : Environment) : Option Path :=
  match environment.lookup "XDG_CONFIG_HOME" with
  | some path =>
    if Path.isAbsolute path then some path else home
  | none => home
where
  home : Option Path :=
    match environment.lookup "HOME" with
    | some home => if home.isEmpty then none else some (Path.below home ".config")
    | none => none

def userFile (environment : Environment) : Option Path :=
  (userDirectory environment).map fun directory =>
    Path.below (Path.below directory "questline") "questline.toml"

def readFile (fs : FileSystem) (path : Path) : Except Error (Path × String) :=
  match fs.readText path with
  | .ok text => .ok (path, text)
  | .error _ => .error (.inaccessible path)

/-- The user's file counts where there is one; an explicit file has to be there. -/
def readFiles (fs : FileSystem) (environment : Environment) (explicit : Option Path) :
    Except Error (List (Path × String)) := do
  let user ←
    match userFile environment with
    | some path => if fs.isFile path then (readFile fs path).map ([·]) else .ok []
    | none => .ok []
  let given ←
    match explicit with
    | some path => (readFile fs path).map ([·])
    | none => .ok []
  .ok (user ++ given)

def load (fs : FileSystem) (environment : Environment) (explicit : Option Path) :
    Except Error Configuration × List Event :=
  match readFiles fs environment explicit with
  | .ok files => resolve files environment
  | .error e => (.error e, [])

end Interview.Configuration
