import Interview.Document.References
import Interview.Files.Change
import Interview.Program

/-! The program on a real machine: what an invocation may read is gathered first, the invocation is
carried out on that, and what it changed is written back. -/

namespace Interview.Main

/-- Copies the entry at a place without links: a directory with the names in it, or a file. -/
def readEntry (fs : FileSystem) (place : Place) : IO FileSystem := do
  let path ← IO.FS.realPath (FileSystem.placePath place)
  if ← path.isDir then
    let fs := (fs.makeDirectories (FileSystem.placePath place)).1
    (← path.readDir).foldlM (fun fs entry => do
      let inner := place ++ [entry.fileName]
      if (fs.entry? inner).isSome then return fs
      else if ← entry.path.isDir then return fs.put inner (.directory [])
      else return fs.put inner (.file .empty)) fs
  else
    let fs := (fs.makeDirectories (FileSystem.placePath place.dropLast)).1
    return fs.put place (.file (← IO.FS.readBinFile path))

def readAlong (fs : FileSystem) (place : Place) : List String → IO FileSystem
  | [] => readEntry fs place
  | piece :: rest =>
    if piece.isEmpty || piece == "." then readAlong fs place rest
    else if piece == ".." then readAlong fs place.dropLast rest
    else do
      let here := place ++ [piece]
      match ← (IO.FS.realPath (FileSystem.placePath here)).toBaseIO with
      | .error _ => return fs
      | .ok real =>
        if real.toString == FileSystem.placePath here then readAlong fs here rest
        else
          let fs := (fs.makeDirectories (FileSystem.placePath place)).1.put here (.link real.toString)
          readAlong fs ((FileSystem.pieceNames real.toString).filter (!·.isEmpty)) rest

/-- Copies what a path leads to; a path that leads nowhere, or to what cannot be read, adds nothing. -/
def look (fs : FileSystem) (p : Path) : IO FileSystem := do
  match ← (readAlong fs (FileSystem.startOf p fs.working) (FileSystem.pieceNames p)).toBaseIO with
  | .ok fs => return fs
  | .error _ => return fs

def lookAll (fs : FileSystem) (paths : List Path) : IO FileSystem := paths.foldlM look fs

partial def gather (sp : SearchPath) (fs : FileSystem) (seen : List Path) :
    List Path → IO FileSystem
  | [] => return fs
  | p :: rest =>
    if seen.contains p then gather sp fs seen rest
    else do
      let fs ← look fs p
      let named := References.ofFile fs p
      let fs ← lookAll fs (named.data.flatMap sp.candidates)
      gather sp fs (p :: seen) (named.documents.flatMap sp.candidates ++ rest)

def snapshot (environment : Configuration.Environment) (i : Invocation) : IO FileSystem := do
  let working := (FileSystem.pieceNames (← IO.FS.realPath ".").toString).filter (!·.isEmpty)
  let start : FileSystem := ((FileSystem.mk [] []).makeDirectories (FileSystem.placePath working)).1
  let fs : FileSystem := { start with working }
  let fs ← lookAll fs ((Configuration.userFile environment).toList ++ i.config.toList)
  let fs ← lookAll fs (i.answers.toList ++ i.results.toList ++ i.settings.toList ++ i.output.toList)
  match (Configuration.load fs environment i.config).1, i.interview with
  | .ok config, some document =>
    let sp := (config.opening .empty).search
    let fs ← lookAll fs (sp.candidates document)
    let resolved := sp.resolve fs document
    let sp := { sp with home := sp.home <|> Opening.homeOf fs resolved }
    gather sp fs [] [resolved]
  | _, _ => return fs

def variableNames : List String :=
  ["HOME", "XDG_CONFIG_HOME", "QUESTLINE__HOME", "QUESTLINE__TEMPLATES_DIR",
    "QUESTLINE__MAX_RESTARTS", "QUESTLINE__STRICT", "QUESTLINE__ANSWERS__PREFIX",
    "QUESTLINE__ANSWERS__SEPARATOR"]

def readEnvironment : IO Configuration.Environment :=
  variableNames.filterMapM fun name => do
    return (← IO.getEnv name).map fun text => (name, text)

def apply : FileChange → IO Unit
  | .directory path => IO.FS.createDirAll path
  | .file path content => IO.FS.writeBinFile path content

def pressed (control : Bool) (code : KeyCode) : TerminalEvent := .key ⟨code, control, false⟩

/-- The keys of a line as it was read; the end of the input is Ctrl-D. -/
def typed (line : String) : List TerminalEvent :=
  if line.isEmpty then [pressed true (.char 'd')]
  else
    ((line.toList.filter (· != '\n')).map fun c => pressed false (.char c)) ++ [pressed false .enter]

def afterEcho (bytes : ByteArray) : ByteArray :=
  bytes.extract (((bytes.data.toList.takeWhile (· != 10)).length) + 1) bytes.size

/-- Repeats the invocation with one more line each time until it does not wait for another. What was
shown before is not shown again. -/
partial def converse (invoke : Console → Program.Exit) (shown : Nat) (events : List TerminalEvent) :
    IO Program.Exit := do
  let exit := invoke ⟨events, []⟩
  let screen := exit.world.output.screen
  let fresh := screen.extract shown screen.size
  let stdout ← IO.getStdout
  stdout.write (if events.isEmpty then fresh else afterEcho fresh)
  stdout.flush
  let stdin ← IO.getStdin
  if exit.isWaiting && (← stdin.isTty) then
    converse invoke screen.size (events ++ typed (← stdin.getLine))
  else return exit

def patience : Nat := 1000000000

def isLogged (verbose : Bool) (e : Event) : Bool := verbose || e.level == .warning

def run (arguments : List String) (i : Option Invocation) : IO UInt32 := do
  let environment ← readEnvironment
  let fs ←
    match i with
    | some i => snapshot environment i
    | none => pure ⟨[], []⟩
  let exit ← converse (Program.run patience arguments environment · fs) 0 []
  let verbose := (i.map Invocation.verbose).getD false
  for event in exit.world.log do
    if isLogged verbose event then IO.eprintln event.line
  for change in fs.changes exit.world.files do apply change
  if let some e := exit.error then IO.eprintln ("Error: " ++ e.message)
  return exit.exitCode.toUInt32

end Interview.Main

def main (arguments : List String) : IO UInt32 := do
  match Interview.CommandLine.parse arguments with
  | .ok i => Interview.Main.run arguments (some i)
  | .error usage =>
    if (Interview.Program.usageText usage).isNone then
      IO.eprintln "Usage: questline [OPTIONS] [INTERVIEW] [ANSWERS] [RESULTS]"
    Interview.Main.run arguments none
