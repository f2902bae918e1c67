import Interview.Answers.Console
import Interview.CommandLine
import Interview.Comparison
import Interview.Configuration.Load
import Interview.Configuration.Template
import Interview.Session.Opening
import Interview.Session.Run
import Interview.Settings.File

/-! One invocation of the tool: open the document, examine it, run it with scripted or typed answers, then
compare and save the outcome. -/

namespace Interview

inductive Status where
  /-- Nothing was asked. -/
  | done
  /-- All was answered; whether the outcome was as expected, if that was asked. -/
  | completed (answered : Nat) (isMatch : Option Bool)
  | aborted (answered : Nat)
deriving DecidableEq

def Status.isSuccess : Status → Bool
  | .aborted _ => false
  | _ => true

structure World where
  files : FileSystem
  output : Output
  log : List Event

abbrev Action := ExceptT Error (StateM World)

def Configuration.opening (config : Configuration) (store : Settings) : Opening where
  home := config.home
  templates := config.templates
  ceiling := config.maxRestarts
  strict := config.strict
  store := store

namespace Action

def report (events : List Event) : Action Unit := modify fun w => { w with log := w.log ++ events }

def lift (r : Except Error α) : Action α :=
  match r with
  | .ok a => pure a
  | .error e => throw e

def write (text : String) : Action Unit := do
  let w ← get
  let (fits, output) := w.output.put text
  set { w with output }
  unless fits do throw .outputFailed

def writeLine (text : String) : Action Unit := write (text ++ "\n")

def openSession (config : Configuration) (document : Path) (store : Settings) :
    Action Session := do
  let (r, log) := (config.opening store).load (← get).files document
  report log
  let session ← lift r
  return { session with progress := { session.progress with log := [] } }

def startingStore (settings : Option Path) : Action Settings := do
  match settings with
  | none => return .empty
  | some path =>
    let store ← lift (Settings.load (← get).files path)
    report [.resuming path]
    return store

def examine (s : Session) : Action Session := do
  let (r, s) := s.check (← get).files
  report s.progress.log
  lift r
  return { s with progress := { s.progress with log := [] } }

def runWith (patience : Nat) (src : AnswerSource σ) (source : σ) (options : RunOptions)
    (s : Session) : OptionT Action (RunOutcome × Session) := do
  let w ← get
  let (r, state) ← OptionT.mk (pure (s.run w.files patience src source options w.output))
  set { w with output := state.output }
  liftM (report state.session.progress.log)
  let outcome ← liftM (lift r)
  return (outcome, state.session)

/-- Runs the session with scripted answers, or else at the terminal. -/
def runSession (patience : Nat) (config : Configuration) (i : Invocation) (keyboard : Console)
    (s : Session) : OptionT Action (RunOutcome × Session) := do
  let options : RunOptions := ⟨i.verbose, i.quiet⟩
  match i.answers with
  | some path =>
    let script ← liftM (lift (Script.ofFile (← get).files path config.answers))
    runWith patience Script.source script options s
  | none => runWith patience Console.source keyboard options s

def compareWith (results : Option Path) (s : Session) : Action (Option Bool) := do
  match results with
  | none => return none
  | some path =>
    let expected ← lift (Settings.load (← get).files path)
    let c := Comparison.of s.store expected
    write c.text
    return some c.isMatch

def saveTo (output : Option Path) (s : Session) : Action Unit := do
  match output with
  | none => return ()
  | some path =>
    let w ← get
    let (files, r) := s.store.save w.files path
    set { w with files }
    lift r
    report [.written path]

def statusOf (outcome : RunOutcome) (isMatch : Option Bool) : Status :=
  match outcome with
  | .completed answered _ => .completed answered isMatch
  | .aborted answered => .aborted answered

def carryOut (patience : Nat) (config : Configuration) (i : Invocation) (keyboard : Console)
    (document : Path) : OptionT Action Status := do
  let store ← liftM (startingStore i.settings)
  let s ← liftM (openSession config document store)
  let s ← liftM (examine s)
  if i.check then
    liftM (writeLine (document ++ ": ok"))
    return .done
  else
    let (outcome, s) ← runSession patience config i keyboard s
    let isMatch ← liftM (compareWith i.results s)
    liftM (saveTo i.output s)
    return statusOf outcome isMatch

end Action

/-- Carries out an invocation. There is no answer only if a run takes more than the given patience. -/
def Invocation.execute (i : Invocation) (patience : Nat) (config : Configuration)
    (keyboard : Console) (w : World) : Except Error (Option Status) × World :=
  let action : Action (Option Status) :=
    match i.interview with
    | some document =>
      if i.configTemplate then do
        Action.write Configuration.template
        return some .done
      else (Action.carryOut patience config i keyboard document).run
    | none => do
      Action.write Configuration.template
      return some .done
  action.run w

namespace Program

def version : String := "0.1.0"

def versionText : String := "questline " ++ version ++ "\n"

def helpText : String := String.intercalate "\n" [
  "Run a guided interview and collect its settings",
  "",
  "Usage: questline [OPTIONS] [INTERVIEW] [ANSWERS] [RESULTS]",
  "",
  "Arguments:",
  "  [INTERVIEW]  Interview document (YAML; \x60.json\x60 and \x60.toml\x60 by extension)",
  "  [ANSWERS]    Scripted answers file. Without it, answers are typed at the terminal",
  "  [RESULTS]    Expected settings to compare the outcome against",
  "",
  "Options:",
  "  -q, --quiet                Don't print items as they are asked",
  "  -v, --verbose              Print item details and info-level logs",
  "  -o, --output <OUTPUT>      Write the final settings to this file (format by extension)",
  "  -s, --settings <SETTINGS>  Resume from previously saved settings",
  "  -c, --config <CONFIG>      Tool configuration file, layered over the platform one",
  "      --check                Validate the interview document and exit",
  "      --config-template      Print a commented configuration template and exit",
  "  -h, --help                 Print help",
  "  -V, --version              Print version",
  ""]

structure Exit where
  exitCode : Nat
  world : World
  error : Option Error

/-- Whether the run stopped only because nothing more was typed. -/
def Exit.isWaiting (e : Exit) : Bool :=
  match e.error with
  | some (.inaccessible path) => path == Console.device
  | _ => false

def usageText : Usage → Option String
  | .help => some helpText
  | .version => some versionText
  | _ => none

def run (patience : Nat) (arguments : List String) (environment : Configuration.Environment)
    (keyboard : Console) (fs : FileSystem) : Exit :=
  let w : World := ⟨fs, .empty, []⟩
  match CommandLine.parse arguments with
  | .error usage =>
    match usageText usage with
    | some text => ⟨0, { w with output := (w.output.put text).2 }, none⟩
    | none => ⟨1, w, none⟩
  | .ok i =>
    match Configuration.load fs environment i.config with
    | (.error e, log) => ⟨1, { w with log }, some e⟩
    | (.ok config, log) =>
      match i.execute patience config keyboard { w with log } with
      | (.ok (some status), w) => ⟨if status.isSuccess then 0 else 1, w, none⟩
      | (.ok none, w) => ⟨1, w, none⟩
      | (.error e, w) => ⟨1, w, some e⟩

end Program
end Interview
