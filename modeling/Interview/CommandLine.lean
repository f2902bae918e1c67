import Interview.Error
import Interview.Text.Blank

/-! The command line: flags, options with a value, and up to three positional paths. A value is settled
only when the next option or position begins, and so are its faults. -/

namespace Interview

structure Invocation where
  interview : Option Path := none
  answers : Option Path := none
  results : Option Path := none
  quiet : Bool := false
  verbose : Bool := false
  output : Option Path := none
  settings : Option Path := none
  config : Option Path := none
  check : Bool := false
  configTemplate : Bool := false

inductive Usage where
  | missingRequired
  | unknownArgument
  | invalidValue
  | tooManyValues
  | conflict
  | help
  | version
deriving DecidableEq

namespace CommandLine

inductive Flag where
  | quiet
  | verbose
  | check
  | configTemplate
  | help
  | version
deriving DecidableEq

inductive Parameter where
  | output
  | settings
  | config
  | interview
  | answers
  | results
deriving DecidableEq

inductive Switch where
  | flag (f : Flag)
  | parameter (p : Parameter)

def long? (name : String) : Option Switch :=
  match name with
  | "quiet" => some (.flag .quiet)
  | "verbose" => some (.flag .verbose)
  | "check" => some (.flag .check)
  | "config-template" => some (.flag .configTemplate)
  | "help" => some (.flag .help)
  | "version" => some (.flag .version)
  | "output" => some (.parameter .output)
  | "settings" => some (.parameter .settings)
  | "config" => some (.parameter .config)
  | _ => none

def short? : Char → Option Switch
  | 'q' => some (.flag .quiet)
  | 'v' => some (.flag .verbose)
  | 'h' => some (.flag .help)
  | 'V' => some (.flag .version)
  | 'o' => some (.parameter .output)
  | 's' => some (.parameter .settings)
  | 'c' => some (.parameter .config)
  | _ => none

/-- What was read so far. A parameter may be pending, with or without its value. -/
structure Reading where
  invocation : Invocation
  pending : Option (Parameter × Option String)
  positions : Nat
  trailing : Bool

def Reading.start : Reading := ⟨{}, none, 0, false⟩

def parameterOf (i : Invocation) : Parameter → Option Path
  | .output => i.output
  | .settings => i.settings
  | .config => i.config
  | .interview => i.interview
  | .answers => i.answers
  | .results => i.results

def withParameter (i : Invocation) (value : Path) : Parameter → Invocation
  | .output => { i with output := some value }
  | .settings => { i with settings := some value }
  | .config => { i with config := some value }
  | .interview => { i with interview := some value }
  | .answers => { i with answers := some value }
  | .results => { i with results := some value }

/-- Takes over a value; a parameter is given at most once, and not as the empty text. -/
def assign (i : Invocation) (p : Parameter) (value : Option String) : Except Usage Invocation :=
  match value with
  | none => .error .invalidValue
  | some value =>
    if (parameterOf i p).isSome then .error .conflict
    else if value.isEmpty then .error .invalidValue
    else .ok (withParameter i value p)

def settle (r : Reading) : Except Usage Reading :=
  match r.pending with
  | none => .ok r
  | some (p, value) =>
    (assign r.invocation p value).map fun invocation => { r with invocation, pending := none }

def once (given : Bool) (i : Invocation) : Except Usage Invocation :=
  if given then .error .conflict else .ok i

def raise (i : Invocation) : Flag → Except Usage Invocation
  | .quiet => once i.quiet { i with quiet := true }
  | .verbose => once i.verbose { i with verbose := true }
  | .check => once i.check { i with check := true }
  | .configTemplate => once i.configTemplate { i with configTemplate := true }
  | .help => .error .help
  | .version => .error .version

def addFlag (r : Reading) (f : Flag) : Except Usage Reading := do
  let r ← settle r
  let invocation ← raise r.invocation f
  .ok { r with invocation }

def addValue (r : Reading) (p : Parameter) (value : String) : Except Usage Reading := do
  let r ← settle r
  let invocation ← assign r.invocation p (some value)
  .ok { r with invocation }

def await (r : Reading) (p : Parameter) : Except Usage Reading := do
  let r ← settle r
  .ok { r with pending := some (p, none) }

/-- An argument after two hyphens, with what follows an equals sign. -/
def addLong (r : Reading) (cs : List Char) : Except Usage Reading :=
  let (name, attached) :=
    match Text.cutOnce '=' cs with
    | some (name, value) => (name, some (String.ofList value))
    | none => (cs, none)
  match long? (String.ofList name), attached with
  | none, _ => .error .unknownArgument
  | some (.flag f), none => addFlag r f
  | some (.flag _), some _ => .error .tooManyValues
  | some (.parameter p), some value => addValue r p value
  | some (.parameter p), none => await r p

/-- The letters after one hyphen: flags, and at most one parameter with the rest as its value. -/
def addShort (r : Reading) : List Char → Except Usage Reading
  | [] => .ok r
  | c :: rest =>
    match short? c with
    | none => .error .unknownArgument
    | some (.flag f) => do addShort (← addFlag r f) rest
    | some (.parameter p) =>
      match rest with
      | [] => await r p
      | '=' :: value => addValue r p (String.ofList value)
      | value => addValue r p (String.ofList value)

def position? : Nat → Option Parameter
  | 0 => some .interview
  | 1 => some .answers
  | 2 => some .results
  | _ => none

def addPosition (r : Reading) (value : String) : Except Usage Reading :=
  match position? r.positions with
  | none => .error .unknownArgument
  | some p => do
    let r ← settle r
    .ok { r with pending := some (p, some value), positions := r.positions + 1 }

/-- An argument that is no switch: the value that a parameter waits for, or a position. -/
def addPlain (r : Reading) (value : String) : Except Usage Reading :=
  match r.pending with
  | some (p, none) => .ok { r with pending := some (p, some value) }
  | _ => addPosition r value

def add (r : Reading) (argument : String) : Except Usage Reading :=
  if r.trailing then addPosition r argument
  else
    match argument.toList with
    | ['-', '-'] => .ok { r with trailing := true }
    | '-' :: '-' :: cs => addLong r cs
    | ['-'] => addPlain r argument
    | '-' :: cs => addShort r cs
    | _ => addPlain r argument

/-- An invocation needs a document unless it only asks for the template. -/
def complete (i : Invocation) : Except Usage Invocation :=
  if i.interview.isNone && !i.configTemplate then .error .missingRequired else .ok i

def parse (arguments : List String) : Except Usage Invocation := do
  let r ← arguments.foldlM add .start
  complete (← settle r).invocation

end CommandLine
end Interview
