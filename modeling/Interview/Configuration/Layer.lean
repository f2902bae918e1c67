import Interview.Answers.Script
import Interview.Log
import Interview.Raw

/-! The options of the tool and their layers. A layer sets some options, and a higher one goes before a
lower one option by option. -/

namespace Interview

structure Configuration where
  home : Option Path := none
  templates : Option Path := none
  /-- How often a walk may restart in a row; zero sets no limit. -/
  maxRestarts : Nat := 10000
  strict : Bool := false
  answers : AnswerFormat := {}

namespace Configuration

/-- What one source says about answers: some options by name, or both as a list, which may have more
elements than there are options. -/
inductive AnswerOptions where
  | named (answer separator : Option String)
  | listed (answer separator : String) (hasMore : Bool)

namespace AnswerOptions

/-- Named options go before each other one by one; a list goes before the whole, and so does what is
put over it. -/
def above : AnswerOptions → AnswerOptions → AnswerOptions
  | named answer separator, named answer' separator' =>
    named (answer <|> answer') (separator <|> separator')
  | top, _ => top

def format? : AnswerOptions → Option AnswerFormat
  | named answer separator =>
    let default : AnswerFormat := {}
    some ⟨answer.getD default.answer, separator.getD default.separator⟩
  | listed answer separator false => some ⟨answer, separator⟩
  | listed _ _ true => none

end AnswerOptions

structure Layer where
  home : Option Path := none
  templates : Option Path := none
  maxRestarts : Option Nat := none
  strict : Option Bool := none
  answers : Option AnswerOptions := none

namespace Layer

def answersAbove : Option AnswerOptions → Option AnswerOptions → Option AnswerOptions
  | some top, some base => some (top.above base)
  | some top, none => some top
  | none, base => base

def above (top base : Layer) : Layer where
  home := top.home <|> base.home
  templates := top.templates <|> base.templates
  maxRestarts := top.maxRestarts <|> base.maxRestarts
  strict := top.strict <|> base.strict
  answers := answersAbove top.answers base.answers

def withAnswers (l : Layer) (answer separator : Option String) : Layer :=
  { l with answers := answersAbove (some (.named answer separator)) l.answers }

/-- Options that no layer sets have their defaults. -/
def configuration (l : Layer) : Except Error Configuration :=
  let default : Configuration := {}
  match (l.answers.getD (.named none none)).format? with
  | none => .error .badConfiguration
  | some answers =>
    .ok {
      home := l.home
      templates := l.templates
      maxRestarts := l.maxRestarts.getD default.maxRestarts
      strict := l.strict.getD default.strict
      answers }

end Layer

structure Draft where
  layer : Layer
  unknown : List String

def string? : Raw → Option String
  | .str s => some s
  | _ => none

def count? : Raw → Option Nat
  | .int n => if 0 ≤ n then some n.toNat else none
  | _ => none

def flag? : Raw → Option Bool
  | .bool b => some b
  | _ => none

def answersEntry? (d : Draft) (entry : String × Raw) : Option Draft :=
  match entry with
  | ("prefix", r) => (string? r).map fun s => { d with layer := d.layer.withAnswers (some s) none }
  | ("separator", r) =>
    (string? r).map fun s => { d with layer := d.layer.withAnswers none (some s) }
  | (name, _) => some { d with unknown := d.unknown ++ ["answers." ++ name] }

/-- The section on answers, as a table or as a list of its options in order. -/
def answers? (d : Draft) : Raw → Option Draft
  | .object entries =>
    entries.foldlM answersEntry? { d with layer := d.layer.withAnswers none none }
  | .list (answer :: separator :: more) => do
    let options := AnswerOptions.listed (← string? answer) (← string? separator) !more.isEmpty
    some { d with layer := { d.layer with answers := some options } }
  | _ => none

def entry? (d : Draft) (entry : String × Raw) : Option Draft :=
  match entry with
  | ("home", r) => (string? r).map fun s => { d with layer := { d.layer with home := some s } }
  | ("templates_dir", r) =>
    (string? r).map fun s => { d with layer := { d.layer with templates := some s } }
  | ("max_restarts", r) =>
    (count? r).map fun n => { d with layer := { d.layer with maxRestarts := some n } }
  | ("strict", r) => (flag? r).map fun b => { d with layer := { d.layer with strict := some b } }
  | ("answers", r) => answers? d r
  | (name, _) => some { d with unknown := d.unknown ++ [name] }

def Draft.ofRaw? : Raw → Option Draft
  | .object entries => entries.foldlM entry? ⟨{}, []⟩
  | _ => none

def countLimit : Nat := Nat.pow 2 32

def countText? (text : String) : Option Nat :=
  (Number.unsigned? (Text.trim text.toList)).filter (· < countLimit)

def flagText? (text : String) : Option Bool :=
  let word := String.ofList (Text.lowerAscii (Text.trim text.toList))
  if ["true", "yes", "on", "1"].contains word then some true
  else if ["false", "no", "off", "0"].contains word then some false
  else none

def variableMark : String := "QUESTLINE__"

/-- The layer with one more variable. Variables of other programs are passed over, and one with an
unknown name is only reported. -/
def withVariable (l : Layer) (log : List Event) (name text : String) :
    Except Error (Layer × List Event) :=
  match Text.stripPrefix? variableMark.toList name.toList with
  | none => .ok (l, log)
  | some option =>
    match String.ofList option with
    | "HOME" => .ok ({ l with home := some text }, log)
    | "TEMPLATES_DIR" => .ok ({ l with templates := some text }, log)
    | "MAX_RESTARTS" =>
      match countText? text with
      | some n => .ok ({ l with maxRestarts := some n }, log)
      | none => .error (.invalidValue name (.notCount text))
    | "STRICT" =>
      match flagText? text with
      | some b => .ok ({ l with strict := some b }, log)
      | none => .error (.invalidValue name (.notFlag text))
    | "ANSWERS__PREFIX" => .ok (l.withAnswers (some text) none, log)
    | "ANSWERS__SEPARATOR" => .ok (l.withAnswers none (some text), log)
    | _ => .ok (l, log ++ [.unknownVariable name])

abbrev Environment := List (String × String)

/-- The layer of the environment; what was reported before an error comes with it. -/
def environmentLayer (l : Layer) (log : List Event) : Environment →
    Except Error Layer × List Event
  | [] => (.ok l, log)
  | (name, text) :: rest =>
    match withVariable l log name text with
    | .ok (l, log) => environmentLayer l log rest
    | .error e => (.error e, log)

end Configuration
end Interview
