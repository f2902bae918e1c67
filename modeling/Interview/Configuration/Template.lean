import Interview.Configuration.Layer

/-! A template of the configuration file, with every option, what it does and its default. -/

namespace Interview.Configuration

/-- An option as the template shows it: what it does, line by line, and its default, if it has one. -/
structure OptionDoc where
  name : String
  about : List String
  default : Option String

structure SectionDoc where
  name : Option String
  about : List String
  options : List OptionDoc

def comment (text : String) : String := if text.isEmpty then "#" else "# " ++ text

def OptionDoc.lines (o : OptionDoc) : List String :=
  match o.default with
  | none => o.about.map comment ++ ["#" ++ o.name ++ " ="]
  | some text =>
    o.about.map comment ++ ["#", "# Default value: " ++ text, "#" ++ o.name ++ " = " ++ text]

def quoted (text : String) : String := "\"" ++ text ++ "\""

def general : SectionDoc where
  name := none
  about := ["Settings for running interviews."]
  options :=
    let default : Configuration := {}
    [⟨"home", ["Directory that bare file names (includes, data files) are resolved",
        "against. Defaults to the directory of the interview document."], none⟩,
      ⟨"templates_dir", ["Fallback directory for bare file names not found under \x60home\x60."],
        none⟩,
      ⟨"max_restarts", ["Give up after this many consecutive restarts of the walk (0 = never)."],
        some (Nat.repr default.maxRestarts)⟩,
      ⟨"strict", ["Reject interview documents containing fields no item understands."],
        some (if default.strict then "true" else "false")⟩]

def answersSection : SectionDoc where
  name := some "answers"
  about := ["Scripted answers files."]
  options :=
    let default : AnswerFormat := {}
    [⟨"prefix", ["Lines starting with this prefix are answers."], some (quoted default.answer)⟩,
      ⟨"separator", ["Lines starting with this marker are ignored."],
        some (quoted default.separator)⟩]

def blocks (s : SectionDoc) : List (List String) :=
  let options := s.options.map OptionDoc.lines
  match s.name, options with
  | some name, first :: rest => (s.about.map comment ++ ["[" ++ name ++ "]"] ++ first) :: rest
  | _, options => s.about.map comment :: options

def template : String :=
  String.intercalate "\n" (([general, answersSection].flatMap blocks).map fun lines =>
    String.join (lines.map (· ++ "\n")))

end Interview.Configuration
