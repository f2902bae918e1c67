import Interview.Answers.Source
import Interview.Files.FileSystem

/-! Replies written ahead of time. A line that starts with the answer prefix holds one, a line that starts
with the separator holds nothing, and other lines are the context of the reply that follows. -/

namespace Interview

structure AnswerFormat where
  answer : String := "answer:"
  separator : String := "====="

structure Script where
  lines : List (List Char)
  format : AnswerFormat
  /-- The lines passed over on the way to the last reply. -/
  context : List String

namespace Script

def ofLines (lines : List (List Char)) (format : AnswerFormat) : Script :=
  ⟨lines.map Text.trim, format, []⟩

def ofFile (fs : FileSystem) (path : Path) (format : AnswerFormat) : Except Error Script :=
  match fs.readText path with
  | .ok text => .ok (ofLines (Text.lines text.toList) format)
  | .error _ => .error (.inaccessible path)

def startsWith (mark : String) (line : List Char) : Bool :=
  (Text.stripPrefix? mark.toList line).isSome

/-- The first reply among some lines, with its context and the lines after it. -/
structure Reading where
  reply : Option String
  context : List String
  rest : List (List Char)

def read (format : AnswerFormat) : List (List Char) → Reading
  | [] => ⟨none, [], []⟩
  | line :: rest =>
    match Text.stripPrefix? format.answer.toList line with
    | some reply => ⟨some (String.ofList (Text.trim reply)), [], rest⟩
    | none =>
      let r := read format rest
      if startsWith format.separator line then r
      else { r with context := String.ofList line :: r.context }

def next (s : Script) : Except Error String × Script :=
  let r := read s.format s.lines
  let s := { s with lines := r.rest, context := r.context }
  match r.reply with
  | some reply => (.ok reply, s)
  | none => (.error .answersExhausted, s)

/-- The lines not read yet, blank ones left out. -/
def remaining (s : Script) : Nat := (s.lines.filter (!·.isEmpty)).length

def source : AnswerSource Script where
  next _ := next
  onInterrupt s := (.ok .abort, s)
  remaining := remaining

end Script
end Interview
