import Interview.Answers.LineEditor
import Interview.Answers.Source

/-! Replies typed at a terminal. Prompts and echo go to the terminal alone. -/

namespace Interview

inductive TerminalEvent where
  | key (k : KeyPress)
  /-- Anything that is not a key, such as a change of focus. -/
  | other

/-- What is still to be typed, and what was written to the terminal. Where no more events come, as on a
terminal without a keyboard, reading fails. -/
structure Console where
  events : List TerminalEvent
  written : List Char

namespace Console

def device : Path := "<console>"

def lineEnd : List Char := ['\r', '\n']

structure LineResult where
  line : Except Error String
  printed : List Char
  rest : List TerminalEvent

def edit (e : LineEditor) : List TerminalEvent → LineResult
  | [] => ⟨.error (.inaccessible device), [], []⟩
  | .other :: rest => edit e rest
  | .key k :: rest =>
    match e.feed k with
    | (.echo text, e) =>
      let r := edit e rest
      { r with printed := text ++ r.printed }
    | (.submit, e) => ⟨.ok (String.ofList (Text.trim e.line)), lineEnd, rest⟩
    | (.interrupt, _) => ⟨.error .interrupted, lineEnd, rest⟩
    | (.endOfInput, _) => ⟨.error .answersExhausted, lineEnd, rest⟩

def ask (c : Console) (prompt : List Char) (masked : Bool) : Except Error String × Console :=
  let r := edit (.start masked) c.events
  (r.line, { events := r.rest, written := c.written ++ prompt ++ r.printed })

/-- The prompt shows the default, except that of a hidden item. -/
def prompt (item : Item) : String :=
  if item.isHidden then "answer: "
  else "answer [" ++ ((item.node.default.map Value.shown).getD "") ++ "]: "

def next (item : Item) (c : Console) : Except Error String × Console :=
  c.ask (prompt item).toList item.isHidden

def interruptPrompt : String := "CTRL-C to exit, ENTER to print settings"

def onInterrupt (c : Console) : Except Error InterruptChoice × Console :=
  let (r, c) := c.ask interruptPrompt.toList true
  (r.map fun _ => .inspect, c)

def source : AnswerSource Console where
  next := next
  onInterrupt := onInterrupt
  remaining _ := 0
  written c := c.written

end Console
end Interview
