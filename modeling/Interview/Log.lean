import Interview.Error

/-! What a session reports about its work as it goes. -/

namespace Interview

inductive Event where
  | loaded (items : Nat) (path : Path)
  | unknownField (field : String)
  | unknownIncludedField (path : Path) (field : String)
  | included (path : Path) (items : Nat) (place : WalkPath)
  | deleted (place : WalkPath) (keys : List String)
  | checked (items includes : Nat)
  | interruptedAt (place : WalkPath)
  | unusedAnswers (count : Nat)
  | unknownVariable (name : String)
  | resuming (path : Path)
  | written (path : Path)
deriving DecidableEq

inductive Level where
  | info
  | warning
deriving DecidableEq

def Level.name : Level → String
  | .info => "INFO"
  | .warning => "WARN"

namespace Event

def level : Event → Level
  | unknownField _ | unknownIncludedField _ _ | interruptedAt _ | unknownVariable _ => .warning
  | _ => .info

def text : Event → String
  | loaded items path => s!"Loaded {items} items from {path}"
  | unknownField field => s!"Unknown field in interview document: {field}"
  | unknownIncludedField path field => s!"Unknown field in {path}: {field}"
  | included path items place => s!"Included {path} ({items} items) at {place.text}"
  | deleted place keys => "Reset at " ++ place.text ++ " deleted " ++ String.intercalate ", " keys
  | checked items includes => s!"Check passed ({items} items, {includes} includes)"
  | interruptedAt place => s!"Interview interrupted at {place.text}"
  | unusedAnswers count => s!"{count} answers were not used"
  | unknownVariable name => s!"Ignoring unknown environment variable {name}"
  | resuming path => s!"Resuming from {path}"
  | written path => s!"Settings written to {path}"

def line (e : Event) : String := e.level.name ++ " " ++ e.text

end Event
end Interview
