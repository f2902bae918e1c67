import Interview.Settings.Basic
import Interview.Toml.Literal

/-! Values and stores as text for a reader: strings without quotes, lists in brackets, and a store as
one line for each leaf. -/

namespace Interview

open Number

/-- The text that a value is compared and matched by. -/
def Value.text : Value → String
  | .str s => s
  | .int n => String.ofList (intText n.toInt)
  | .float x => String.ofList (floatText x)
  | .bool b => if b then "true" else "false"
  | v => String.ofList (Toml.valueText v)

mutual

/-- The text that a value is shown by; unlike `Value.text` it shows the elements of a list unquoted. -/
def Value.shown : Value → String
  | .array items => "[" ++ String.intercalate ", " (shownItems items) ++ "]"
  | v => v.text

def shownItems : List Value → List String
  | [] => []
  | v :: vs => v.shown :: shownItems vs

end

def Settings.text (s : Settings) : String :=
  String.intercalate "\n" (s.leaves.map fun (key, v) => key ++ " = " ++ v.shown)

end Interview
