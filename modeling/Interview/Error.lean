import Interview.Kind

/-! Everything that can go wrong, by cause. A `Reason` says why a value or a node was refused, and an
`Error` adds where; their texts are written in one place each. -/

namespace Interview

abbrev Path := String

inductive Reason where
  | emptySegment
  | noValue
  | manyValues (count : Nat)
  | valueRequired
  | notAllowed (text : String) (choices : List String)
  | noMatch (text pattern : String)
  | outOfRange (text : String)
  | notInteger (text : String)
  | beyondInteger (text : String)
  | notNumber (text : String)
  | mismatch (type : ValueType) (text : String)
  | tableForList
  | counterOverflow
  | rangeForm (spec : String)
  | zeroStep (spec : String)
  | selectorForm (text : String)
  | selectorName (name : String)
  | allowedValues (reason : Reason)
  | noTargets
  | notCount (text : String)
  | notFlag (text : String)

def Reason.text : Reason → String
  | emptySegment => "key has an empty segment"
  | noValue => "no value given and no default"
  | manyValues count => s!"{count} values given for a single-valued item"
  | valueRequired => "a value is required"
  | notAllowed text choices =>
    "'" ++ text ++ "' is not one of: " ++ String.intercalate ", " choices
  | noMatch text pattern => "'" ++ text ++ "' does not match '" ++ pattern ++ "'"
  | outOfRange text => "'" ++ text ++ "' is out of range"
  | notInteger text => "'" ++ text ++ "' is not an integer"
  | beyondInteger text => text ++ " is out of range for an integer"
  | notNumber text => "'" ++ text ++ "' is not a number"
  | mismatch type text => "expected " ++ type.name ++ ", got '" ++ text ++ "'"
  | tableForList => "expected a list, got a table"
  | counterOverflow => "counter overflow"
  | rangeForm spec => "range '" ++ spec ++ "' is not of the form 'lo-hi[:step]'"
  | zeroStep spec => "range '" ++ spec ++ "' has a zero step"
  | selectorForm text => "expected '<dir|file|dir+file>:<path>', got '" ++ text ++ "'"
  | selectorName name => "unknown directory selector '" ++ name ++ "'"
  | allowedValues reason => "allowed values: " ++ reason.text
  | noTargets => "needs 'reset_keys' or 'reset_key_regexp'"
  | notCount text => "'" ++ text ++ "' is not a count"
  | notFlag text => "'" ++ text ++ "' is not true or false"

inductive Error where
  /-- Writing below a key that already holds a value. -/
  | conflict (key parent : String)
  | keyNotFound (key : String)
  | invalidValue (key : String) (reason : Reason)
  | missingDefault (key : String)
  | missingKind (place : WalkPath)
  | unknownKind (kind : String) (place : WalkPath)
  | missingField (field : String) (kind : Kind) (place : WalkPath)
  | includeNotFound (path : Path) (place : WalkPath)
  | includeCycle (path : Path) (place : WalkPath)
  | badItem (kind : Kind) (place : WalkPath) (reason : Reason)
  | invalidPattern (pattern : String)
  | unknownFields (fields : List String)
  /-- The text of a file is not well formed, or stands for a lone scalar. -/
  | unparsable (path : Path) (scalar : Option String)
  | inaccessible (path : Path)
  | outputFailed
  | unserializable
  | badConfiguration
  | restartLimit (limit : Nat) (place : WalkPath)
  | answersExhausted
  | interrupted

def Error.message : Error → String
  | conflict key parent => "Cannot set '" ++ key ++ "': '" ++ parent ++ "' already holds a value"
  | keyNotFound key => "Key not found: " ++ key
  | invalidValue key reason => "Invalid value for '" ++ key ++ "': " ++ reason.text
  | missingDefault key => "Notice '" ++ key ++ "' requires a default"
  | missingKind place => "Item at " ++ place.text ++ " has no kind"
  | unknownKind kind place => "Unknown kind '" ++ kind ++ "' at " ++ place.text
  | missingField field kind place =>
    "'" ++ field ++ "' missing for " ++ kind.name ++ " item at " ++ place.text
  | includeNotFound path place => "File not found for include item at " ++ place.text ++ ": " ++ path
  | includeCycle path place =>
    "Include cycle at " ++ place.text ++ ": " ++ path ++ " is already being included"
  | badItem kind place reason =>
    "Bad " ++ kind.name ++ " item at " ++ place.text ++ ": " ++ reason.text
  | invalidPattern pattern => "Invalid regular expression '" ++ pattern ++ "'"
  | unknownFields fields =>
    "Unknown fields in interview document: " ++ String.intercalate ", " fields
  | unparsable path none => "Failed to parse " ++ path
  | unparsable path (some scalar) =>
    "Failed to parse " ++ path ++ ": expected a list of items, found " ++ scalar
  | inaccessible path => "Failed to read " ++ path
  | outputFailed => "Failed to write output"
  | unserializable => "Failed to serialize settings"
  | badConfiguration => "Invalid value for '<config>'"
  | restartLimit limit place =>
    s!"Interview did not settle after {limit} restarts (last change at {place.text})"
  | answersExhausted => "Not enough answers for interview"
  | interrupted => "Interrupted"

end Interview
