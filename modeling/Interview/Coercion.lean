import Interview.Error
import Interview.Settings.Text

/-! From what was given to the declared type of an item: readings of a value as an integer or a float,
truth words, and lists cut from text. -/

namespace Interview

open Number

namespace Value

/-- Nothing and the empty text both mean that no answer was given. -/
def isBlank : Option Value → Bool
  | none => true
  | some (.str s) => s.isEmpty
  | some _ => false

def toInteger : Value → Except Reason Int64
  | .int n => .ok n
  | .float x =>
    match x.toInt? with
    | some n =>
      match toInt64? n with
      | some n => .ok n
      | none => .error (.beyondInteger (Value.float x).text)
    | none => .error (.notInteger (Value.float x).text)
  | .str s =>
    match int64? (Text.trim s.toList) with
    | some n => .ok n
    | none => .error (.notInteger s)
  | v => .error (.notInteger v.text)

def toFloat : Value → Except Reason Binary64
  | .float x => .ok x
  | .int n => .ok (.ofInt64 n)
  | .str s =>
    match float? (Text.trim s.toList) with
    | some x => .ok x
    | none => .error (.notNumber s)
  | v => .error (.notNumber v.text)

def truthWord? (s : String) : Option Bool :=
  let word := String.ofList (Text.lowerAscii (Text.trim s.toList))
  if ["true", "yes", "on", "1"].contains word then some true
  else if ["false", "no", "off", "0", ""].contains word then some false
  else none

/-- A single value as one of the declared type. A list type takes a single value as it is. -/
def coerceScalar (type : ValueType) (v : Value) : Except Reason Value :=
  let mismatch : Except Reason Value := .error (.mismatch type v.text)
  match type, v with
  | .bool, .bool b => .ok (.bool b)
  | .bool, .int n => .ok (.bool (n != 0))
  | .bool, .str s =>
    match truthWord? s with
    | some b => .ok (.bool b)
    | none => mismatch
  | .bool, _ => mismatch
  | .int, v =>
    match v.toInteger with
    | .ok n => .ok (.int n)
    | .error _ => mismatch
  | .float, .float x => .ok (.float x)
  | .float, .int n => .ok (.float (.ofInt64 n))
  | .float, .str s =>
    match float? (Text.trim s.toList) with
    | some x => .ok (.float x)
    | none => mismatch
  | .float, _ => mismatch
  | .str, .array _ => mismatch
  | .str, .table _ => mismatch
  | .str, v => .ok (.str v.text)
  | .csv, v => .ok v
  | .ssv, v => .ok v

/-- A list as it is, or a single value cut into one. -/
def split (cut : List Char → List (List Char)) : Value → Except Reason Value
  | .array items => .ok (.array items)
  | .table _ => .error .tableForList
  | v => .ok (.array ((cut v.text.toList).map fun piece => .str (String.ofList piece)))

/-- A value, or each element of a list, as one of the declared type. -/
def coerce (type : Option ValueType) (v : Value) : Except Reason Value :=
  match type with
  | none => .ok v
  | some .csv => v.split (Text.cut ',')
  | some .ssv => v.split Text.words
  | some type =>
    match v with
    | .array items => (items.mapM (coerceScalar type)).map .array
    | v => coerceScalar type v

end Value
end Interview
