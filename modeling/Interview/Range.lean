import Interview.Coercion

/-! Ranges of numbers, `lo-hi[:step]`: both bounds belong to the range, and its members are whole steps
away from the lower one. -/

namespace Interview

open Number

inductive Range where
  | int (low high step : Int64)
  | float (low high step : Binary64)

namespace Range

/-- The three parts of the text; the first character is never the separator, as it may be the sign
of the lower bound. -/
structure Parts where
  low : List Char
  high : List Char
  step : Option (List Char)

def parts? : List Char → Option Parts
  | [] => none
  | first :: rest =>
    (Text.cutOnce '-' rest).map fun (before, after) =>
      let low := Text.trim (first :: before)
      match Text.cutOnce ':' after with
      | some (high, step) =>
        let step := Text.trim step
        ⟨low, Text.trim high, if step.isEmpty then none else some step⟩
      | none => ⟨low, Text.trim after, none⟩

def one : Binary64 := .ofInt64 1

def Parts.int? (p : Parts) : Option Range := do
  let low ← int64? p.low
  let high ← int64? p.high
  let step ← match p.step with
    | some cs => int64? cs
    | none => some 1
  some (.int low high step)

def Parts.float? (p : Parts) : Option Range := do
  let low ← Number.float? p.low
  let high ← Number.float? p.high
  let step ← match p.step with
    | some cs => Number.float? cs
    | none => some one
  some (.float low high step)

def hasZeroStep : Range → Bool
  | .int _ _ step => step == 0
  | .float _ _ step => step.isZero

/-- A range of floats for items of that type; else of integers, or of floats where the parts are no
integers. -/
def parse (type : Option ValueType) (spec : String) : Except Reason Range :=
  let cs := Text.trim spec.toList
  let range? := (parts? cs).bind fun p =>
    if type = some .float then p.float? else p.int? <|> p.float?
  match range? with
  | none => .error (.rangeForm (String.ofList cs))
  | some r => if r.hasZeroStep then .error (.zeroStep (String.ofList cs)) else .ok r

def minus (x y : Binary64) : Binary64 := .ofFloat (x.toFloat - y.toFloat)

def contains (v : Value) : Range → Except Reason Bool
  | .int low high step =>
    v.toInteger.map fun n =>
      low ≤ n && n ≤ high && (n.toInt - low.toInt) % step.toInt == 0
  | .float low high step =>
    v.toFloat.map fun x => low.le x && x.le high && (minus x low).isMultipleOf step

end Range
end Interview
