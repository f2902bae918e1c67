import Interview.Settings.Text

/-! The outcome of an interview beside what was expected of it, leaf by leaf. -/

namespace Interview

structure KeyComparison where
  key : String
  actual : Option Value
  expected : Option Value

def KeyComparison.isMatch (c : KeyComparison) : Bool :=
  match c.actual, c.expected with
  | none, none => true
  | some v, some w => v == w
  | _, _ => false

def sortedUnion (xs ys : List String) : List String :=
  let sorted := (xs ++ ys).mergeSort (fun a b => decide (a ≤ b))
  sorted.eraseReps

abbrev Comparison := List KeyComparison

/-- Every key that is a leaf on either side, with what either side holds there. -/
def Comparison.of (actual expected : Settings) : Comparison :=
  (sortedUnion actual.keys expected.keys).map fun key =>
    ⟨key, actual.get? key, expected.get? key⟩

namespace Comparison

def mismatches (c : Comparison) : List KeyComparison := c.filter (!·.isMatch)

def isMatch (c : Comparison) : Bool := c.mismatches.isEmpty

def shown : Option Value → String
  | some v => v.shown
  | none => "<missing>"

def entryText (e : KeyComparison) : String :=
  "key:      " ++ e.key ++ "\nresult:   " ++ shown e.actual ++ "\nexpected: " ++ shown e.expected ++
    "\n" ++ (if e.isMatch then "" else "  *** mismatch ***\n") ++ "----------\n"

def text (c : Comparison) : String := String.join (c.map entryText)

end Comparison
end Interview
