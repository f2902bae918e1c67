import Interview.Pattern.Reader

/-! A regular expression with the text it was written as. -/

namespace Interview

structure Pattern where
  source : String
  expression : Pattern.Expression

namespace Pattern

def compile? (source : String) : Option Pattern :=
  (read? source.toList).map fun e => ⟨source, e⟩

/-- Whether a match starts at the beginning of the text; it may end anywhere. -/
def matchesAtStart (p : Pattern) (text : String) : Bool := p.expression.matchesAtStart text.toList

end Pattern
end Interview
