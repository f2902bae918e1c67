import Interview.Pattern.Basic
import Interview.Range

/-! What the elements of an answer have to satisfy. Of allowed values, pattern and range only the first
that is declared counts. -/

namespace Interview

/-- Equal values, or a text and a scalar of that text. -/
def Value.isSame (allowed given : Value) : Bool :=
  match allowed, given with
  | .str _, .array _ => false
  | .str _, .table _ => false
  | .array _, .str _ => false
  | .table _, .str _ => false
  | .str s, v => s == v.text
  | v, .str s => v.text == s
  | v, w => v == w

/-- Order of two values: numbers by size, texts by their characters, others by their text. -/
def Value.order (v w : Value) : Ordering :=
  match v, w with
  | .str s, .str t => compare s t
  | .int m, .int n => compare m n
  | .int m, .float y => (Number.Binary64.ofInt64 m).order y
  | .float x, .int n => x.order (.ofInt64 n)
  | .float x, .float y => x.order y
  | v, w => compare v.text w.text

def Value.isEmpty : Value → Bool
  | .str s => s.isEmpty
  | .array items => items.isEmpty
  | _ => false

structure Rules where
  required : Bool
  values : Option (List Value)
  pattern : Option Pattern
  range : Option Range

namespace Rules

def checkAllowed (allowed : List Value) (v : Value) : Except Reason Unit :=
  if allowed.any (·.isSame v) then .ok ()
  else .error (.notAllowed v.text (allowed.map Value.text))

def checkPattern (p : Pattern) (v : Value) : Except Reason Unit :=
  if p.matchesAtStart v.text then .ok () else .error (.noMatch v.text p.source)

def checkRange (r : Range) (v : Value) : Except Reason Unit := do
  if ← r.contains v then .ok () else .error (.outOfRange v.text)

def check (r : Rules) (elements : List Value) : Except Reason Unit :=
  if r.required && elements.all Value.isEmpty then .error .valueRequired
  else
    match r.values, r.pattern, r.range with
    | some allowed, _, _ => elements.forM (checkAllowed allowed)
    | none, some p, _ => elements.forM (checkPattern p)
    | none, none, some range => elements.forM (checkRange range)
    | none, none, none => .ok ()

end Rules
end Interview
