import Interview.Coercion
import Interview.Document.Node

/-! The key that a node writes to: its own key, below the node's section where that applies, and with
the value of a counter at its end where the node asks for one. -/

namespace Interview

namespace Node

/-- The section applies only to a key without a dot. -/
def sectionedKey (n : Node) (key : String) : String :=
  match n.sectionName with
  | some s => if key.toList.contains '.' then key else s ++ "." ++ key
  | none => key

/-- The counter's value; a counter that is not there counts as zero. -/
def counter (counterKey : String) (store : Settings) : Except Error Int64 :=
  match store.get? counterKey with
  | none => .ok 0
  | some v =>
    match v.toInteger with
    | .ok n => .ok n
    | .error reason => .error (.invalidValue counterKey reason)

/-- The fully qualified key of a node, or of another key that the node names. -/
def storeKey (n : Node) (kind : Kind) (place : WalkPath) (key : Option String)
    (store : Settings) : Except Error String := do
  let key ←
    match key <|> n.key with
    | some key => .ok key
    | none => .error (.missingField "key" kind place)
  let base := n.sectionedKey key
  match n.parameterize with
  | none => .ok base
  | some counterKey =>
    let count ← counter counterKey store
    .ok (base ++ "." ++ String.ofList (Number.intText count.toInt))

def kindAt (n : Node) (place : WalkPath) : Except Error Kind :=
  match n.kind with
  | none => .error (.missingKind place)
  | some name =>
    match Kind.ofName? name with
    | some kind => .ok kind
    | none => .error (.unknownKind name place)

end Node
end Interview
