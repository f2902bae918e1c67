import Interview.Files.SearchPath
import Interview.Item.Key
import Interview.Rules

/-! Items: nodes that may write a value, with everything they take from files resolved and their rules
compiled. Answers reach the store through `Item.write` alone. -/

namespace Interview

structure Item where
  place : WalkPath
  kind : Kind
  key : String
  node : Node
  range : Option Range
  pattern : Option Pattern

def compilePattern (source : String) : Except Error Pattern :=
  match Pattern.compile? source with
  | some p => .ok p
  | none => .error (.invalidPattern source)

namespace Item

/-- A line end at the end of a text does not belong to a default read from a file. -/
def withoutLineEnd (cs : List Char) : List Char :=
  match cs.reverse with
  | '\n' :: '\r' :: before => before.reverse
  | '\n' :: before => before.reverse
  | _ => cs

def resolveDefault (sp : SearchPath) (fs : FileSystem) (n : Node) : Except Error (Option Value) :=
  match n.defaultFromFile with
  | some path =>
    (sp.readText fs path).map fun text => some (.str (String.ofList (withoutLineEnd text.toList)))
  | none => .ok n.default

def texts (names : List String) : List Value := names.map .str

def nonEmptyLines (text : String) : List String :=
  ((Text.lines text.toList).filter (!·.isEmpty)).map String.ofList

/-- The values that a node offers, before they are filtered: those of a file, else those of a
directory, else its own. A directory is read even where a file has the last word. -/
def offered (sp : SearchPath) (fs : FileSystem) (n : Node) (bad : Reason → Error) :
    Except Error (Option (List Value)) := do
  let listed ←
    match n.valuesFromDirectory with
    | some text =>
      match Listing.parse text with
      | .ok listing => (sp.list fs listing).map fun names => some (texts names)
      | .error reason => .error (bad reason)
    | none => .ok n.values
  match n.valuesFromFile with
  | some path => (sp.readText fs path).map fun text => some (texts (nonEmptyLines text))
  | none => .ok listed

def filterBy (source : Option String) (values : List Value) : Except Error (List Value) :=
  match source with
  | some source => (compilePattern source).map fun p => values.filter fun v => p.matchesAtStart v.text
  | none => .ok values

/-- Offered values take the declared type, if it is that of a number or a text. -/
def typed (type : Option ValueType) (values : List Value) : Except Reason (List Value) :=
  match type with
  | some .int => values.mapM (Value.coerceScalar .int)
  | some .float => values.mapM (Value.coerceScalar .float)
  | some .str => values.mapM (Value.coerceScalar .str)
  | _ => .ok values

/-- Puts a value in its place at the end of a sorted list, given in reverse: it moves towards the front
as long as it comes before its neighbour. -/
def insertBack (precedes : Value → Value → Bool) (v : Value) : List Value → List Value
  | [] => [v]
  | w :: rest => if precedes v w then w :: insertBack precedes v rest else v :: w :: rest

def insertionSort (precedes : Value → Value → Bool) (values : List Value) : List Value :=
  (values.foldl (fun sorted v => insertBack precedes v sorted) []).reverse

def sorted (order : Option SortOrder) (values : List Value) : List Value :=
  match order with
  | some .asc => insertionSort (fun v w => v.order w == .lt) values
  | some .desc => insertionSort (fun v w => w.order v == .lt) values
  | none => values

def resolveValues (n : Node) (bad : Reason → Error) (values : List Value) :
    Except Error (List Value) := do
  let kept ← filterBy n.valuesRegexp values
  match typed n.type kept with
  | .ok values => .ok (sorted n.valuesSort values)
  | .error reason => .error (bad (.allowedValues reason))

def resolveRange (n : Node) (bad : Reason → Error) : Except Error (Option Range) :=
  match n.range with
  | none => .ok none
  | some spec =>
    match Range.parse n.type spec with
    | .ok r => .ok (some r)
    | .error reason => .error (bad reason)

def resolvePattern (n : Node) : Except Error (Option Pattern) :=
  match n.regexp with
  | none => .ok none
  | some source => (compilePattern source).map some

/-- Binds a node to its place and reads what it takes from files. -/
def resolve (sp : SearchPath) (fs : FileSystem) (n : Node) (kind : Kind) (place : WalkPath)
    (store : Settings) : Except Error Item := do
  let key ← n.storeKey kind place none store
  let bad := Error.badItem kind place
  let default ← resolveDefault sp fs n
  let values ←
    match ← offered sp fs n bad with
    | some values => (resolveValues n bad values).map some
    | none => .ok none
  let range ← resolveRange n bad
  let pattern ← resolvePattern n
  .ok { place, kind, key, node := { n with default, values }, range, pattern }

def isHidden (item : Item) : Bool := item.node.hidden

def rules (item : Item) : Rules where
  required := item.node.required
  values := item.node.values
  pattern := item.pattern
  range := item.range

/-- The value that counts: a notice stores its default, and a default stands in for a blank. -/
def chosen (item : Item) (given : Option Value) : Except Error Value := do
  let given ←
    if item.kind = .notice then
      match item.node.default with
      | some default => .ok (some default)
      | none => .error (.missingDefault item.key)
    else .ok given
  match given, item.node.default with
  | some v, none => .ok v
  | some v, some default => .ok (if Value.isBlank (some v) then default else v)
  | none, some default => .ok default
  | none, none => .error (.invalidValue item.key .noValue)

def elements (item : Item) : Value → Except Reason (List Value)
  | .array items => if item.node.multivalue then .ok items else .error (.manyValues items.length)
  | v => .ok [v]

def accept (item : Item) (given : Option Value) : Except Error Value := do
  let chosen ← item.chosen given
  let judged := do
    let v ← chosen.coerce item.node.type
    item.rules.check (← item.elements v)
    .ok v
  match judged with
  | .ok v => .ok v
  | .error reason => .error (.invalidValue item.key reason)

/-- Stores an answer under the item's key, in place: what was stored, and the store as it is then. -/
def write (item : Item) (store : Settings) (given : Option Value) : Except Error Value × Settings :=
  match item.accept given with
  | .error e => (.error e, store)
  | .ok v =>
    match store.write item.key v with
    | (.ok (), store) => (.ok v, store)
    | (.error e, store) => (.error e, store)

def set (item : Item) (store : Settings) (given : Option Value) : Except Error (Value × Settings) :=
  match item.write store given with
  | (.ok v, store) => .ok (v, store)
  | (.error e, _) => .error e

end Item
end Interview
