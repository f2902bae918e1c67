import Interview.Value

/-! Data as a document format spells it, before it becomes a document or a store: what `null` and
integers beyond 64 bits mean is left to the reader, and a mapping keeps every entry in the order
written, repeated keys included. -/

namespace Interview

inductive Raw where
  | null
  | bool (b : Bool)
  | int (n : Int)
  | float (x : Number.Binary64)
  | str (s : String)
  | list (items : List Raw)
  | object (entries : List (String × Raw))
deriving Inhabited

namespace Raw

/-- The last value of a key wins and goes to the place that sorting gives the key. -/
def insertSorted (key : String) (v : Raw) : List (String × Raw) → List (String × Raw)
  | [] => [(key, v)]
  | (k, w) :: rest =>
    if key = k then (k, v) :: rest
    else if key < k then (key, v) :: (k, w) :: rest
    else (k, w) :: insertSorted key v rest

mutual

/-- Every mapping sorted by key, the last value of a repeated key kept, and infinite floats or
not-a-number absent. -/
def canonical : Raw → Raw
  | .float x => if x.exponentField = 2047 then .null else .float x
  | .list items => .list (canonicalItems items)
  | .object entries => .object (canonicalEntries entries [])
  | r => r

def canonicalItems : List Raw → List Raw
  | [] => []
  | r :: rest => canonical r :: canonicalItems rest

def canonicalEntries : List (String × Raw) → List (String × Raw) → List (String × Raw)
  | [], done => done
  | (k, r) :: rest, done => canonicalEntries rest (insertSorted k (canonical r) done)

end

def lookup? (key : String) : List (String × Raw) → Option Raw
  | [] => none
  | (k, r) :: rest => if k = key then some r else lookup? key rest

mutual

/-- The value that the data stand for. Nothing stands for `null`, a mapping that starts with the
moment's field has no other, and keys are not repeated. -/
def value? : Raw → Option Value
  | .null => none
  | .bool b => some (.bool b)
  | .int n => (Number.toInt64? n).map .int
  | .float x => some (.float x)
  | .str s => some (.str s)
  | .list items => (values? items).map .array
  | .object [] => some (.table [])
  | .object ((k, r) :: rest) =>
    if k = Datetime.field then
      match r, rest with
      | .str s, [] => (Datetime.ofText? s.toList).map .datetime
      | _, _ => none
    else do
      let v ← value? r
      let table ← entries? rest [(k, v)]
      some (.table table)

def values? : List Raw → Option (List Value)
  | [] => some []
  | r :: rest => do
    let v ← value? r
    let vs ← values? rest
    some (v :: vs)

def entries? : List (String × Raw) → Table → Option Table
  | [], t => some t
  | (k, r) :: rest, t => do
    if (t.get? k).isSome then none
    else
      let v ← value? r
      entries? rest (t.insert k v)

end

/-- The root table of a store, where the last value of a repeated key wins. -/
def rootEntries? : List (String × Raw) → Table → Option Table
  | [], t => some t
  | (k, r) :: rest, t => do
    let v ← value? r
    rootEntries? rest (t.insert k v)

mutual

def ofValue : Value → Raw
  | .str s => .str s
  | .int n => .int n.toInt
  | .float x => .float x
  | .bool b => .bool b
  | .datetime d => .object [(Datetime.field, .str (String.ofList d.text))]
  | .array items => .list (ofItems items)
  | .table entries => .object (ofEntries entries)

def ofItems : List Value → List Raw
  | [] => []
  | v :: vs => ofValue v :: ofItems vs

def ofEntries : List (String × Value) → List (String × Raw)
  | [] => []
  | (k, v) :: rest => (k, ofValue v) :: ofEntries rest

end

def table? : Raw → Option Table
  | .object entries => rootEntries? entries []
  | _ => none

end Raw
end Interview
