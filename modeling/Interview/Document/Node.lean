import Interview.Kind
import Interview.Raw

/-! The nodes of a document, and how they are read from data. A field may be absent or `null`, a flag
must be a truth value, and a field that no node has is reported by its place in the data. -/

namespace Interview

structure Node where
  kind : Option String := none
  name : Option String := none
  disabled : Bool := false
  sectionName : Option String := none
  key : Option String := none
  type : Option ValueType := none
  value : Option Value := none
  /-- The setting whose integer value is appended to the key. -/
  parameterize : Option String := none
  default : Option Value := none
  defaultFromFile : Option String := none
  force : Bool := false
  hidden : Bool := false
  multivalue : Bool := false
  range : Option String := none
  regexp : Option String := none
  required : Bool := false
  values : Option (List Value) := none
  valuesFromFile : Option String := none
  valuesFromDirectory : Option String := none
  valuesRegexp : Option String := none
  valuesSort : Option SortOrder := none
  title : Option String := none
  text : Option String := none
  interview : Option (List Node) := none
  matchKey : Option String := none
  matchValues : Option (List Value) := none
  matchNotValues : Option (List Value) := none
  path : Option String := none
  resetKeys : Option (List String) := none
  resetKeyRegexp : Option String := none
deriving Inhabited

namespace Node

/-- The names of the fields, in the order of a node written as a list. -/
def fieldNames : List String :=
  ["kind", "name", "disabled", "section", "key", "type", "value", "parameterize", "default",
    "default_from_file", "force", "hidden", "multivalue", "range", "regexp", "required", "values",
    "values_from_file", "values_from_directory", "values_regexp", "values_sort", "title", "text",
    "interview", "match_key", "match_values", "match_not_values", "path", "reset_keys",
    "reset_key_regexp"]

def matchAlias : String := "match_name"

def isField (name : String) : Bool := fieldNames.contains name || name == matchAlias

def optional (read : Raw → Option α) : Raw → Option (Option α)
  | .null => some none
  | r => (read r).map some

def string? : Raw → Option String
  | .str s => some s
  | _ => none

def flag? : Raw → Option Bool
  | .bool b => some b
  | _ => none

def strings? : Raw → Option (List String)
  | .list items => items.mapM string?
  | _ => none

def values? : Raw → Option (List Value)
  | .list items => Raw.values? items
  | _ => none

/-- A word of a fixed choice, alone or as the only key of a mapping to `null`. -/
def choice? (ofName? : String → Option α) : Raw → Option α
  | .str s => ofName? s
  | .object [(s, .null)] => ofName? s
  | _ => none

/-- The node with one more field read, for the fields that hold no nodes. -/
def withField? (n : Node) (name : String) (r : Raw) : Option Node :=
  match name with
  | "kind" => (optional string? r).map fun v => { n with kind := v }
  | "name" => (optional string? r).map fun v => { n with name := v }
  | "disabled" => (flag? r).map fun v => { n with disabled := v }
  | "section" => (optional string? r).map fun v => { n with sectionName := v }
  | "key" => (optional string? r).map fun v => { n with key := v }
  | "type" => (optional (choice? ValueType.ofName?) r).map fun v => { n with type := v }
  | "value" => (optional Raw.value? r).map fun v => { n with value := v }
  | "parameterize" => (optional string? r).map fun v => { n with parameterize := v }
  | "default" => (optional Raw.value? r).map fun v => { n with default := v }
  | "default_from_file" => (optional string? r).map fun v => { n with defaultFromFile := v }
  | "force" => (flag? r).map fun v => { n with force := v }
  | "hidden" => (flag? r).map fun v => { n with hidden := v }
  | "multivalue" => (flag? r).map fun v => { n with multivalue := v }
  | "range" => (optional string? r).map fun v => { n with range := v }
  | "regexp" => (optional string? r).map fun v => { n with regexp := v }
  | "required" => (flag? r).map fun v => { n with required := v }
  | "values" => (optional values? r).map fun v => { n with values := v }
  | "values_from_file" => (optional string? r).map fun v => { n with valuesFromFile := v }
  | "values_from_directory" => (optional string? r).map fun v => { n with valuesFromDirectory := v }
  | "values_regexp" => (optional string? r).map fun v => { n with valuesRegexp := v }
  | "values_sort" => (optional (choice? SortOrder.ofName?) r).map fun v => { n with valuesSort := v }
  | "title" => (optional string? r).map fun v => { n with title := v }
  | "text" => (optional string? r).map fun v => { n with text := v }
  | "match_key" => (optional string? r).map fun v => { n with matchKey := v }
  | "match_name" => (optional string? r).map fun v => { n with matchKey := v }
  | "match_values" => (optional values? r).map fun v => { n with matchValues := v }
  | "match_not_values" => (optional values? r).map fun v => { n with matchNotValues := v }
  | "path" => (optional string? r).map fun v => { n with path := v }
  | "reset_keys" => (optional strings? r).map fun v => { n with resetKeys := v }
  | "reset_key_regexp" => (optional string? r).map fun v => { n with resetKeyRegexp := v }
  | _ => none

/-- A place in the data: keys and indices, and a question mark where a field may be absent. -/
def step (place part : String) : String := if place.isEmpty then part else place ++ "." ++ part

def children (place field : String) : String := step (step place field) "?"

def hasBothMatchNames (entries : List (String × Raw)) : Bool :=
  (Raw.lookup? "match_key" entries).isSome && (Raw.lookup? matchAlias entries).isSome

structure Draft where
  node : Node
  unknown : List String

mutual

def ofRaw? (place : String) : Raw → Option Draft
  | .object entries => if hasBothMatchNames entries then none else fields? place ⟨{}, []⟩ entries
  | .list items => positional? place 0 fieldNames ⟨{}, []⟩ items
  | _ => none

def fields? (place : String) (draft : Draft) : List (String × Raw) → Option Draft
  | [] => some draft
  | (name, r) :: rest => do
    if name = "interview" then
      let (nodes, unknown) ← optionalNodes? (children place name) r
      fields? place ⟨{ draft.node with interview := nodes }, draft.unknown ++ unknown⟩ rest
    else if isField name then
      let node ← draft.node.withField? name r
      fields? place ⟨node, draft.unknown⟩ rest
    else fields? place ⟨draft.node, draft.unknown ++ [step place name]⟩ rest

/-- The fields of a node written as a list, which holds every field. -/
def positional? (place : String) (index : Nat) (names : List String) (draft : Draft) :
    List Raw → Option Draft
  | [] => if names.isEmpty then some draft else none
  | r :: rest => do
    match names with
    | [] => none
    | name :: names =>
      if name = "interview" then
        let (nodes, unknown) ← optionalNodes? (children place (Nat.repr index)) r
        positional? place (index + 1) names
          ⟨{ draft.node with interview := nodes }, draft.unknown ++ unknown⟩ rest
      else
        let node ← draft.node.withField? name r
        positional? place (index + 1) names ⟨node, draft.unknown⟩ rest

def optionalNodes? (place : String) : Raw → Option (Option (List Node) × List String)
  | .null => some (none, [])
  | .list items => (nodes? place 0 items).map fun (nodes, unknown) => (some nodes, unknown)
  | _ => none

def nodes? (place : String) (index : Nat) : List Raw → Option (List Node × List String)
  | [] => some ([], [])
  | r :: rest => do
    let draft ← ofRaw? (step place (Nat.repr index)) r
    let (nodes, unknown) ← nodes? place (index + 1) rest
    some (draft.node :: nodes, draft.unknown ++ unknown)

end
end Node
end Interview
