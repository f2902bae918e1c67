/-! The vocabulary of a document: kinds of nodes, declared types, sort orders, and the place of a node
in the tree. -/

namespace Interview

inductive Kind where
  /-- Nested nodes, entered on a condition. -/
  | branch
  /-- Stands for the nodes of another document. -/
  | inclusion
  /-- Shows text and stores its default once acknowledged. -/
  | notice
  /-- Asks for a value. -/
  | question
  /-- Deletes settings, and may set one afterwards. -/
  | reset
  /-- Stores a value without asking. -/
  | set
  /-- Adds to an integer setting. -/
  | update
deriving DecidableEq

namespace Kind

def all : List Kind := [branch, inclusion, notice, question, reset, set, update]

def name : Kind → String
  | branch => "branch"
  | inclusion => "include"
  | notice => "notice"
  | question => "question"
  | reset => "reset"
  | set => "set"
  | update => "update"

def ofName? (s : String) : Option Kind := all.find? (·.name == s)

def isInteractive : Kind → Bool
  | notice | question => true
  | _ => false

theorem ofName?_name (k : Kind) : ofName? k.name = some k := by
  cases k <;> simp [ofName?, all, name]

end Kind

inductive ValueType where
  | bool
  /-- A list cut at commas. -/
  | csv
  | float
  | int
  | str
  /-- A list cut at blanks. -/
  | ssv
deriving DecidableEq

namespace ValueType

def all : List ValueType := [bool, csv, float, int, str, ssv]

def name : ValueType → String
  | bool => "bool"
  | csv => "csv"
  | float => "float"
  | int => "int"
  | str => "str"
  | ssv => "ssv"

def ofName? (s : String) : Option ValueType := all.find? (·.name == s)

end ValueType

inductive SortOrder where
  | asc
  | desc
deriving DecidableEq

namespace SortOrder

def name : SortOrder → String
  | asc => "asc"
  | desc => "desc"

def ofName? (s : String) : Option SortOrder := [asc, desc].find? (·.name == s)

end SortOrder

/-- The place of a node: one index among its siblings for each level, outermost first. -/
abbrev WalkPath := List Nat

def WalkPath.text (p : WalkPath) : String := "[" ++ String.intercalate ", " (p.map Nat.repr) ++ "]"

end Interview
