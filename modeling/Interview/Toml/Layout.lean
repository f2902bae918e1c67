import Interview.Toml.Literal
import Interview.Raw
import Interview.Toml.Scalar

/-! A TOML document with its layout: beside every key and value stands the text around it, so that a
document can be changed in places and written back with the rest as it was. -/

namespace Interview.Toml

/-- The text before and after a key or value; where it was never written the place decides. -/
structure Decor where
  before : Option (List Char)
  after : Option (List Char)

def Decor.unset : Decor := ⟨none, none⟩

/-- A key with its spelling. The outer decor surrounds a whole dotted key that ends in this one, the
inner decor this one between dots. -/
structure Key where
  name : String
  spelling : List Char
  outer : Decor
  inner : Decor

def Key.plain (name : String) : Key := ⟨name, keyText name.toList, .unset, .unset⟩

/-- What is known of a table beside its entries. An implicit one has no header of its own, and a
dotted one came from dotted keys. -/
structure TableInfo where
  decor : Decor
  implicit : Bool
  dotted : Bool
  position : Option Nat

def TableInfo.implied (dotted : Bool) : TableInfo := ⟨.unset, true, dotted, none⟩

inductive Item where
  | literal (decor : Decor) (spelling : List Char) (value : Value)
  | array (decor : Decor) (items : List Item) (comma : Bool) (trailing : List Char)
  | inline (info : TableInfo) (preamble : List Char) (entries : List (Key × Item))
  | table (info : TableInfo) (entries : List (Key × Item))
  | tables (elements : List Item)

abbrev Entries := List (Key × Item)

namespace Entries

def get? (name : String) : Entries → Option Item
  | [] => none
  | (k, i) :: rest => if k.name = name then some i else get? name rest

/-- Replaces the item of a known key, which keeps its spelling and place, or appends a new one. -/
def put (key : Key) (item : Item) : Entries → Entries
  | [] => [(key, item)]
  | (k, i) :: rest => if k.name = key.name then (k, item) :: rest else (k, i) :: put key item rest

def erase (name : String) (es : Entries) : Entries := es.filter (·.1.name != name)

end Entries

structure Layout where
  root : TableInfo
  entries : Entries
  trailing : List Char

mutual

def Item.raw : Item → Raw
  | .literal _ _ v => Raw.ofValue v
  | .array _ items _ _ => .list (rawItems items)
  | .inline _ _ entries => .object (rawEntries entries)
  | .table _ entries => .object (rawEntries entries)
  | .tables elements => .list (rawItems elements)

def rawItems : List Item → List Raw
  | [] => []
  | i :: rest => i.raw :: rawItems rest

def rawEntries : List (Key × Item) → List (String × Raw)
  | [] => []
  | (k, i) :: rest => (k.name, i.raw) :: rawEntries rest

end

def Layout.raw (l : Layout) : Raw := .object (rawEntries l.entries)

end Interview.Toml
