import Interview.Settings.Basic
import Interview.Toml.Printer
import Interview.Toml.Reader

/-! Writing a store over an existing document. Leaves the store no longer holds go, then every leaf of
the store is put in its place; comments and spelling of the rest stay. -/

namespace Interview.Toml

def Item.entries? : Item → Option Entries
  | .table _ entries => some entries
  | .inline _ _ entries => some entries
  | _ => none

def Item.withEntries (entries : Entries) : Item → Item
  | .table info _ => .table info entries
  | .inline info preamble _ => .inline info preamble entries
  | item => item

def Item.valueDecor? : Item → Option Decor
  | .literal decor _ _ => some decor
  | .array decor _ _ _ => some decor
  | .inline info _ _ => some info.decor
  | _ => none

def isTableEntry : Option Value → Bool
  | some (.table _) => true
  | _ => false

def isLeafEntry : Option Value → Bool
  | some (.table _) => false
  | some _ => true
  | none => false

mutual

/-- What remains of an item at a dotted key, if anything does. -/
def Item.pruned (store : Settings) (key : String) : Item → Option Item
  | .table info entries =>
    let kept := prunedEntries store key entries
    if !kept.isEmpty || isTableEntry (store.get? key) then some (.table info kept) else none
  | .inline info preamble entries =>
    let kept := prunedEntries store key entries
    if !kept.isEmpty || isTableEntry (store.get? key) then some (.inline info preamble kept)
    else none
  | item => if isLeafEntry (store.get? key) then some item else none

def prunedEntries (store : Settings) (parent : String) :
    List (Key × Item) → List (Key × Item)
  | [] => []
  | (k, i) :: rest =>
    match i.pruned store (Interview.Key.below parent k.name) with
    | some i => (k, i) :: prunedEntries store parent rest
    | none => prunedEntries store parent rest

end

/-- A new value takes over the decor of the value it replaces. -/
def leafItem (v : Value) (old : Option Item) : Item :=
  .literal ((old.bind Item.valueDecor?).getD .unset) (inlineText v) v

/-- Puts a leaf at the end of a path, making the tables on the way; anything else in the way gives
place to a table. -/
def putLeaf (v : Value) : List String → Entries → Entries
  | [], es => es
  | [name], es => es.put (.plain name) (leafItem v (es.get? name))
  | name :: path, es =>
    match es.get? name with
    | some item =>
      match item.entries? with
      | some inner => es.put (.plain name) (item.withEntries (putLeaf v path inner))
      | none => es.put (.plain name) (.table (.implied false) (putLeaf v path []))
    | none => es.put (.plain name) (.table (.implied false) (putLeaf v path []))

def Layout.patched (l : Layout) (store : Settings) : Layout :=
  let entries := prunedEntries store "" l.entries
  let entries := store.leaves.foldl (fun es (key, v) => putLeaf v (Interview.Key.segments key) es) entries
  { l with entries }

def render? (existing : List Char) (store : Settings) : Option (List Char) :=
  (read? existing).map fun l => (l.patched store).text

end Interview.Toml
