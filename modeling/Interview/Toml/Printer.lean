import Interview.Toml.Layout

/-! Writing a document back. What was read is written as it stood, carriage returns aside; a part
without decor gets that of its place. Tables follow the order of their headers, and one that never had
a header stands after the table written before it. -/

namespace Interview.Toml

structure Piece where
  decor : Decor
  core : List Char

def Decor.around (d : Decor) (before after core : List Char) : List Char :=
  d.before.getD before ++ core ++ d.after.getD after

def Piece.text (p : Piece) (before after : List Char) : List Char :=
  p.decor.around before after p.core

/-- A dotted key. The outer decor is that of its last part. -/
def keyPathText (before after : List Char) (keys : List Key) : List Char :=
  match keys.getLast? with
  | none => []
  | some last =>
    let rec inside : List Key → List Char
      | [] => []
      | [k] => k.spelling
      | k :: l :: more =>
        k.spelling ++ k.inner.after.getD [] ++ '.' :: l.inner.before.getD [] ++ inside (l :: more)
    last.outer.around before after (inside keys)

abbrev Pairs := List (List Key × Piece)

def inlineBody : Pairs → List Char
  | [] => []
  | [(keys, piece)] => keyPathText [' '] [' '] keys ++ '=' :: piece.text [' '] [' ']
  | (keys, piece) :: next :: more =>
    keyPathText [' '] [' '] keys ++ '=' :: piece.text [' '] [] ++ ',' :: inlineBody (next :: more)

def inlineCore (preamble : List Char) (pairs : Pairs) : List Char :=
  '{' :: preamble ++ inlineBody pairs ++ ['}']

def arrayBody : List Piece → List Char
  | [] => []
  | first :: more => first.text [] [] ++ more.flatMap fun p => ',' :: p.text [' '] []

def arrayCore (comma : Bool) (trailing : List Char) (pieces : List Piece) : List Char :=
  let end? := if comma && !pieces.isEmpty then [','] else []
  '[' :: arrayBody pieces ++ end? ++ trailing ++ [']']

mutual

/-- The pairs written for an item below a path of keys: none for a table with a header, and those of
its entries for a table of dotted keys. -/
def Item.pairs (path : List Key) : Item → Pairs
  | .literal decor spelling _ => [(path, ⟨decor, spelling⟩)]
  | .array decor items comma trailing => [(path, ⟨decor, arrayCore comma trailing (pieces items)⟩)]
  | .inline info preamble entries =>
    if info.dotted then entryPairs path entries
    else [(path, ⟨info.decor, inlineCore preamble (entryPairs [] entries)⟩)]
  | .table info entries => if info.dotted then entryPairs path entries else []
  | .tables _ => []

def entryPairs (path : List Key) : List (Key × Item) → Pairs
  | [] => []
  | (k, i) :: rest => i.pairs (path ++ [k]) ++ entryPairs path rest

def pieces : List Item → List Piece
  | [] => []
  | i :: rest => (i.pairs []).map (·.2) ++ pieces rest

end

structure Section where
  position : Nat
  info : TableInfo
  path : List Key
  isElement : Bool
  pairs : Pairs

mutual

def Item.sections (path : List Key) (isElement : Bool) : Item → Nat → List Section × Nat
  | .table info entries, last =>
    let position := if info.dotted then last else info.position.getD last
    let own :=
      if info.dotted then []
      else [Section.mk position info path isElement (entryPairs [] entries)]
    let (below, last) := entrySections path entries position
    (own ++ below, last)
  | .tables elements, last => elementSections path elements last
  | _, last => ([], last)

def entrySections (path : List Key) : List (Key × Item) → Nat → List Section × Nat
  | [], last => ([], last)
  | (k, i) :: rest, last =>
    let (here, last) := i.sections (path ++ [k]) false last
    let (after, last) := entrySections path rest last
    (here ++ after, last)

def elementSections (path : List Key) : List Item → Nat → List Section × Nat
  | [], last => ([], last)
  | i :: rest, last =>
    let (here, last) := i.sections path true last
    let (after, last) := elementSections path rest last
    (here ++ after, last)

end

def bodyText (pairs : Pairs) : List Char :=
  pairs.flatMap fun (keys, piece) =>
    keyPathText [] [' '] keys ++ '=' :: piece.text [' '] [] ++ ['\n']

def Section.headerText (s : Section) (isFirst : Bool) : List Char :=
  let name := keyPathText [] [] s.path
  let core := if s.isElement then '[' :: '[' :: name ++ [']', ']'] else '[' :: name ++ [']']
  s.info.decor.around (if isFirst then [] else ['\n']) [] core ++ ['\n']

def sectionsText : Bool → List Section → List Char
  | _, [] => []
  | isFirst, s :: rest =>
    if s.path.isEmpty then
      bodyText s.pairs ++ sectionsText (isFirst && s.pairs.isEmpty) rest
    else if !s.isElement && s.info.implicit && s.pairs.isEmpty then sectionsText isFirst rest
    else s.headerText isFirst ++ bodyText s.pairs ++ sectionsText false rest

def Layout.text (l : Layout) : List Char :=
  let (sections, _) := (Item.table l.root l.entries).sections [] false 0
  let ordered := sections.mergeSort fun a b => a.position ≤ b.position
  (sectionsText true ordered ++ l.trailing).filter (· != '\r')

end Interview.Toml
