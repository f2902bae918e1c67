import Interview.Error
import Interview.Text.Blank

/-! Paths as text. Between the slashes of a path stand its pieces; empty pieces and single dots add
nothing, except that a leading dot makes a path explicitly relative. -/

namespace Interview.Path

inductive Component where
  | root
  | current
  | parent
  | normal (name : List Char)
deriving DecidableEq

def pieces (p : Path) : List (List Char) := Text.cut '/' p.toList

def isTrivial (piece : List Char) : Bool := piece.isEmpty || piece == ['.']

def isAbsolute (p : Path) : Bool := p.toList.head? == some '/'

/-- What a path starts with, if that is not a name, and the pieces after it. -/
def body (p : Path) : Option (List Char) × List (List Char) :=
  match p.pieces with
  | [] => (none, [])
  | [[]] => (none, [])
  | first :: rest => if isTrivial first then (some first, rest) else (none, first :: rest)

def componentOf (piece : List Char) : Component :=
  if piece = "..".toList then .parent else .normal piece

def components (p : Path) : List Component :=
  let (start, rest) := p.body
  let named := (rest.filter (!isTrivial ·)).map componentOf
  match start with
  | none => named
  | some [] => .root :: named
  | some _ => .current :: named

/-- A single name, such as `answers.txt`. -/
def isBare (p : Path) : Bool :=
  match p.components with
  | [.normal _] => true
  | _ => false

/-- A path below a directory; an absolute one stays as it is. -/
def below (directory p : Path) : Path :=
  if p.isAbsolute then p
  else if directory.isEmpty || directory.toList.getLast? == some '/' then directory ++ p
  else directory ++ "/" ++ p

def fileName? (p : Path) : Option (List Char) :=
  match p.components.getLast? with
  | some (.normal name) => some name
  | _ => none

/-- What follows the last dot of the file's name; a dot in front does not count. -/
def extension? (p : Path) : Option String := do
  let name ← p.fileName?
  let after := name.reverse.takeWhile (· != '.')
  if after.length + 1 < name.length then some (String.ofList after.reverse) else none

def parent? (p : Path) : Option Path :=
  let (start, rest) := p.body
  let settle (pieces : List (List Char)) : List (List Char) :=
    (pieces.reverse.dropWhile isTrivial).reverse
  let write (pieces : List (List Char)) : Path :=
    match start, pieces with
    | some [], [] => "/"
    | some first, pieces => String.ofList (Text.join ['/'] (first :: pieces))
    | none, pieces => String.ofList (Text.join ['/'] pieces)
  match settle rest with
  | [] => if start = some ['.'] then some "" else none
  | pieces => some (write (settle pieces.dropLast))

end Interview.Path
