import Interview.Pattern.Bracket
import Interview.Pattern.Size

/-! Reading regular expressions. Flags in parentheses change how the rest of the enclosing group is
read; everything that has no meaning is refused, and so is what nests too deeply or becomes too large. -/

namespace Interview.Pattern

open Unicode Read

def flagOf? (f : Flags) (on : Bool) : Char → Option Flags
  | 'i' => some { f with caseless := on }
  | 'm' => some { f with multiLine := on }
  | 's' => some { f with dotAll := on }
  | 'U' => some f
  | 'u' => some { f with unicode := on }
  | 'R' => some { f with crlf := on }
  | 'x' => some { f with verbose := on }
  | _ => none

/-- Flags without repetition, those after a hyphen switched off; a hyphen is not the last. -/
def applyFlags? (f : Flags) (on : Bool) (seen : List Char) : List Char → Option Flags
  | [] => if seen.head? = some '-' then none else some f
  | '-' :: rest => if on then applyFlags? f false ('-' :: seen) rest else none
  | c :: rest =>
    if seen.contains c then none
    else (flagOf? f on c).bind fun f => applyFlags? f on (c :: seen) rest

def isNameCharacter (c : Char) : Bool :=
  c == '_' || c == '.' || c == '[' || c == ']' || Unicode.isAlphabetic c || Unicode.isNumeric c

def isNameStart (c : Char) : Bool := c == '_' || Unicode.isAlphabetic c

def groupName : Read Unit := do
  let s ← get
  let name := s.rest.takeWhile (· != '>')
  let rest := s.rest.dropWhile (· != '>')
  let wellFormed := (name.head?.any isNameStart) && name.all isNameCharacter
  if rest.isEmpty || !wellFormed || s.names.contains name then failure
  else set { s with rest := rest.tail, names := name :: s.names }

def nextGroup : Read Nat :=
  modifyGet fun s => (s.groups + 1, { s with groups := s.groups + 1 })

inductive Opening where
  /-- A group, with its number if it captures, and the flags inside it. -/
  | group (number : Option Nat) (inside : Flags)
  /-- Flags for the rest of the enclosing group. -/
  | flags (following : Flags)

def isLookAround (cs : List Char) : Bool :=
  ["?=", "?!", "?<=", "?<!"].any fun p => (Text.stripPrefix? p.toList cs).isSome

def opening (f : Flags) : Read Opening := do
  space f
  if isLookAround (← get).rest then failure
  else if ← take? "?P<".toList then
    groupName
    return .group (← nextGroup) f
  else if ← take? "?<".toList then
    groupName
    return .group (← nextGroup) f
  else if ← take? ['?'] then
    let s ← get
    let isEnd (c : Char) := c == ':' || c == ')'
    let written := s.rest.takeWhile (!isEnd ·)
    let g ← (applyFlags? f true [] written : Option Flags)
    match s.rest.dropWhile (!isEnd ·) with
    | ':' :: rest =>
      set { s with rest }
      return .group none g
    | ')' :: rest =>
      if written.isEmpty then failure
      else
        set { s with rest }
        return .flags g
    | _ => failure
  else return .group (← nextGroup) f

def decimalLimit : Nat := Nat.pow 2 32

def decimal? (f : Flags) : Read (Option Nat) := do
  modify fun s => { s with rest := s.rest.dropWhile Text.isBlank }
  let digits ← spanAll f Char.isDigit
  discard (spanAll f Text.isBlank)
  if digits.isEmpty then return none
  else
    let n := Number.ofDigits digits
    if n < decimalLimit then return some n else failure

def counts (f : Flags) : Read (Nat × Option Nat) := do
  bumpSpace f
  discard next
  let least ← decimal? f
  let c ← next
  if c = ',' then
    bumpSpace f
    let least ← (least : Option Nat)
    if (← next) = '}' then return (least, none)
    else
      match ← decimal? f with
      | some most => if least ≤ most then return (least, some most) else failure
      | none => failure
  else
    let least ← (least : Option Nat)
    return (least, some least)

def lazyMark : Read Unit := do if (← peek) = some '?' then bump

/-- An expression with the depth at which groups, repetitions, classes, sequences and choices nest in
it. -/
structure Part where
  expression : Expression
  depth : Nat := 0

/-- An item of a sequence; flags stand between items and cannot be repeated. -/
inductive Piece where
  | part (p : Part)
  | flags

namespace Piece

def expression : Piece → Expression
  | part p => p.expression
  | flags => .empty

def depth : Piece → Nat
  | part p => p.depth
  | flags => 0

end Piece

namespace Part

def nesting (depths : List Nat) : Nat :=
  let depth := depths.foldl max 0
  if depths.length ≤ 1 then depth else depth + 1

def ofPieces (pieces : List Piece) : Part :=
  ⟨.concat (pieces.reverse.map Piece.expression), nesting (pieces.map Piece.depth)⟩

def ofBranches (parts : List Part) : Part :=
  ⟨.alternation (parts.reverse.map Part.expression), nesting (parts.map Part.depth)⟩

def group (number : Option Nat) (p : Part) : Part :=
  match number with
  | some n => ⟨.group n p.expression, p.depth + 1⟩
  | none => ⟨p.expression, p.depth + 1⟩

end Part

def repeated? (least : Nat) (most : Option Nat) : List Piece → Option (List Piece)
  | .part p :: rest => some (.part ⟨.repeated p.expression least most, p.depth + 1⟩ :: rest)
  | _ => none

def character (f : Flags) (c : Char) : Expression := .ofSet (folded f (.single c.toNat))

def primitive (f : Flags) : Primitive → Read Expression
  | .literal c mayBeByte =>
    if mayBeByte && !f.unicode && 0x80 ≤ c.toNat then failure else return character f c
  | .set s => return .ofSet s
  | .assertion a => return .assertion a

def dot (f : Flags) : Read Expression :=
  if !f.unicode then failure
  else if f.dotAll then return .chars .any
  else if f.crlf then return .chars (CodeSet.ofText ["A D"]).compl
  else return .chars (CodeSet.single 0xa).compl

/-- What stands alone: a class, an escape, a dot, an anchor or a character. -/
def standalone (f : Flags) : Char → Read Part
  | '[' => do
    let s ← bracketed f
    return ⟨.ofSet s.set, s.depth⟩
  | '\\' => do return { expression := ← primitive f (← escape f) }
  | '.' => do
    bump
    return { expression := ← dot f }
  | '^' => do
    bump
    return { expression := .assertion (if f.multiLine then .lineStart f.crlf else .textStart) }
  | '$' => do
    bump
    return { expression := .assertion (if f.multiLine then .lineEnd f.crlf else .textEnd) }
  | c => do
    bump
    return { expression := character f c }

def operator (least : Nat) (most : Option Nat) : Read (Nat × Option Nat) := do
  bump
  lazyMark
  return (least, most)

def braces (f : Flags) : Read (Nat × Option Nat) := do
  let bounds ← counts f
  if (← peek) = some '}' then
    bumpSpace f
    lazyMark
    return bounds
  else failure

def repetition? (f : Flags) : Char → Option (Read (Nat × Option Nat))
  | '?' => some (operator 0 (some 1))
  | '*' => some (operator 0 none)
  | '+' => some (operator 1 none)
  | '{' => some (braces f)
  | _ => none

def extended (f : Flags) (c : Char) (pieces : List Piece) : Read (List Piece) := do
  match repetition? f c with
  | some bounds =>
    let (least, most) ← bounds
    (repeated? least most pieces : Option (List Piece))
  | none => return .part (← standalone f c) :: pieces

/-- The expression up to the end of the text or of the enclosing group, with room for so many groups
inside each other; the pieces of the current alternative stand in reverse, as do the alternatives
before it. -/
def body : (room fuel : Nat) → (isGroup : Bool) → Flags → List Part → List Piece → Read Part
  | 0, _, _, _, _, _ => failure
  | _, 0, _, _, _, _ => failure
  | room + 1, fuel + 1, isGroup, f, done, pieces => do
    space f
    match ← peek with
    | none => if isGroup then failure else return .ofBranches (.ofPieces pieces :: done)
    | some '(' =>
      bump
      match ← opening f with
      | .group number inside =>
        let inner ← body room fuel true inside [] []
        body (room + 1) fuel isGroup f done (.part (inner.group number) :: pieces)
      | .flags following => body (room + 1) fuel isGroup following done (.flags :: pieces)
    | some ')' =>
      if isGroup then
        bump
        return .ofBranches (.ofPieces pieces :: done)
      else failure
    | some '|' =>
      bump
      body (room + 1) fuel isGroup f (.ofPieces pieces :: done) []
    | some c => body (room + 1) fuel isGroup f done (← extended f c pieces)

def read? (cs : List Char) : Option Expression := do
  let (whole, _) ← (body (depthLimit + 1) (cs.length + 1) false {} [] []).run { rest := cs }
  if whole.depth ≤ depthLimit && whole.expression.fits then some whole.expression else none

end Interview.Pattern
