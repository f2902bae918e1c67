/-! A position in YAML text, and the classes of characters that its grammar knows. -/

namespace Interview.Yaml

structure Cursor where
  rest : List Char
  /-- How many bytes are behind, where lines and columns count characters. -/
  index : Nat
  line : Nat
  column : Nat

def isBreak (c : Char) : Bool :=
  c == '\n' || c == '\r' || c == '\u0085' || c == '\u2028' || c == '\u2029'

def isWhite (c : Char) : Bool := c == ' ' || c == '\t'

def isNameChar (c : Char) : Bool := c.isAlphanum || c == '_' || c == '-'

def isAllowed (c : Char) : Bool :=
  let n := c.toNat
  n == 9 || n == 10 || n == 13 || (0x20 ≤ n && n ≤ 0x7e) || n == 0x85 ||
  (0xa0 ≤ n && n ≤ 0xd7ff) || (0xe000 ≤ n && n ≤ 0xfffd) || 0x10000 ≤ n

namespace Cursor

def start (cs : List Char) : Cursor := ⟨cs, 0, 0, 0⟩

def peek (p : Cursor) : Option Char := p.rest.head?

def peekAt (p : Cursor) (n : Nat) : Option Char := p.rest[n]?

def atEnd (p : Cursor) : Bool := p.rest.isEmpty

def sees (p : Cursor) (c : Char) : Bool := p.peek == some c

/-- A blank, a line break or the end stands so many characters ahead. -/
def isGapAt (p : Cursor) (n : Nat) : Bool :=
  match p.peekAt n with
  | none => true
  | some c => isWhite c || isBreak c

def isBreakOrEnd (p : Cursor) : Bool :=
  match p.peek with
  | none => true
  | some c => isBreak c

def isBreakAt (p : Cursor) (n : Nat) : Bool :=
  match p.peekAt n with
  | none => false
  | some c => isBreak c

def isWhiteHere (p : Cursor) : Bool :=
  match p.peek with
  | none => false
  | some c => isWhite c

def skip (p : Cursor) : Cursor :=
  match p.rest with
  | [] => p
  | c :: rest => ⟨rest, p.index + c.utf8Size, p.line, p.column + 1⟩

def skipBy : Nat → Cursor → Cursor
  | 0, p => p
  | n + 1, p => skipBy n p.skip

def skipBreak (p : Cursor) : Cursor :=
  match p.rest with
  | '\r' :: '\n' :: rest => ⟨rest, p.index + 2, p.line + 1, 0⟩
  | c :: rest => if isBreak c then ⟨rest, p.index + c.utf8Size, p.line + 1, 0⟩ else p
  | [] => p

/-- The text that a line break contributes: the separators keep their own character. -/
def breakText (p : Cursor) : List Char :=
  match p.peek with
  | some c => if c == '\u2028' || c == '\u2029' then [c] else if isBreak c then ['\n'] else []
  | none => []

def skipWhile (f : Char → Bool) (p : Cursor) : Cursor :=
  let passed := p.rest.takeWhile f
  let index := passed.foldl (fun n c => n + c.utf8Size) p.index
  ⟨p.rest.dropWhile f, index, p.line, p.column + passed.length⟩

/-- A line that starts with three hyphens or three dots and then a gap. -/
def atDocumentMark (p : Cursor) (c : Char) : Bool :=
  p.column == 0 && p.rest.take 3 == [c, c, c] && p.isGapAt 3

def atAnyMark (p : Cursor) : Bool := p.atDocumentMark '-' || p.atDocumentMark '.'

end Cursor
end Interview.Yaml
