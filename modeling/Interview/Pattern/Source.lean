import Interview.Text.Blank

/-! Reading the text of a regular expression character by character. Blanks and comments are left out
where the flags say so. -/

namespace Interview.Pattern

structure Flags where
  caseless : Bool := false
  multiLine : Bool := false
  dotAll : Bool := false
  unicode : Bool := true
  crlf : Bool := false
  verbose : Bool := false

structure Source where
  rest : List Char
  groups : Nat := 0
  names : List (List Char) := []

abbrev Read := StateT Source Option

namespace Read

def peek : Read (Option Char) := do return (← get).rest.head?

def bump : Read Unit := modify fun s => { s with rest := s.rest.tail }

def isMetaCharacter (c : Char) : Bool := "\\.+*?()|[]\x7b\x7d^$#&-~".toList.contains c

def skipComment (cs : List Char) : List Char := (cs.dropWhile (· != '\n')).tail

def skipVerbose : Nat → List Char → List Char
  | 0, cs => cs
  | fuel + 1, cs =>
    match cs with
    | c :: rest =>
      if Text.isBlank c then skipVerbose fuel rest
      else if c = '#' then skipVerbose fuel (skipComment rest)
      else cs
    | [] => []

def settled (f : Flags) (cs : List Char) : List Char :=
  if f.verbose then skipVerbose cs.length cs else cs

def space (f : Flags) : Read Unit := modify fun s => { s with rest := settled f s.rest }

def bumpSpace (f : Flags) : Read Unit := do bump; space f

/-- The character after the next one, blanks left out. -/
def peekAfter (f : Flags) : Read (Option Char) := do return (settled f (← get).rest.tail).head?

def take? (p : List Char) : Read Bool := do
  let s ← get
  match Text.stripPrefix? p s.rest with
  | some rest => set { s with rest }; return true
  | none => return false

def next : Read Char := do
  match ← peek with
  | some c => return c
  | none => failure

/-- As many characters of a kind as follow, with blanks between them left out. -/
def span (f : Flags) (p : Char → Bool) : Nat → Read (List Char)
  | 0 => return []
  | fuel + 1 => do
    match ← peek with
    | some c =>
      if p c then
        bumpSpace f
        return c :: (← span f p fuel)
      else return []
    | none => return []

def spanAll (f : Flags) (p : Char → Bool) : Read (List Char) := do span f p (← get).rest.length

def expect (p : Char → Bool) : Read Unit := do if p (← next) then bump else failure

end Read

end Interview.Pattern
