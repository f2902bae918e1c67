import Interview.Pattern.Expression
import Interview.Pattern.Source

/-! What follows a backslash in a regular expression. Where a byte is wanted and not a character, only
ASCII is known. -/

namespace Interview.Pattern

open Unicode Read

inductive Primitive where
  /-- A character; one written with two hexadecimal digits may also be meant as a byte. -/
  | literal (c : Char) (mayBeByte : Bool)
  | set (s : CodeSet)
  | assertion (a : Assertion)

def codePoint (digits : List Char) : Read Char := do
  let n ← (Number.ofHex? digits : Option Nat)
  if n < 0xd800 ∨ (0xdfff < n ∧ n ≤ 0x10ffff) then return Char.ofNat n else failure

def hexDigits (f : Flags) : Nat → Read (List Char)
  | 0 => return []
  | n + 1 => do
    let c ← next
    bumpSpace f
    return c :: (← hexDigits f n)

/-- A code point, in braces or with as many digits as its mark asks for. -/
def hex (f : Flags) (mark : Char) : Read Primitive := do
  bumpSpace f
  if (← next) = '{' then
    bumpSpace f
    let digits ← spanAll f (· != '}')
    discard next
    bumpSpace f
    if digits.isEmpty then failure else return .literal (← codePoint digits) false
  else
    let width := if mark = 'x' then 2 else if mark = 'u' then 4 else 8
    return .literal (← codePoint (← hexDigits f width)) (mark = 'x')

def folded (f : Flags) (s : CodeSet) : CodeSet :=
  if f.caseless then s.withVariants !f.unicode else s

def splitAt? (mark : List Char) : List Char → Option (List Char × List Char)
  | [] => if mark.isEmpty then some ([], []) else none
  | c :: cs =>
    match Text.stripPrefix? mark (c :: cs) with
    | some rest => some ([], rest)
    | none => (splitAt? mark cs).map fun (before, after) => (c :: before, after)

/-- A property by its name, or by a name and a value. An exclamation mark before the equals sign
changes nothing: only the letter before the braces negates. -/
def namedProperty? (name : List Char) : Option CodeSet :=
  match [['!', '='], [':'], ['=']].findSome? (splitAt? · name) with
  | some (property, value) => propertyValue? property value
  | none => property? name

def propertySet (f : Flags) (negated : Bool) : Read CodeSet := do
  bumpSpace f
  let c ← next
  let s ←
    if c = '{' then
      bumpSpace f
      let name ← spanAll f (· != '}')
      discard next
      bump
      (namedProperty? name : Option CodeSet)
    else if c = '\\' then failure
    else
      bumpSpace f
      (property? [c] : Option CodeSet)
  if !f.unicode then failure
  else
    let s := folded f s
    return if negated then s.compl else s

def classSet (f : Flags) (c : Char) : Read CodeSet := do
  bump
  let s :=
    match c.toLower with
    | 'd' => if f.unicode then decimal else asciiDigit
    | 's' => if f.unicode then whiteSpace else asciiSpace
    | _ => if f.unicode then word else asciiWord
  if c.isLower then return s
  else if f.unicode then return s.compl
  else failure

def isBoundaryName (c : Char) : Bool := c.isAlpha || c == '-'

/-- A word boundary, whose kind may be named in braces. -/
def wordBoundary (f : Flags) : Read Assertion := do
  let ascii := !f.unicode
  let start ← get
  if (← peek) = some '{' then
    bumpSpace f
    let c ← next
    if isBoundaryName c then
      let name ← spanAll f isBoundaryName
      expect (· == '}')
      match String.ofList name with
      | "start" => return .wordStart ascii
      | "end" => return .wordEnd ascii
      | "start-half" => return .wordStartHalf ascii
      | "end-half" => return .wordEndHalf ascii
      | _ => failure
    else
      set start
      return .wordBoundary ascii
  else return .wordBoundary ascii

def isEscapable (c : Char) : Bool :=
  isMetaCharacter c || (c.toNat < 0x80 && !c.isAlphanum && c != '<' && c != '>')

def escape (f : Flags) : Read Primitive := do
  bump
  let c ← next
  if c.isDigit then failure
  else if c = 'x' ∨ c = 'u' ∨ c = 'U' then hex f c
  else if c = 'p' ∨ c = 'P' then return .set (← propertySet f (c = 'P'))
  else if "dswDSW".toList.contains c then return .set (← classSet f c)
  else
    bump
    let literal (c : Char) : Read Primitive := return .literal c false
    if isEscapable c then literal c
    else
      match c with
      | 'a' => literal '\x07'
      | 'f' => literal '\x0c'
      | 't' => literal '\t'
      | 'n' => literal '\n'
      | 'r' => literal '\r'
      | 'v' => literal '\x0b'
      | 'A' => return .assertion .textStart
      | 'z' => return .assertion .textEnd
      | 'b' => return .assertion (← wordBoundary f)
      | 'B' => return .assertion (.noWordBoundary !f.unicode)
      | '<' => return .assertion (.wordStart !f.unicode)
      | '>' => return .assertion (.wordEnd !f.unicode)
      | _ => failure

end Interview.Pattern
