import Interview.Yaml.Cursor
import Interview.Yaml.Plain

/-! How a string is written in YAML: plain where it would read back as the same string, else in
quotes, and over several lines where it has line breaks. -/

namespace Interview.Yaml

inductive Quoting where
  | plain
  | single
  | double
  | literal
deriving DecidableEq

/-- Characters that are written as themselves; the others, all of them below `0x10000`, need an
escape. -/
def isPrintable (c : Char) : Bool :=
  let n := c.toNat
  n == 10 || (0x20 ≤ n && n ≤ 0x7e) || (0xa0 ≤ n && n ≤ 0xd7ff) ||
  (0xe000 ≤ n && n ≤ 0xfffd && n != 0xfeff) || 0x10000 ≤ n

def isGap : Option Char → Bool
  | none => true
  | some c => isWhite c || isBreak c || c == '\x00'

structure Traits where
  indicator : Bool
  special : Bool
  breaks : Bool
  leadingSpace : Bool
  leadingBreak : Bool
  trailingSpace : Bool
  trailingBreak : Bool
  breakSpace : Bool
  spaceBreak : Bool

def startIndicators : List Char := "#,[]\x7b\x7d&*!|>'\"%@\x60".toList

def isIndicatorAt (before? : Option Char) (c : Char) (after? : Option Char) : Bool :=
  match before? with
  | none =>
    startIndicators.contains c || ((c == '?' || c == ':' || c == '-') && isGap after?)
  | some before => (c == ':' && isGap after?) || (c == '#' && isGap (some before))

def hasIndicator (before? : Option Char) : List Char → Bool
  | [] => false
  | c :: cs => isIndicatorAt before? c cs.head? || hasIndicator (some c) cs

def hasPair (p q : Char → Bool) : List Char → Bool
  | c :: d :: cs => (p c && q d) || hasPair p q (d :: cs)
  | _ => false

def Traits.of (cs : List Char) : Traits where
  indicator := cs.take 3 == "---".toList || cs.take 3 == "...".toList || hasIndicator none cs
  special := cs.any (!isPrintable ·)
  breaks := cs.any isBreak
  leadingSpace := cs.head?.any (· == ' ')
  leadingBreak := cs.head?.any isBreak
  trailingSpace := cs.getLast?.any (· == ' ')
  trailingBreak := cs.getLast?.any isBreak
  breakSpace := hasPair isBreak (· == ' ') cs
  spaceBreak := hasPair (· == ' ') isBreak cs

namespace Traits

def plainAllowed (t : Traits) : Bool :=
  !(t.indicator || t.special || t.breaks || t.leadingSpace || t.leadingBreak || t.trailingSpace ||
    t.trailingBreak || t.spaceBreak || t.breakSpace)

def singleAllowed (t : Traits) : Bool := !(t.breakSpace || t.spaceBreak || t.special)

def blockAllowed (t : Traits) : Bool := !(t.trailingSpace || t.spaceBreak || t.special)

end Traits

/-- The way that a string asks to be written in, before its characters have their say. -/
def wanted (cs : List Char) : Quoting :=
  if cs.contains '\n' then .literal
  else
    match Plain.value? cs with
    | some (.str _) => if Plain.isZeroPadded cs then .single else .plain
    | _ => .single

/-- The way that a string is written in. A key on one line holds no line break. -/
def quotingOf (isKey : Bool) (cs : List Char) : Quoting :=
  let t := Traits.of cs
  let quoted : Quoting := if t.singleAllowed then .single else .double
  if isKey && t.breaks then .double
  else
    match wanted cs with
    | .literal => if !t.blockAllowed || isKey then .double else .literal
    | .plain => if t.plainAllowed then .plain else quoted
    | _ => if cs.isEmpty then .single else quoted

def hexDigits (width n : Nat) : List Char :=
  (List.range width).reverse.map fun i => (Nat.digitChar (n / Nat.pow 16 i % 16)).toUpper

def escaped (c : Char) : List Char :=
  let n := c.toNat
  if isPrintable c && !isBreak c && c != '"' && c != '\\' then [c]
  else
    '\\' ::
      match n with
      | 0 => ['0']
      | 7 => ['a']
      | 8 => ['b']
      | 9 => ['t']
      | 10 => ['n']
      | 11 => ['v']
      | 12 => ['f']
      | 13 => ['r']
      | 0x1b => ['e']
      | 0x22 => ['"']
      | 0x5c => ['\\']
      | 0x85 => ['N']
      | 0xa0 => ['_']
      | 0x2028 => ['L']
      | 0x2029 => ['P']
      | _ => if n ≤ 0xff then 'x' :: hexDigits 2 n else 'u' :: hexDigits 4 n

end Interview.Yaml
