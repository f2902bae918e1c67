import Interview.Number.FloatText
import Interview.Raw

/-! Numbers in JSON text. A whole number of at most 64 bits is an integer; any other number is a float
computed from its leading digits and a power of ten, digits that no longer fit 64 bits being dropped.
A float too large to represent is refused. -/

namespace Interview.Json

open Number

def significandLimit : Nat := Nat.pow 2 64

/-- As many digits as keep the number below the limit, and the digits left over. -/
def significand : Nat → List Char → Nat × List Char
  | n, [] => (n, [])
  | n, c :: cs =>
    let next := 10 * n + digitValue c
    if next < significandLimit then significand next cs else (n, c :: cs)

def powerOfTen (e : Nat) : Float := Float.ofScientific 1 false e

/-- Multiplication or division by powers of ten of at most 308, largest first. -/
def scaleUp (f : Float) (e : Nat) : Option Float :=
  if e ≤ 308 then
    let r := f * powerOfTen e
    if r.isInf then none else some r
  else if f == 0 then some f
  else none

def scaleDown : Nat → Float → Nat → Float
  | 0, f, _ => f
  | fuel + 1, f, e =>
    if e ≤ 308 then f / powerOfTen e
    else if f == 0 then f
    else scaleDown fuel (f / powerOfTen 308) (e - 308)

def floatOf (negative : Bool) (n : Nat) (e : Int) : Option Binary64 :=
  let f := n.toUInt64.toFloat
  let scaled := if 0 ≤ e then scaleUp f e.toNat else some (scaleDown 5 f (-e).toNat)
  scaled.map fun g => if negative then (Binary64.ofFloat g).neg else Binary64.ofFloat g

/-- The exponent beyond which only its sign matters. -/
def exponentLimit : Nat := Nat.pow 2 31

/-- A float from its significand, the power of ten that its point and dropped digits give, and the
exponent part: a sign and digits. -/
def withExponent (negative : Bool) (n : Nat) (e : Int) (down : Bool) (ds : List Char) :
    Option Binary64 :=
  let written := ofDigits ds
  if exponentLimit ≤ written then
    if n ≠ 0 ∧ !down then none
    else some (if negative then ⟨0x8000000000000000⟩ else ⟨0⟩)
  else floatOf negative n (if down then e - written else e + written)

def exponentPart? : List Char → Option (Option (Bool × List Char) × List Char)
  | c :: cs =>
    if c = 'e' ∨ c = 'E' then
      let (down, cs) :=
        match cs with
        | '+' :: cs => (false, cs)
        | '-' :: cs => (true, cs)
        | cs => (false, cs)
      let ds := cs.takeWhile isDigit
      if ds.isEmpty then none else some (some (down, ds), cs.dropWhile isDigit)
    else some (none, c :: cs)
  | [] => some (none, [])

def unsigned? (negative : Bool) (cs : List Char) : Option (Raw × List Char) := do
  let whole := cs.takeWhile isDigit
  let rest := cs.dropWhile isDigit
  let wellFormed := !whole.isEmpty && (whole.head? != some '0' || whole.length == 1)
  if !wellFormed then none
  else
    let (n, dropped) := significand 0 whole
    let fraction? :=
      match rest with
      | '.' :: after => some (after.takeWhile isDigit, after.dropWhile isDigit)
      | _ => none
    match fraction? with
    | some (fraction, rest) =>
      if fraction.isEmpty then none
      else
        let (n, extra) := significand n fraction
        let e : Int := (dropped.length : Int) - (fraction.length - extra.length : Nat)
        let (exponent, rest) ← exponentPart? rest
        let x ← match exponent with
          | some (down, ds) => withExponent negative n e down ds
          | none => floatOf negative n e
        some (.float x, rest)
    | none =>
      let (exponent, rest) ← exponentPart? rest
      match exponent with
      | some (down, ds) =>
        let x ← withExponent negative n dropped.length down ds
        some (.float x, rest)
      | none =>
        if !dropped.isEmpty then
          let x ← floatOf negative n dropped.length
          some (.float x, rest)
        else if !negative then some (.int n, rest)
        else if n = 0 ∨ Nat.pow 2 63 < n then
          let x ← floatOf true n 0
          some (.float x, rest)
        else some (.int (-n), rest)

def number? : List Char → Option (Raw × List Char)
  | '-' :: cs => unsigned? true cs
  | cs => unsigned? false cs

end Interview.Json
