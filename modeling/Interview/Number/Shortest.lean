import Interview.Number.Binary64

/-! The shortest decimal that reads back as a given float. Among the decimals with the fewest digits
inside the interval of reals that round to the float, the nearest is taken; the caller says which way
an exact tie goes. -/

namespace Interview.Number

inductive Tie where
  | up
  | even
deriving DecidableEq

/-- Decimal digits with a power of ten: the value d · 10^e. -/
structure Decimal where
  digits : List Char
  exponent : Int

/-- A positive float m · 2^q as a natural number over a power of ten, with the half-widths of its
rounding interval in quarters of the same unit. -/
structure Grid where
  value : Nat
  below : Nat
  above : Nat
  closed : Bool
  places : Nat

def Grid.of (m : Nat) (q : Int) : Grid :=
  let places := (-q).toNat
  let ulp := if 0 ≤ q then Nat.pow 2 q.toNat else Nat.pow 5 places
  { value := m * ulp
    below := if m = Nat.pow 2 52 ∧ q ≠ -1074 then ulp else 2 * ulp
    above := 2 * ulp
    closed := m % 2 == 0
    places }

def Grid.contains (g : Grid) (n : Nat) : Bool :=
  if g.closed then 4 * g.value ≤ 4 * n + g.below && 4 * n ≤ 4 * g.value + g.above
  else 4 * g.value < 4 * n + g.below && 4 * n < 4 * g.value + g.above

/-- The multiple of the unit that stands for the value, if one lies in the interval. -/
def Grid.pick? (g : Grid) (tie : Tie) (unit : Nat) : Option Nat :=
  let low := g.value / unit
  let high := low + 1
  match g.contains (low * unit), g.contains (high * unit) with
  | false, false => none
  | true, false => some low
  | false, true => some high
  | true, true =>
    let toLow := g.value - low * unit
    let toHigh := high * unit - g.value
    if toLow < toHigh then some low
    else if toHigh < toLow then some high
    else match tie with
      | .up => some high
      | .even => some (if low % 2 = 0 then low else high)

def Grid.search (g : Grid) (tie : Tie) : Nat → Nat × Nat
  | 0 => (g.value, 0)
  | drop + 1 =>
    match g.pick? tie (Nat.pow 10 (drop + 1)) with
    | some n => (n, drop + 1)
    | none => g.search tie drop

def stripZeros (digits : List Char) (exponent : Int) : Decimal :=
  let kept := digits.reverse.dropWhile (· == '0')
  ⟨kept.reverse, exponent + ((digits.length - kept.length : Nat) : Int)⟩

def shortest (tie : Tie) (m : Nat) (q : Int) : Decimal :=
  let g := Grid.of m q
  let length := (Nat.toDigits 10 g.value).length
  let (n, dropped) := g.search tie (length - 1)
  stripZeros (Nat.toDigits 10 n) ((dropped : Int) - g.places)

end Interview.Number
