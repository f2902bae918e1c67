import Interview.Number.Integer

/-! Floats of 64 bits, kept as bit patterns so that the sign of a zero or of a not-a-number is never
lost. A finite one is a sign and m · 2^q with natural m; order and equality are those of an integer
key, and not-a-number has no key. -/

namespace Interview.Number

structure Binary64 where
  bits : UInt64
deriving DecidableEq

namespace Binary64

def ofFloat (x : Float) : Binary64 := ⟨x.toBits⟩

def toFloat (x : Binary64) : Float := Float.ofBits x.bits

def isNegative (x : Binary64) : Bool := x.bits.toNat / Nat.pow 2 63 == 1

def magnitude (x : Binary64) : Nat := x.bits.toNat % Nat.pow 2 63

def exponentField (x : Binary64) : Nat := x.magnitude / Nat.pow 2 52

def fractionField (x : Binary64) : Nat := x.magnitude % Nat.pow 2 52

def neg (x : Binary64) : Binary64 := ⟨x.bits ^^^ 0x8000000000000000⟩

def infinity : Binary64 := ⟨0x7FF0000000000000⟩

def nan : Binary64 := ⟨0x7FF8000000000000⟩

def isNaN (x : Binary64) : Bool := x.exponentField == 2047 && x.fractionField != 0

inductive Shape where
  | nan
  | infinite
  /-- The absolute value m · 2^q. -/
  | finite (m : Nat) (q : Int)

def shape (x : Binary64) : Shape :=
  if x.exponentField = 2047 then
    if x.fractionField = 0 then .infinite else .nan
  else if x.exponentField = 0 then .finite x.fractionField (-1074)
  else .finite (Nat.pow 2 52 + x.fractionField) ((x.exponentField : Int) - 1075)

/-- An integer that orders the floats as their values do; the two zeros share a key. -/
def key? (x : Binary64) : Option Int :=
  if x.isNaN then none
  else some (if x.isNegative then -(x.magnitude : Int) else x.magnitude)

def equal (x y : Binary64) : Bool :=
  match x.key?, y.key? with
  | some a, some b => a == b
  | _, _ => false

def le (x y : Binary64) : Bool :=
  match x.key?, y.key? with
  | some a, some b => a ≤ b
  | _, _ => false

/-- The order of two floats; a pair with a not-a-number counts as equal. -/
def order (x y : Binary64) : Ordering :=
  match x.key?, y.key? with
  | some a, some b => compare a b
  | _, _ => .eq

def isZero (x : Binary64) : Bool := x.magnitude == 0

def ofInt64 (n : Int64) : Binary64 := ofFloat n.toFloat

def toInt? (x : Binary64) : Option Int :=
  match x.shape with
  | .finite m q =>
    let denominator := Nat.pow 2 (-q).toNat
    let numerator := m * Nat.pow 2 q.toNat
    if numerator % denominator = 0 then
      let n : Int := (numerator / denominator : Nat)
      some (if x.isNegative then -n else n)
    else none
  | _ => none

/-- Whether dividing by a step leaves the remainder zero. An infinite step leaves x itself. -/
def isMultipleOf (x step : Binary64) : Bool :=
  match x.shape, step.shape with
  | .finite m _, .infinite => m == 0
  | .finite m q, .finite n r =>
    let low := min q r
    let a := m * Nat.pow 2 (q - low).toNat
    let b := n * Nat.pow 2 (r - low).toNat
    b != 0 && a % b == 0
  | _, _ => false

end Binary64
end Interview.Number
