/-! Decimal integers: a sign, then digits, and nothing else. -/

namespace Interview.Number

def isDigit (c : Char) : Bool := '0' ≤ c && c ≤ '9'

def digitValue (c : Char) : Nat := c.toNat - '0'.toNat

def ofDigits (cs : List Char) : Nat := cs.foldl (fun n c => 10 * n + digitValue c) 0

def hexValue? (c : Char) : Option Nat :=
  if isDigit c then some (digitValue c)
  else if 'a' ≤ c ∧ c ≤ 'f' then some (c.toNat - 'a'.toNat + 10)
  else if 'A' ≤ c ∧ c ≤ 'F' then some (c.toNat - 'A'.toNat + 10)
  else none

def ofHex? (cs : List Char) : Option Nat := cs.foldlM (fun n c => (hexValue? c).map (16 * n + ·)) 0

def nat? (cs : List Char) : Option Nat :=
  if !cs.isEmpty && cs.all isDigit then some (ofDigits cs) else none

def int? : List Char → Option Int
  | '-' :: cs => (nat? cs).map fun n => -(n : Int)
  | '+' :: cs => (nat? cs).map Int.ofNat
  | cs => (nat? cs).map Int.ofNat

/-- An unsigned number may carry a plus sign only. -/
def unsigned? : List Char → Option Nat
  | '+' :: cs => nat? cs
  | cs => nat? cs

def int64Min : Int := -9223372036854775808

def int64Max : Int := 9223372036854775807

def toInt64? (n : Int) : Option Int64 :=
  if int64Min ≤ n ∧ n ≤ int64Max then some (Int64.ofInt n) else none

def int64? (cs : List Char) : Option Int64 := int? cs >>= toInt64?

def intText (n : Int) : List Char :=
  if n < 0 then '-' :: Nat.toDigits 10 n.natAbs else Nat.toDigits 10 n.natAbs

def padded (width n : Nat) : List Char :=
  let ds := Nat.toDigits 10 n
  List.replicate (width - ds.length) '0' ++ ds

end Interview.Number
