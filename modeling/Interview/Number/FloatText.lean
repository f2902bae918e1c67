import Interview.Number.Shortest
import Interview.Text.Blank

/-! Floats as text. Written, a float has the fewest digits that read back and no exponent; read, it
may have a sign, a point, an exponent, or be one of the words for infinity and not-a-number. -/

namespace Interview.Number

def Decimal.positional (d : Decimal) : List Char :=
  if 0 ≤ d.exponent then d.digits ++ List.replicate d.exponent.toNat '0'
  else
    let places := (-d.exponent).toNat
    let length := d.digits.length
    if places < length then
      d.digits.take (length - places) ++ '.' :: d.digits.drop (length - places)
    else '0' :: '.' :: List.replicate (places - length) '0' ++ d.digits

/-- Plain text of a float: a whole number has no point, and zero keeps its sign. -/
def floatText (x : Binary64) : List Char :=
  let body (text : List Char) := if x.isNegative then '-' :: text else text
  match x.shape with
  | .nan => "NaN".toList
  | .infinite => body "inf".toList
  | .finite m q => body (if m = 0 then ['0'] else (shortest .up m q).positional)

/-- How a format writes finite floats: in positional form where the leading digit has an exponent from
-5 to 15, always with a digit on either side of the point, and otherwise with an exponent. -/
structure ExponentStyle where
  plus : Bool

def Decimal.scientific (style : ExponentStyle) (d : Decimal) : List Char :=
  let leading : Int := d.exponent + d.digits.length - 1
  if -5 ≤ leading ∧ leading ≤ 15 then
    d.positional ++ (if 0 ≤ d.exponent then ".0".toList else [])
  else
    let significand :=
      match d.digits with
      | [] => []
      | [c] => [c]
      | c :: cs => c :: '.' :: cs
    let sign := if 0 ≤ leading && style.plus then ['+'] else []
    significand ++ 'e' :: sign ++ intText leading

def finiteText (style : ExponentStyle) (x : Binary64) : List Char :=
  let body := if x.isZero then "0.0".toList else
    match x.shape with
    | .finite m q => (shortest .even m q).scientific style
    | _ => []
  if x.isNegative then '-' :: body else body

/-- The float nearest to n · 10^e. Beyond the exponents of the format the answer is known without
computing the power. -/
def ofDecimal (n : Nat) (e : Int) : Binary64 :=
  let magnitude := (Nat.toDigits 10 n).length + e
  if n = 0 ∨ magnitude < -400 then ⟨0⟩
  else if 400 < magnitude then .infinity
  else .ofFloat (if 0 ≤ e then .ofScientific n false e.toNat else .ofScientific n true (-e).toNat)

def exponent? : List Char → Option Int
  | [] => some 0
  | c :: cs => if c = 'e' ∨ c = 'E' then int? cs else none

/-- Digits, an optional point with digits around it, an optional exponent. -/
def decimal? (cs : List Char) : Option Binary64 :=
  let whole := cs.takeWhile isDigit
  let rest := cs.dropWhile isDigit
  let (fraction, rest) :=
    match rest with
    | '.' :: after => (after.takeWhile isDigit, after.dropWhile isDigit)
    | _ => ([], rest)
  if whole.isEmpty && fraction.isEmpty then none
  else
    (exponent? rest).map fun e => ofDecimal (ofDigits (whole ++ fraction)) (e - fraction.length)

def unsignedFloat? (cs : List Char) : Option Binary64 :=
  let word := String.ofList (Text.lowerAscii cs)
  if word = "inf" ∨ word = "infinity" then some .infinity
  else if word = "nan" then some .nan
  else decimal? cs

def float? : List Char → Option Binary64
  | '-' :: cs => (unsignedFloat? cs).map .neg
  | '+' :: cs => unsignedFloat? cs
  | cs => unsignedFloat? cs

end Interview.Number
