import Interview.Number.FloatText
import Interview.Raw
import Interview.Yaml.Tag

/-! What a plain scalar of YAML stands for: null, a truth value, a number, or else its own text. -/

namespace Interview.Yaml.Plain

open Number

def isNull (cs : List Char) : Bool :=
  ["null".toList, "Null".toList, "NULL".toList, ['~']].contains cs

def bool? (cs : List Char) : Option Bool :=
  if ["true".toList, "True".toList, "TRUE".toList].contains cs then some true
  else if ["false".toList, "False".toList, "FALSE".toList].contains cs then some false
  else none

/-- Digits with a needless leading zero, after an optional sign: text, not a number. -/
def isZeroPadded (cs : List Char) : Bool :=
  let digits :=
    match cs with
    | '-' :: rest => rest
    | '+' :: rest => rest
    | _ => cs
  match digits with
  | '0' :: d :: rest => (d :: rest).all isDigit
  | _ => false

def radixDigit? (radix : Nat) (c : Char) : Option Nat :=
  let d :=
    if isDigit c then c.toNat - '0'.toNat
    else if 'a' ≤ c ∧ c ≤ 'z' then c.toNat - 'a'.toNat + 10
    else if 'A' ≤ c ∧ c ≤ 'Z' then c.toNat - 'A'.toNat + 10
    else radix
  if d < radix then some d else none

def radixNat? (radix : Nat) (cs : List Char) : Option Nat :=
  if cs.isEmpty then none
  else cs.foldlM (fun n c => (radixDigit? radix c).map (radix * n + ·)) 0

def markedNat? : List Char → Option Nat
  | '0' :: 'x' :: rest => radixNat? 16 rest
  | '0' :: 'o' :: rest => radixNat? 8 rest
  | '0' :: 'b' :: rest => radixNat? 2 rest
  | _ => none

def integer? (cs : List Char) : Option Int :=
  if isZeroPadded cs then none
  else
    match cs with
    | '-' :: rest => (markedNat? rest <|> nat? rest).map fun n => -(n : Int)
    | '+' :: rest => (markedNat? rest <|> nat? rest).map Int.ofNat
    | rest => (markedNat? rest <|> nat? rest).map Int.ofNat

/-- The widest integers that are still told apart from floats. -/
def isWideInteger (n : Int) : Bool :=
  -(Nat.pow 2 127 : Int) ≤ n && n < (Nat.pow 2 128 : Int)

/-- An integer that fits 64 bits, signed if negative; the outer answer is missing where the text is
no integer, the inner where the integer does not fit. -/
def fittingInteger? (cs : List Char) : Option (Option Int) :=
  match integer? cs with
  | some n =>
    if -(Nat.pow 2 63 : Int) ≤ n ∧ n < (Nat.pow 2 64 : Int) then some (some n)
    else if isWideInteger n then some none
    else none
  | none => none

def isFinite (x : Binary64) : Bool := x.exponentField != 2047

def float? (cs : List Char) : Option Binary64 :=
  let unsigned? :=
    match cs with
    | '+' :: '+' :: _ => none
    | '+' :: '-' :: _ => none
    | '+' :: rest => some rest
    | _ => some cs
  unsigned?.bind fun unsigned =>
    if [".inf".toList, ".Inf".toList, ".INF".toList].contains unsigned then some .infinity
    else if ["-.inf".toList, "-.Inf".toList, "-.INF".toList].contains cs then
      some (Binary64.neg .infinity)
    else if [".nan".toList, ".NaN".toList, ".NAN".toList].contains cs then some .nan
    else (Number.float? unsigned).filter isFinite

def value? (cs : List Char) : Option Raw :=
  if cs.isEmpty || isNull cs then some .null
  else
    match bool? cs with
    | some b => some (.bool b)
    | none =>
      match fittingInteger? cs with
      | some n => n.map .int
      | none =>
        match if isZeroPadded cs then none else float? cs with
        | some x => some (.float x)
        | none => some (.str (String.ofList cs))

/-- The meaning of a scalar with its tag. Tags of the standard schema say which meaning the text must
have, tags of other schemas make it a string, and tags local to the application are refused. A local
tag whose name is no text leaves a plain scalar its own meaning. -/
def tagged? (tag : Option Tag) (text : List Char) (plain : Bool) : Option Raw :=
  let own := if plain then value? text else some (.str (String.ofList text))
  match tag with
  | none => own
  | some tag =>
    if tag.isLocal then none
    else if tag.hasLocalMark then own
    else if tag = .standard "bool" then (bool? text).map .bool
    else if tag = .standard "int" then (fittingInteger? text).bind fun n => n.map .int
    else if tag = .standard "float" then (float? text).map .float
    else if tag = .standard "null" then (if isNull text then some .null else none)
    else some (.str (String.ofList text))

end Interview.Yaml.Plain
