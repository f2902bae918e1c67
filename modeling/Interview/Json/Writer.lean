import Interview.Number.FloatText
import Interview.Raw

/-! Writing JSON: a value on one line, and a store over several lines indented by two blanks. What
JSON has no number for is written as `null`, and a moment as a mapping with one field. -/

namespace Interview.Json

open Number

def floats : ExponentStyle := ⟨true⟩

def floatText (x : Binary64) : List Char :=
  if x.exponentField = 2047 then "null".toList else finiteText floats x

def hexDigit (n : Nat) : Char := Nat.digitChar n

def escaped (c : Char) : List Char :=
  if c = '"' then ['\\', '"']
  else if c = '\\' then ['\\', '\\']
  else if c = '\x08' then ['\\', 'b']
  else if c = '\x0c' then ['\\', 'f']
  else if c = '\n' then ['\\', 'n']
  else if c = '\r' then ['\\', 'r']
  else if c = '\t' then ['\\', 't']
  else if c.toNat < 0x20 then ['\\', 'u', '0', '0', hexDigit (c.toNat / 16), hexDigit (c.toNat % 16)]
  else [c]

def stringText (cs : List Char) : List Char := '"' :: cs.flatMap escaped ++ ['"']

def scalarText : Raw → List Char
  | .bool b => if b then "true".toList else "false".toList
  | .int n => intText n
  | .float x => floatText x
  | .str s => stringText s.toList
  | _ => "null".toList

def lineBreak (depth : Nat) : List Char := '\n' :: List.replicate (2 * depth) ' '

mutual

def valueText (depth : Nat) : Value → List Char
  | .str s => stringText s.toList
  | .int n => intText n.toInt
  | .float x => floatText x
  | .bool b => if b then "true".toList else "false".toList
  | .datetime d =>
    '{' :: lineBreak (depth + 1) ++ stringText Datetime.field.toList ++ ": ".toList ++
      stringText d.text ++ lineBreak depth ++ ['}']
  | .array [] => "[]".toList
  | .array (v :: vs) => '[' :: itemsText depth (v :: vs) ++ lineBreak depth ++ [']']
  | .table [] => ['{', '}']
  | .table (e :: es) => '{' :: entriesText depth (e :: es) ++ lineBreak depth ++ ['}']

def itemsText (depth : Nat) : List Value → List Char
  | [] => []
  | [v] => lineBreak (depth + 1) ++ valueText (depth + 1) v
  | v :: w :: vs =>
    lineBreak (depth + 1) ++ valueText (depth + 1) v ++ ',' :: itemsText depth (w :: vs)

def entriesText (depth : Nat) : List (String × Value) → List Char
  | [] => []
  | [(k, v)] =>
    lineBreak (depth + 1) ++ stringText k.toList ++ ": ".toList ++ valueText (depth + 1) v
  | (k, v) :: e :: es =>
    lineBreak (depth + 1) ++ stringText k.toList ++ ": ".toList ++ valueText (depth + 1) v ++
      ',' :: entriesText depth (e :: es)

end

def render (t : Table) : List Char := valueText 0 (.table t) ++ ['\n']

end Interview.Json
