import Interview.Value
import Interview.Number.FloatText

/-! Values and keys as TOML writes them on one line. A string takes the first of these forms that can
hold it without an escape: plain, literal, plain over several lines, literal over several lines; if
none can, it is escaped. -/

namespace Interview.Toml

open Number

/-- What decides the form of a string: the longest runs of either quote, and which escapes it needs. -/
structure Metrics where
  singleRun : Nat
  doubleRun : Nat
  backslash : Bool
  newline : Bool
  control : Bool

def longestRun (c : Char) (cs : List Char) : Nat :=
  (cs.foldl (fun (best, run) d => if d = c then (max best (run + 1), run + 1) else (best, 0))
    (0, 0)).1

/-- A control character other than the tab. -/
def isControl (c : Char) : Bool := (c.toNat ≤ 0x1f && c != '\t') || c.toNat == 0x7f

def Metrics.of (cs : List Char) : Metrics where
  singleRun := longestRun '\'' cs
  doubleRun := longestRun '"' cs
  backslash := cs.contains '\\'
  newline := cs.contains '\n'
  control := cs.any fun c => isControl c && c != '\n'

inductive Quoting where
  | basic
  | literal
  | multiBasic
  | multiLiteral
deriving DecidableEq

def Metrics.quoting (m : Metrics) : Quoting :=
  if !m.control && !m.backslash && m.doubleRun == 0 && !m.newline then .basic
  else if !m.control && m.singleRun == 0 && !m.newline then .literal
  else if !m.control && !m.backslash && m.doubleRun ≤ 2 then .multiBasic
  else if !m.control && m.singleRun ≤ 2 then .multiLiteral
  else if m.newline then .multiBasic
  else .basic

def hexDigit (n : Nat) : Char := (Nat.digitChar n).toUpper

def hex4 (n : Nat) : List Char :=
  [hexDigit (n / 4096 % 16), hexDigit (n / 256 % 16), hexDigit (n / 16 % 16), hexDigit (n % 16)]

def escaped (c : Char) : List Char :=
  if c = '\x08' then ['\\', 'b']
  else if c = '\t' then ['\\', 't']
  else if c = '\n' then ['\\', 'n']
  else if c = '\x0c' then ['\\', 'f']
  else if c = '\r' then ['\\', 'r']
  else if c = '\\' then ['\\', '\\']
  else if c.toNat ≤ 0x1f ∨ c.toNat = 0x7f then '\\' :: 'u' :: hex4 c.toNat
  else [c]

/-- The inside of a quoted string. Over several lines a line feed stands for itself, and only a third
double quote in a row is escaped. -/
def escapedBody (multi : Bool) : Nat → List Char → List Char
  | _, [] => []
  | run, c :: cs =>
    if c = '"' then
      if multi ∧ run < 2 then '"' :: escapedBody multi (run + 1) cs
      else '\\' :: '"' :: escapedBody multi 0 cs
    else if multi ∧ c = '\n' then '\n' :: escapedBody multi 0 cs
    else escaped c ++ escapedBody multi 0 cs

def quoted (q : Quoting) (cs : List Char) : List Char :=
  let firstBreak := if cs.contains '\n' then ['\n'] else []
  match q with
  | .basic => '"' :: escapedBody false 0 cs ++ ['"']
  | .literal => '\'' :: cs ++ ['\'']
  | .multiBasic =>
    let mark := ['"', '"', '"']
    mark ++ firstBreak ++ escapedBody true 0 cs ++ mark
  | .multiLiteral =>
    let mark := ['\'', '\'', '\'']
    mark ++ firstBreak ++ cs ++ mark

def stringText (cs : List Char) : List Char := quoted (Metrics.of cs).quoting cs

def isBareKeyChar (c : Char) : Bool :=
  ('a' ≤ c && c ≤ 'z') || ('A' ≤ c && c ≤ 'Z') || isDigit c || c == '-' || c == '_'

def keyText (cs : List Char) : List Char :=
  let m := Metrics.of cs
  if !cs.isEmpty && cs.all isBareKeyChar then cs
  else if !m.control && !m.newline && !m.backslash && m.doubleRun == 0 then quoted .basic cs
  else if !m.control && !m.newline && m.singleRun == 0 then quoted .literal cs
  else quoted .basic cs

/-- A float is never mistaken for an integer: a whole number gets one decimal place. -/
def floatLiteral (x : Binary64) : List Char :=
  let sign := if x.isNegative then ['-'] else []
  if x.isNaN then sign ++ "nan".toList
  else if x.toInt?.isSome then floatText x ++ ".0".toList
  else floatText x

mutual

def inlineText : Value → List Char
  | .str s => stringText s.toList
  | .int n => intText n.toInt
  | .float x => floatLiteral x
  | .bool b => if b then "true".toList else "false".toList
  | .datetime d => d.text
  | .array items => '[' :: itemsText items ++ [']']
  | .table [] => ['{', '}']
  | .table (e :: es) => ['{', ' '] ++ entriesText (e :: es) ++ [' ', '}']

def itemsText : List Value → List Char
  | [] => []
  | [v] => inlineText v
  | v :: w :: vs => inlineText v ++ ", ".toList ++ itemsText (w :: vs)

def entriesText : List (String × Value) → List Char
  | [] => []
  | [(k, v)] => keyText k.toList ++ " = ".toList ++ inlineText v
  | (k, v) :: e :: es =>
    keyText k.toList ++ " = ".toList ++ inlineText v ++ ", ".toList ++ entriesText (e :: es)

end

/-- A value as text of its own; a lone moment shows the field that wraps it. -/
def valueText : Value → List Char
  | .datetime d =>
    ['{', ' '] ++ keyText Datetime.field.toList ++ " = ".toList ++ stringText d.text ++ [' ', '}']
  | v => inlineText v

end Interview.Toml
