import Interview.Number.FloatText
import Interview.Value

/-! Scalars in TOML text: strings in four forms, numbers with underscores, dates and times. A reader
takes the longest scalar at the start of the text and gives back the rest. -/

namespace Interview.Toml

open Number

def isWs (c : Char) : Bool := c == ' ' || c == '\t'

def newline? : List Char → Option (List Char)
  | '\n' :: cs => some cs
  | '\r' :: '\n' :: cs => some cs
  | _ => none

def skipNewline (cs : List Char) : List Char := (newline? cs).getD cs

def isNonAscii (c : Char) : Bool := 0x80 ≤ c.toNat

def isCommentChar (c : Char) : Bool :=
  c == '\t' || (0x20 ≤ c.toNat && c.toNat ≤ 0x7e) || isNonAscii c

def isLiteralChar (c : Char) : Bool := isCommentChar c && c != '\''

def isBasicChar (c : Char) : Bool := isCommentChar c && c != '"' && c != '\\'

def radixValue (radix : Nat) (cs : List Char) : Nat :=
  cs.foldl (fun n c => radix * n + (hexValue? c).getD 0) 0

def codePoint? (width : Nat) (cs : List Char) : Option (Char × List Char) :=
  let ds := cs.take width
  let n := radixValue 16 ds
  if ds.length = width ∧ ds.all (hexValue? · |>.isSome) ∧ n.isValidChar then
    some (Char.ofNat n, cs.drop width)
  else none

def escape? : List Char → Option (Char × List Char)
  | 'b' :: cs => some ('\x08', cs)
  | 't' :: cs => some ('\t', cs)
  | 'n' :: cs => some ('\n', cs)
  | 'f' :: cs => some ('\x0c', cs)
  | 'r' :: cs => some ('\r', cs)
  | '"' :: cs => some ('"', cs)
  | '\\' :: cs => some ('\\', cs)
  | 'u' :: cs => codePoint? 4 cs
  | 'U' :: cs => codePoint? 8 cs
  | _ => none

def push (c : Char) : Option (List Char × List Char) → Option (List Char × List Char)
  | some (body, rest) => some (c :: body, rest)
  | none => none

def basicBody? : Nat → List Char → Option (List Char × List Char)
  | 0, _ => none
  | _ + 1, [] => none
  | _ + 1, '"' :: rest => some ([], rest)
  | fuel + 1, '\\' :: rest => do
    let (c, rest) ← escape? rest
    push c (basicBody? fuel rest)
  | fuel + 1, c :: rest => if isBasicChar c then push c (basicBody? fuel rest) else none

def literalBody? (cs : List Char) : Option (List Char × List Char) :=
  match cs.dropWhile isLiteralChar with
  | '\'' :: rest => some (cs.takeWhile isLiteralChar, rest)
  | _ => none

/-- A run of quotes inside a string over several lines: one or two belong to the text, and of three to
five the last three close it. -/
def closing? (quote : Char) (cs : List Char) : Option (List Char × List Char) :=
  let run := (cs.takeWhile (· == quote)).length
  if 3 ≤ run ∧ run ≤ 5 then some (List.replicate (run - 3) quote, cs.drop run) else none

def dropBlankLines : List Char → List Char
  | '\r' :: '\n' :: cs => dropBlankLines cs
  | c :: cs => if isWs c ∨ c = '\n' then dropBlankLines cs else c :: cs
  | [] => []

/-- A backslash at the end of a line swallows all blanks and line ends up to the next text. -/
def lineContinuation? (cs : List Char) : Option (List Char) :=
  (newline? (cs.dropWhile isWs)).map dropBlankLines

def multiBasicBody? : Nat → List Char → Option (List Char × List Char)
  | 0, _ => none
  | _ + 1, [] => none
  | fuel + 1, '"' :: rest =>
    match closing? '"' ('"' :: rest) with
    | some found => some found
    | none =>
      if rest.take 2 = ['"', '"'] then none else push '"' (multiBasicBody? fuel rest)
  | fuel + 1, '\\' :: rest =>
    match lineContinuation? rest with
    | some rest => multiBasicBody? fuel rest
    | none => do
      let (c, rest) ← escape? rest
      push c (multiBasicBody? fuel rest)
  | fuel + 1, c :: rest =>
    match newline? (c :: rest) with
    | some rest => push '\n' (multiBasicBody? fuel rest)
    | none => if isBasicChar c then push c (multiBasicBody? fuel rest) else none

def multiLiteralBody? : Nat → List Char → Option (List Char × List Char)
  | 0, _ => none
  | _ + 1, [] => none
  | fuel + 1, '\'' :: rest =>
    match closing? '\'' ('\'' :: rest) with
    | some found => some found
    | none =>
      if rest.take 2 = ['\'', '\''] then none else push '\'' (multiLiteralBody? fuel rest)
  | fuel + 1, c :: rest =>
    match newline? (c :: rest) with
    | some rest => push '\n' (multiLiteralBody? fuel rest)
    | none => if isLiteralChar c then push c (multiLiteralBody? fuel rest) else none

def string? (cs : List Char) : Option (List Char × List Char) :=
  let fuel := cs.length + 1
  match cs with
  | '"' :: '"' :: '"' :: rest => multiBasicBody? fuel (skipNewline rest)
  | '\'' :: '\'' :: '\'' :: rest => multiLiteralBody? fuel (skipNewline rest)
  | '"' :: rest => basicBody? fuel rest
  | '\'' :: rest => literalBody? rest
  | _ => none

/-- Digits with single underscores between them: the digits alone, and the rest. -/
def digitRun (isD : Char → Bool) : List Char → List Char × List Char
  | [] => ([], [])
  | '_' :: c :: cs =>
    if isD c then
      let (ds, rest) := digitRun isD cs
      (c :: ds, rest)
    else ([], '_' :: c :: cs)
  | c :: cs =>
    if isD c then
      let (ds, rest) := digitRun isD cs
      (c :: ds, rest)
    else ([], c :: cs)

def digits? (isD : Char → Bool) : List Char → Option (List Char × List Char)
  | c :: cs =>
    if isD c then
      let (ds, rest) := digitRun isD cs
      some (c :: ds, rest)
    else none
  | [] => none

def takeSign : List Char → List Char × List Char
  | '+' :: cs => ([], cs)
  | '-' :: cs => (['-'], cs)
  | cs => ([], cs)

/-- A sign and digits; a leading zero stands alone. -/
def decimalInt? (cs : List Char) : Option (List Char × List Char) := do
  let (sign, cs) := takeSign cs
  match cs with
  | '0' :: rest => some (sign ++ ['0'], rest)
  | _ =>
    let (ds, rest) ← digits? isDigit cs
    some (sign ++ ds, rest)

def exponent? : List Char → Option (List Char × List Char)
  | c :: cs =>
    if c = 'e' ∨ c = 'E' then do
      let (sign, cs) := takeSign cs
      let (ds, rest) ← digits? isDigit cs
      some ('e' :: sign ++ ds, rest)
    else none
  | [] => none

def fraction? : List Char → Option (List Char × List Char)
  | '.' :: cs => do
    let (ds, rest) ← digits? isDigit cs
    some ('.' :: ds, rest)
  | _ => none

def specialFloat? (cs : List Char) : Option (Binary64 × List Char) :=
  let (sign, rest) := takeSign cs
  let signed (x : Binary64) := if sign.isEmpty then x else x.neg
  match rest with
  | 'i' :: 'n' :: 'f' :: rest => some (signed .infinity, rest)
  | 'n' :: 'a' :: 'n' :: rest => some (signed .nan, rest)
  | _ => none

/-- A float with a point or an exponent. One that is too large is refused. -/
def pointFloat? (cs : List Char) : Option (Binary64 × List Char) := do
  let (whole, rest) ← decimalInt? cs
  let (tail, rest) ←
    match exponent? rest with
    | some found => some found
    | none =>
      match fraction? rest with
      | some (fraction, rest) =>
        match exponent? rest with
        | some (exponent, rest) => some (fraction ++ exponent, rest)
        | none => some (fraction, rest)
      | none => none
  let x ← float? (whole ++ tail)
  if x = .infinity then none else some (x, rest)

def radixInt? (radix : Nat) (isD : Char → Bool) (cs : List Char) :
    Option (Int × List Char) := do
  let (ds, rest) ← digits? isD cs
  some (radixValue radix ds, rest)

def integer? (cs : List Char) : Option (Int × List Char) :=
  match cs with
  | '0' :: 'x' :: rest => radixInt? 16 (hexValue? · |>.isSome) rest
  | '0' :: 'o' :: rest => radixInt? 8 (fun c => '0' ≤ c && c ≤ '7') rest
  | '0' :: 'b' :: rest => radixInt? 2 (fun c => c == '0' || c == '1') rest
  | _ => do
    let (text, rest) ← decimalInt? cs
    let n ← int? text
    some (n, rest)

def datetime? (cs : List Char) : Option (Datetime × List Char) :=
  match Date.read? cs with
  | some (date, rest) =>
    let moment? := do
      match rest with
      | c :: after =>
        if c = 'T' ∨ c = 't' ∨ c = ' ' then
          let (time, rest) ← Time.read? after
          match Offset.read? rest with
          | some (offset, rest) => some (Datetime.mk (some date) (some time) (some offset), rest)
          | none => some (Datetime.mk (some date) (some time) none, rest)
        else none
      | [] => none
    some (moment?.getD (⟨some date, none, none⟩, rest))
  | none => (Time.read? cs).map fun (time, rest) => (⟨none, some time, none⟩, rest)

def number? (cs : List Char) : Option (Value × List Char) :=
  match datetime? cs with
  | some (d, rest) => some (.datetime d, rest)
  | none =>
    match pointFloat? cs with
    | some (x, rest) => some (.float x, rest)
    | none =>
      match specialFloat? cs with
      | some (x, rest) => some (.float x, rest)
      | none => do
        let (n, rest) ← integer? cs
        let n ← toInt64? n
        some (.int n, rest)

def scalar? (cs : List Char) : Option (Value × List Char) :=
  match cs with
  | 't' :: 'r' :: 'u' :: 'e' :: rest => some (.bool true, rest)
  | 'f' :: 'a' :: 'l' :: 's' :: 'e' :: rest => some (.bool false, rest)
  | c :: _ =>
    if c = '"' ∨ c = '\'' then
      (string? cs).map fun (body, rest) => (.str (String.ofList body), rest)
    else number? cs
  | [] => none

end Interview.Toml
