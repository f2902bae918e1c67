import Interview.Json.Number

/-! Reading JSON text. Mappings keep their entries in the order written; nesting deeper than the limit
is refused. -/

namespace Interview.Json

open Number

def isSpace (c : Char) : Bool := c == ' ' || c == '\t' || c == '\n' || c == '\r'

def skipSpace (cs : List Char) : List Char := cs.dropWhile isSpace

def simpleEscape? : Char → Option Char
  | '"' => some '"'
  | '\\' => some '\\'
  | '/' => some '/'
  | 'b' => some '\x08'
  | 'f' => some '\x0c'
  | 'n' => some '\n'
  | 'r' => some '\r'
  | 't' => some '\t'
  | _ => none

/-- Four hexadecimal digits after an escape, twice for a character beyond 16 bits. -/
def unicodeEscape? (cs : List Char) : Option (Char × List Char) := do
  if cs.length < 4 then none
  else
    let high ← ofHex? (cs.take 4)
    let rest := cs.drop 4
    if 0xD800 ≤ high ∧ high < 0xDC00 then
      match rest with
      | '\\' :: 'u' :: rest =>
        if rest.length < 4 then none
        else
          let low ← ofHex? (rest.take 4)
          if 0xDC00 ≤ low ∧ low < 0xE000 then
            some (Char.ofNat (0x10000 + (high - 0xD800) * 0x400 + (low - 0xDC00)), rest.drop 4)
          else none
      | _ => none
    else if 0xDC00 ≤ high ∧ high < 0xE000 then none
    else some (Char.ofNat high, rest)

def string? : Nat → List Char → Option (List Char × List Char)
  | 0, _ => none
  | _ + 1, [] => none
  | _ + 1, '"' :: rest => some ([], rest)
  | fuel + 1, '\\' :: 'u' :: rest => do
    let (c, rest) ← unicodeEscape? rest
    let (cs, rest) ← string? fuel rest
    some (c :: cs, rest)
  | fuel + 1, '\\' :: e :: rest => do
    let c ← simpleEscape? e
    let (cs, rest) ← string? fuel rest
    some (c :: cs, rest)
  | fuel + 1, c :: rest =>
    if c.toNat < 0x20 ∨ c = '\\' then none
    else do
      let (cs, rest) ← string? fuel rest
      some (c :: cs, rest)

def key? (fuel : Nat) : List Char → Option (String × List Char)
  | '"' :: rest => (string? fuel rest).map fun (cs, rest) => (String.ofList cs, rest)
  | _ => none

def depthLimit : Nat := 127

mutual

/-- A value and the text after it. The fuel bounds the characters read, the depth the containers
still to be opened. -/
def value? : Nat → Nat → List Char → Option (Raw × List Char)
  | 0, _, _ => none
  | fuel + 1, depth, cs =>
    match skipSpace cs with
    | [] => none
    | c :: rest =>
      if c = '"' then (string? fuel rest).map fun (s, rest) => (.str (String.ofList s), rest)
      else if c = '[' then
        match depth with
        | 0 => none
        | depth + 1 =>
          match skipSpace rest with
          | ']' :: rest => some (.list [], rest)
          | rest => (items? fuel depth rest).map fun (rs, rest) => (.list rs, rest)
      else if c = '{' then
        match depth with
        | 0 => none
        | depth + 1 =>
          match skipSpace rest with
          | '}' :: rest => some (.object [], rest)
          | rest => (entries? fuel depth rest).map fun (es, rest) => (.object es, rest)
      else if c = '-' ∨ isDigit c then number? (c :: rest)
      else
        match c :: rest with
        | 'n' :: 'u' :: 'l' :: 'l' :: rest => some (.null, rest)
        | 't' :: 'r' :: 'u' :: 'e' :: rest => some (.bool true, rest)
        | 'f' :: 'a' :: 'l' :: 's' :: 'e' :: rest => some (.bool false, rest)
        | _ => none

def items? : Nat → Nat → List Char → Option (List Raw × List Char)
  | 0, _, _ => none
  | fuel + 1, depth, cs => do
    let (r, rest) ← value? fuel depth cs
    match skipSpace rest with
    | ']' :: rest => some ([r], rest)
    | ',' :: rest =>
      let (rs, rest) ← items? fuel depth rest
      some (r :: rs, rest)
    | _ => none

def entries? : Nat → Nat → List Char → Option (List (String × Raw) × List Char)
  | 0, _, _ => none
  | fuel + 1, depth, cs => do
    let (k, rest) ← key? fuel (skipSpace cs)
    match skipSpace rest with
    | ':' :: rest =>
      let (r, rest) ← value? fuel depth rest
      match skipSpace rest with
      | '}' :: rest => some ([(k, r)], rest)
      | ',' :: rest =>
        let (es, rest) ← entries? fuel depth rest
        some ((k, r) :: es, rest)
      | _ => none
    | _ => none

end

def read? (cs : List Char) : Option Raw :=
  match value? (2 * cs.length + 2) depthLimit cs with
  | some (r, rest) => if (skipSpace rest).isEmpty then some r else none
  | none => none

end Interview.Json
