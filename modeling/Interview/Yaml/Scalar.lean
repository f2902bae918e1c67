import Interview.Number.Integer
import Interview.Yaml.Cursor

/-! Scalars in YAML text: plain, quoted, and blocks over several lines. Lines are folded: a single
line break inside becomes a blank, and of several the first is dropped. -/

namespace Interview.Yaml

/-- What separates two stretches of text: blanks on one line, or a first line break and the ones after
it. -/
structure Between where
  blanks : List Char
  firstBreak : List Char
  moreBreaks : List Char
  broken : Bool

def Between.none : Between := ⟨[], [], [], false⟩

def Between.folded (b : Between) : List Char :=
  if b.broken then
    if b.firstBreak = ['\n'] then
      if b.moreBreaks.isEmpty then [' '] else b.moreBreaks
    else b.firstBreak ++ b.moreBreaks
  else b.blanks

/-- Passes blanks and line breaks. Where a tab stands for indentation the answer is nothing. -/
def between? (tabsFrom : Nat) : Nat → Between → Cursor → Option (Between × Cursor)
  | 0, _, _ => none
  | fuel + 1, b, p =>
    match p.peek with
    | none => some (b, p)
    | some c =>
      if isWhite c then
        if b.broken then
          if c = '\t' ∧ p.column < tabsFrom then none else between? tabsFrom fuel b p.skip
        else between? tabsFrom fuel { b with blanks := b.blanks ++ [c] } p.skip
      else if isBreak c then
        let b :=
          if b.broken then { b with moreBreaks := b.moreBreaks ++ p.breakText }
          else { b with blanks := [], firstBreak := p.breakText, broken := true }
        between? tabsFrom fuel b p.skipBreak
      else some (b, p)

structure Scanned where
  text : List Char
  cursor : Cursor

def plainEnds (inFlow : Bool) (p : Cursor) : Bool :=
  match p.peek with
  | none => true
  | some c =>
    isWhite c || isBreak c || (c == ':' && p.isGapAt 1) ||
      (inFlow && (c == ',' || c == '[' || c == ']' || c == '{' || c == '}'))

def strayColon (inFlow : Bool) (p : Cursor) : Bool :=
  inFlow && p.sees ':' &&
    match p.peekAt 1 with
    | some c => c == ',' || c == '?' || c == '[' || c == ']' || c == '{' || c == '}'
    | none => false

def plainRun? (inFlow : Bool) : Nat → Cursor → Option Scanned
  | 0, _ => none
  | fuel + 1, p =>
    if p.isGapAt 0 then some ⟨[], p⟩
    else if strayColon inFlow p then none
    else if plainEnds inFlow p then some ⟨[], p⟩
    else
      match p.peek with
      | none => some ⟨[], p⟩
      | some c => (plainRun? inFlow fuel p.skip).map fun s => { s with text := c :: s.text }

/-- A plain scalar, and whether line breaks were passed after it. -/
def plain? (inFlow : Bool) (indent : Nat) :
    Nat → Between → Cursor → Option (Scanned × Bool)
  | 0, _, _ => none
  | fuel + 1, b, p =>
    if p.atAnyMark || p.sees '#' then some (⟨[], p⟩, b.broken)
    else do
      let run ← plainRun? inFlow (p.rest.length + 1) p
      let lead := if run.text.isEmpty then [] else b.folded
      let b := if run.text.isEmpty then b else .none
      if !run.cursor.isGapAt 0 || run.cursor.atEnd then some (⟨lead ++ run.text, run.cursor⟩, b.broken)
      else
        let (b, next) ← between? indent (p.rest.length + 1) b run.cursor
        if !inFlow && next.column < indent then some (⟨lead ++ run.text, next⟩, b.broken)
        else
          let (more, broken) ← plain? inFlow indent fuel b next
          some (⟨lead ++ run.text ++ more.text, more.cursor⟩, broken)

def hexEscape? (width : Nat) (p : Cursor) : Option (Char × Cursor) := do
  let ds := p.rest.take width
  let n ← Number.ofHex? ds
  if ds.length = width ∧ n.isValidChar then some (Char.ofNat n, p.skipBy width) else none

def escape? (p : Cursor) : Option (Char × Cursor) :=
  let simple (c : Char) := some (c, p.skip)
  match p.peek with
  | some '0' => simple '\x00'
  | some 'a' => simple '\x07'
  | some 'b' => simple '\x08'
  | some 't' => simple '\t'
  | some '\t' => simple '\t'
  | some 'n' => simple '\n'
  | some 'v' => simple '\x0b'
  | some 'f' => simple '\x0c'
  | some 'r' => simple '\r'
  | some 'e' => simple '\x1b'
  | some ' ' => simple ' '
  | some '"' => simple '"'
  | some '/' => simple '/'
  | some '\\' => simple '\\'
  | some 'N' => simple '\u0085'
  | some '_' => simple '\u00a0'
  | some 'L' => simple '\u2028'
  | some 'P' => simple '\u2029'
  | some 'x' => hexEscape? 2 p.skip
  | some 'u' => hexEscape? 4 p.skip
  | some 'U' => hexEscape? 8 p.skip
  | _ => none

/-- A stretch of quoted text without blanks, and whether an escaped line break ended it. -/
def quotedRun? (single : Bool) : Nat → Cursor → Option (Scanned × Bool)
  | 0, _ => none
  | fuel + 1, p =>
    if p.isGapAt 0 then some (⟨[], p⟩, false)
    else
      let push (c : Char) (next : Cursor) :=
        (quotedRun? single fuel next).map fun (s, b) => ({ s with text := c :: s.text }, b)
      match p.peek with
      | none => some (⟨[], p⟩, false)
      | some c =>
        if single then
          if c = '\'' then
            if p.peekAt 1 == some '\'' then push '\'' (p.skipBy 2) else some (⟨[], p⟩, false)
          else push c p.skip
        else if c = '"' then some (⟨[], p⟩, false)
        else if c = '\\' then
          if p.isBreakAt 1 then some (⟨[], p.skip.skipBreak⟩, true)
          else do
            let (c, next) ← escape? p.skip
            push c next
        else push c p.skip

def quoted? (single : Bool) : Nat → Cursor → Option Scanned
  | 0, _ => none
  | fuel + 1, p =>
    if p.atAnyMark || p.atEnd then none
    else do
      let (run, escapedBreak) ← quotedRun? single (p.rest.length + 1) p
      if run.cursor.sees (if single then '\'' else '"') then some ⟨run.text, run.cursor.skip⟩
      else
        let start : Between := { Between.none with broken := escapedBreak }
        let (b, next) ← between? 0 (p.rest.length + 1) start run.cursor
        let more ← quoted? single fuel next
        some ⟨run.text ++ b.folded ++ more.text, more.cursor⟩

inductive Chomp where
  | strip
  | clip
  | keep

/-- The line breaks before the next line of a block, and the block's indentation where it still has to
be found. -/
def blockBreaks? (parentIndent : Int) (indent : Nat) :
    Nat → Nat → List Char → Cursor → Option (List Char × Nat × Cursor)
  | 0, _, _, _ => none
  | fuel + 1, deepest, breaks, p =>
    let free (q : Cursor) := indent == 0 || q.column < indent
    let spaces := (p.rest.takeWhile (· == ' ')).length
    let steps := if indent == 0 then spaces else min spaces (indent - p.column)
    let p := p.skipBy steps
    let deepest := max deepest p.column
    if free p && p.sees '\t' then none
    else if p.isBreakAt 0 then
      blockBreaks? parentIndent indent fuel deepest (breaks ++ p.breakText) p.skipBreak
    else
      let found : Int := max (max (deepest : Int) (parentIndent + 1)) 1
      some (breaks, if indent == 0 then found.toNat else indent, p)

structure BlockLines where
  text : List Char
  firstBreak : List Char
  moreBreaks : List Char
  cursor : Cursor

def blockLines? (literal : Bool) (parentIndent : Int) (indent : Nat) :
    Nat → List Char → List Char → Bool → Cursor → Option BlockLines
  | 0, _, _, _, _ => none
  | fuel + 1, firstBreak, moreBreaks, afterBlank, p =>
    if p.column == indent && !p.atEnd then do
      let blank := p.isWhiteHere
      let lead :=
        if !literal && firstBreak == ['\n'] && !afterBlank && !blank then
          if moreBreaks.isEmpty then [' '] else []
        else firstBreak
      let line := p.rest.takeWhile (!isBreak ·)
      let stop := p.skipWhile (!isBreak ·)
      let (breaks, _, next) ←
        blockBreaks? parentIndent indent (p.rest.length + 1) 0 [] stop.skipBreak
      let more ← blockLines? literal parentIndent indent fuel stop.breakText breaks blank next
      some { more with text := lead ++ moreBreaks ++ line ++ more.text }
    else some ⟨[], firstBreak, moreBreaks, p⟩

def chompMark : Char → Option Chomp
  | '+' => some .keep
  | '-' => some .strip
  | _ => none

/-- The marks after the indicator of a block: how its end is cut, and a digit for its indentation. -/
def blockHeader? (p : Cursor) : Option (Chomp × Nat × Cursor) :=
  let digit? (q : Cursor) : Option (Option Nat) :=
    match q.peek with
    | some c => if c.isDigit then (if c = '0' then none else some (some (c.toNat - '0'.toNat)))
      else some none
    | none => some none
  match p.peek.bind chompMark with
  | some chomp => do
    match ← digit? p.skip with
    | some n => some (chomp, n, p.skipBy 2)
    | none => some (chomp, 0, p.skip)
  | none => do
    match ← digit? p with
    | some n =>
      match p.skip.peek.bind chompMark with
      | some chomp => some (chomp, n, p.skipBy 2)
      | none => some (.clip, n, p.skip)
    | none => some (.clip, 0, p)

def block? (literal : Bool) (parentIndent : Int) (p : Cursor) : Option Scanned := do
  let fuel := p.rest.length + 1
  let (chomp, increment, p) ← blockHeader? p
  let p := p.skipWhile isWhite
  let p := if p.sees '#' then p.skipWhile (!isBreak ·) else p
  if !p.isBreakOrEnd then none
  else
    let p := p.skipBreak
    let given : Nat :=
      if increment == 0 then 0
      else if 0 ≤ parentIndent then parentIndent.toNat + increment else increment
    let (breaks, indent, p) ← blockBreaks? parentIndent given fuel 0 [] p
    let lines ← blockLines? literal parentIndent indent fuel [] breaks false p
    let tail :=
      match chomp with
      | .strip => []
      | .clip => lines.firstBreak
      | .keep => lines.firstBreak ++ lines.moreBreaks
    some ⟨lines.text ++ tail, lines.cursor⟩

end Interview.Yaml
