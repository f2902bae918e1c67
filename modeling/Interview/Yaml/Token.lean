import Interview.Yaml.Scalar
import Interview.Yaml.Tag

/-! Tokens of YAML text. Indentation becomes tokens that open and close blocks. A key on one line is
recognised only at its colon, so the token that marks it is put in before it afterwards. -/

namespace Interview.Yaml

inductive Token where
  | streamEnd
  | version (major minor : Nat)
  | tagDirective (handle : List Char) (tagPrefix : Tag)
  | documentStart
  | documentEnd
  | blockSequenceStart
  | blockMappingStart
  | blockEnd
  | flowSequenceStart
  | flowSequenceEnd
  | flowMappingStart
  | flowMappingEnd
  | blockEntry
  | flowEntry
  | key
  | value
  | anchor (name : List Char)
  | alias (name : List Char)
  | tag (handle : List Char) (suffix : Tag)
  | scalar (text : List Char) (plain : Bool)
deriving DecidableEq, Inhabited

structure PossibleKey where
  required : Bool
  token : Nat
  index : Nat
  line : Nat
  column : Nat

/-- The scanner's state. The keys are one for each open flow collection and one for the block around
them, innermost first. -/
structure Scanner where
  cursor : Cursor
  indent : Int
  indents : List Int
  keyAllowed : Bool
  keys : List (Option PossibleKey)
  tokens : Array Token

namespace Scanner

def start (cs : List Char) : Scanner := ⟨Cursor.start cs, -1, [], true, [none], #[]⟩

def inFlow (s : Scanner) : Bool := 1 < s.keys.length

def emit (t : Token) (s : Scanner) : Scanner := { s with tokens := s.tokens.push t }

def advance (s : Scanner) : Scanner := { s with cursor := s.cursor.skip }

def allowKey (b : Bool) (s : Scanner) : Scanner := { s with keyAllowed := b }

/-- Gives up the innermost possible key, unless its place can hold nothing else. -/
def dropKey? (s : Scanner) : Option Scanner :=
  match s.keys with
  | some k :: outer => if k.required then none else some { s with keys := none :: outer }
  | _ => some s

def saveKey? (s : Scanner) : Option Scanner :=
  if s.keyAllowed then do
    let s ← s.dropKey?
    let p := s.cursor
    let required := !s.inFlow && s.indent == (p.column : Int)
    some { s with keys := some ⟨required, s.tokens.size, p.index, p.line, p.column⟩ :: s.keys.tail }
  else some s

/-- A key ends on its line and within a bounded length. -/
def keyLimit : Nat := 1024

def dropStaleKeys? (s : Scanner) : Option Scanner := do
  let fresh (k : PossibleKey) := !(k.line < s.cursor.line || k.index + keyLimit < s.cursor.index)
  let keys ← s.keys.mapM fun key =>
    match key with
    | none => some none
    | some k => if fresh k then some (some k) else if k.required then none else some none
  some { s with keys }

def roll (column : Nat) (at? : Option Nat) (opening : Token) (s : Scanner) : Scanner :=
  if s.inFlow || (column : Int) ≤ s.indent then s
  else
    let tokens :=
      match at? with
      | some n => s.tokens.insertIdxIfInBounds n opening
      | none => s.tokens.push opening
    { s with indents := s.indent :: s.indents, indent := column, tokens }

def unrollBlocks (column : Int) : List Int → Int → Array Token → List Int × Int × Array Token
  | [], indent, tokens => ([], indent, tokens)
  | outer :: indents, indent, tokens =>
    if column < indent then unrollBlocks column indents outer (tokens.push .blockEnd)
    else (outer :: indents, indent, tokens)

def unroll (column : Int) (s : Scanner) : Scanner :=
  if s.inFlow then s
  else
    let (indents, indent, tokens) := unrollBlocks column s.indents s.indent s.tokens
    { s with indents, indent, tokens }

/-- Passes blanks, comments and line ends, and a byte order mark at the start of a line. A tab counts
as blank only where no key may start. -/
def toNextToken : Nat → Scanner → Scanner
  | 0, s => s
  | fuel + 1, s =>
    let p := s.cursor
    let p := if p.column == 0 && p.sees '\uFEFF' then p.skip else p
    let tabs := s.inFlow || !s.keyAllowed
    let p := p.skipWhile fun c => c == ' ' || (tabs && c == '\t')
    let p := if p.sees '#' then p.skipWhile (!isBreak ·) else p
    if p.isBreakAt 0 then
      toNextToken fuel { s with cursor := p.skipBreak, keyAllowed := s.keyAllowed || !s.inFlow }
    else { s with cursor := p }

def number? (p : Cursor) : Option (Nat × Cursor) :=
  let ds := p.rest.takeWhile Char.isDigit
  if ds.isEmpty ∨ 9 < ds.length then none
  else some (ds.foldl (fun n c => 10 * n + (c.toNat - '0'.toNat)) 0, p.skipBy ds.length)

def tag? (inFlow : Bool) (p : Cursor) : Option (Token × Cursor) := do
  let (token, p) ←
    if p.peekAt 1 == some '<' then do
      let (uri, p) ← (p.skipBy 2).tagBytes? true []
      if p.sees '>' then some (Token.tag [] uri, p.skip) else none
    else do
      let (handle, p) ← p.tagHandle? false
      if 2 ≤ handle.length && handle.getLast? == some '!' then
        let (suffix, p) ← p.tagBytes? false []
        some (Token.tag handle suffix, p)
      else
        let (suffix, p) ← p.tagBytes? false handle
        some (if suffix.isEmpty then Token.tag [] [Tag.localMark] else Token.tag ['!'] suffix, p)
  if (inFlow && p.sees ',') || p.isGapAt 0 then some (token, p) else none

def anchorName? (p : Cursor) : Option (List Char × Cursor) :=
  let (name, p) := p.nameAndRest
  let closed := p.isGapAt 0 ||
    match p.peek with
    | some c => "?:,]\x7d%@\x60".toList.contains c
    | none => false
  if name.isEmpty || !closed then none else some (name, p)

def directive? (p : Cursor) : Option (Token × Cursor) := do
  let (name, p) := p.skip.nameAndRest
  if name.isEmpty || !p.isGapAt 0 then none
  else
    let p := p.skipWhile isWhite
    let (token, p) ←
      if name = "YAML".toList then do
        let (major, p) ← number? p
        if p.sees '.' then
          let (minor, p) ← number? p.skip
          some (Token.version major minor, p)
        else none
      else if name = "TAG".toList then do
        let (handle, p) ← p.tagHandle? true
        if !p.isWhiteHere then none
        else
          let (uri, p) ← (p.skipWhile isWhite).tagBytes? true []
          if p.isGapAt 0 then some (Token.tagDirective handle uri, p) else none
      else none
    let p := p.skipWhile isWhite
    let p := if p.sees '#' then p.skipWhile (!isBreak ·) else p
    if p.isBreakOrEnd then some (token, p.skipBreak) else none

def flowStart? (t : Token) (s : Scanner) : Option Scanner := do
  let s ← s.saveKey?
  some ({ s with keys := none :: s.keys }.allowKey true |>.advance.emit t)

def flowEnd? (t : Token) (s : Scanner) : Option Scanner := do
  let s ← s.dropKey?
  let keys := if s.inFlow then s.keys.tail else s.keys
  some ({ s with keys }.allowKey false |>.advance.emit t)

def flowEntry? (s : Scanner) : Option Scanner := do
  let s ← s.dropKey?
  some ((s.allowKey true).advance.emit .flowEntry)

def blockEntry? (s : Scanner) : Option Scanner := do
  if !s.inFlow && !s.keyAllowed then none
  else
    let s := s.roll s.cursor.column none .blockSequenceStart
    let s ← s.dropKey?
    some ((s.allowKey true).advance.emit .blockEntry)

def key? (s : Scanner) : Option Scanner := do
  if !s.inFlow && !s.keyAllowed then none
  else
    let s := s.roll s.cursor.column none .blockMappingStart
    let s ← s.dropKey?
    some ((s.allowKey !s.inFlow).advance.emit .key)

def value? (s : Scanner) : Option Scanner :=
  match s.keys with
  | some k :: outer =>
    let s := { s with tokens := s.tokens.insertIdxIfInBounds k.token .key }
    let s := s.roll k.column (some k.token) .blockMappingStart
    some (({ s with keys := none :: outer }.allowKey false).advance.emit .value)
  | _ =>
    if !s.inFlow && !s.keyAllowed then none
    else
      let s := s.roll s.cursor.column none .blockMappingStart
      some ((s.allowKey !s.inFlow).advance.emit .value)

/-- An anchor, an alias, a tag or a scalar, which may turn out to be a key. -/
def content? (s : Scanner) (scan : Cursor → Option (Token × Cursor)) : Option Scanner := do
  let s ← s.saveKey?
  let (token, cursor) ← scan s.cursor
  some ({ s with cursor }.allowKey false |>.emit token)

def quoted? (single : Bool) (p : Cursor) : Option (Token × Cursor) :=
  (Yaml.quoted? single (p.rest.length + 1) p.skip).map fun r => (.scalar r.text false, r.cursor)

def block? (literal : Bool) (s : Scanner) : Option Scanner := do
  let s ← s.dropKey?
  let r ← Yaml.block? literal s.indent s.cursor.skip
  some ({ s with cursor := r.cursor }.allowKey true |>.emit (.scalar r.text false))

def plain? (s : Scanner) : Option Scanner := do
  let s ← s.saveKey?
  let p := s.cursor
  let (r, broken) ← Yaml.plain? s.inFlow (s.indent + 1).toNat (p.rest.length + 1) .none p
  some ({ s with cursor := r.cursor }.allowKey broken |>.emit (.scalar r.text true))

def startsPlain (s : Scanner) (c : Char) : Bool :=
  let p := s.cursor
  let indicator := "-?:,[]\x7b\x7d#&*!|>'\"%@\x60".toList.contains c
  (!isWhite c && !isBreak c && !indicator) ||
    (c == '-' && !(p.peekAt 1 |>.any isWhite)) ||
    (!s.inFlow && (c == '?' || c == ':') && !p.isGapAt 1)

def documentMark? (t : Token) (s : Scanner) : Option Scanner := do
  let s ← (s.unroll (-1)).dropKey?
  some ({ s with cursor := s.cursor.skipBy 3 }.allowKey false |>.emit t)

/-- The next token, or at the end of the text the tokens that close it. -/
def next? (s : Scanner) : Option Scanner := do
  let s := s.toNextToken (s.cursor.rest.length + 1)
  let s ← s.dropStaleKeys?
  let s := s.unroll s.cursor.column
  let p := s.cursor
  let gap := p.isGapAt 1
  match p.peek with
  | none =>
    let s ← (s.unroll (-1)).dropKey?
    some (s.emit .streamEnd)
  | some c =>
    if p.column == 0 && c == '%' then
      let s ← (s.unroll (-1)).dropKey?
      let (token, cursor) ← directive? p
      some ({ s with cursor }.allowKey false |>.emit token)
    else if p.atDocumentMark '-' then s.documentMark? .documentStart
    else if p.atDocumentMark '.' then s.documentMark? .documentEnd
    else if c = '[' then s.flowStart? .flowSequenceStart
    else if c = '{' then s.flowStart? .flowMappingStart
    else if c = ']' then s.flowEnd? .flowSequenceEnd
    else if c = '}' then s.flowEnd? .flowMappingEnd
    else if c = ',' then s.flowEntry?
    else if c = '-' ∧ gap then s.blockEntry?
    else if c = '?' ∧ (s.inFlow ∨ gap) then s.key?
    else if c = ':' ∧ (s.inFlow ∨ gap) then s.value?
    else if c = '*' then s.content? fun p =>
      (anchorName? p.skip).map fun (name, p) => (.alias name, p)
    else if c = '&' then s.content? fun p =>
      (anchorName? p.skip).map fun (name, p) => (.anchor name, p)
    else if c = '!' then s.content? (tag? s.inFlow)
    else if c = '|' ∧ !s.inFlow then s.block? true
    else if c = '>' ∧ !s.inFlow then s.block? false
    else if c = '\'' then s.content? (quoted? true)
    else if c = '"' then s.content? (quoted? false)
    else if s.startsPlain c then s.plain?
    else none

def all? : Nat → Scanner → Option (Array Token)
  | 0, _ => none
  | fuel + 1, s => do
    let s ← s.next?
    if s.tokens.back? == some .streamEnd then some s.tokens else all? fuel s

end Scanner

def Token.scan? (cs : List Char) : Option (List Token) :=
  if cs.all isAllowed then
    (Scanner.all? (cs.length + 2) (.start cs)).map Array.toList
  else none

end Interview.Yaml
