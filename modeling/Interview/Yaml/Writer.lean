import Interview.Yaml.Quoting

/-! Writing a table as YAML in block style. Nested blocks are indented by two blanks, except lists
under a key, which keep the indentation of the key. -/

namespace Interview.Yaml

open Number

/-- The text so far, last character first, and where it stands: the column, whether a blank or the
start of a line is behind, and whether only indentation is behind on this line. -/
structure Page where
  reversed : List Char
  column : Nat
  spaced : Bool
  fresh : Bool

namespace Page

def start : Page := ⟨[], 0, true, true⟩

def put (c : Char) (p : Page) : Page := { p with reversed := c :: p.reversed, column := p.column + 1 }

def puts (cs : List Char) (p : Page) : Page := cs.foldl (fun p c => p.put c) p

def newline (c : Char) (p : Page) : Page := { p with reversed := c :: p.reversed, column := 0 }

def settle (spaced fresh : Bool) (p : Page) : Page := { p with spaced, fresh }

/-- Goes to an indentation, on a new line unless only less indentation is behind. -/
def indentTo (indent : Int) (p : Page) : Page :=
  let indent := indent.toNat
  let p := if !p.fresh || indent < p.column || (indent == p.column && !p.spaced) then p.newline '\n'
    else p
  (p.puts (List.replicate (indent - p.column) ' ')).settle true true

def gap (p : Page) : Page := if p.spaced then p else p.put ' '

/-- A mark of the markup; `fresh` says whether what follows may open a block on the same line. -/
def mark (cs : List Char) (p : Page) : Page := (p.puts cs).settle false false

def blockMark (c : Char) (p : Page) : Page := (p.gap.put c).settle false p.fresh

def plain (cs : List Char) (p : Page) : Page := (p.gap.puts cs).settle false false

/-- Text whose line breaks stand as they are; after a break the indentation is filled up. -/
def broken (indent : Int) (doubled : Bool) : Bool → List Char → Page → Page
  | _, [], p => p
  | atBreak, c :: cs, p =>
    if isBreak c then
      let p := if doubled && !atBreak && c = '\n' then p.newline '\n' else p
      broken indent doubled true cs { p.newline c with fresh := true }
    else
      let p := if atBreak then p.indentTo indent else p
      broken indent doubled false cs { p.put c with fresh := false }

def single (indent : Int) (cs : List Char) (p : Page) : Page :=
  let p := p.gap.mark ['\'']
  let p := p.broken indent true false (cs.flatMap fun c => if c = '\'' then [c, c] else [c])
  let p := if cs.getLast?.any isBreak then p.indentTo indent else p
  p.mark ['\'']

def double (cs : List Char) (p : Page) : Page :=
  ((p.gap.mark ['"']).puts (cs.flatMap escaped)).mark ['"']

def chompMark (cs : List Char) : List Char :=
  match cs.reverse with
  | [] => ['-']
  | c :: before =>
    if !isBreak c then ['-']
    else
      match before with
      | [] => ['+']
      | d :: _ => if isBreak d then ['+'] else []

def literal (indent : Int) (cs : List Char) (p : Page) : Page :=
  let hint := if cs.head?.any fun c => c == ' ' || isBreak c then ['2'] else []
  let p := p.gap.mark ('|' :: hint ++ chompMark cs)
  (({ p.newline '\n' with spaced := true, fresh := true }).broken indent false true cs)

end Page

/-- The indentation of a block or, where `flow` is set, of a scalar inside the given one. -/
def deeper (flow indentless : Bool) (indent : Int) : Int :=
  if indent < 0 then (if flow then 2 else 0) else if indentless then indent else indent + 2

def writeString (isKey : Bool) (indent : Int) (cs : List Char) (p : Page) : Page :=
  let indent := deeper true false indent
  match quotingOf isKey cs with
  | .plain => p.plain cs
  | .single => p.single indent cs
  | .double => p.double cs
  | .literal => p.literal indent cs

def floatText (x : Binary64) : List Char :=
  if x.exponentField = 2047 then
    (if x.isNaN then ".nan" else if x.isNegative then "-.inf" else ".inf").toList
  else finiteText ⟨false⟩ x

/-- A key of at most this many bytes without a line break stands on one line with its value. -/
def simpleKeyLimit : Nat := 128

def isSimpleKey (key : String) : Bool :=
  key.utf8ByteSize ≤ simpleKeyLimit && !key.toList.any isBreak

mutual

def writeValue (indent : Int) (underKey : Bool) : Value → Page → Page
  | .str s, p => writeString false indent s.toList p
  | .int n, p => p.plain (intText n.toInt)
  | .float x, p => p.plain (floatText x)
  | .bool b, p => p.plain (if b then "true".toList else "false".toList)
  | .datetime d, p =>
    let inner := deeper false false indent
    let p := writeString true inner Datetime.field.toList (p.indentTo inner)
    writeString false inner d.text (p.mark [':'])
  | .array [], p => p.gap.mark "[]".toList
  | .array (v :: vs), p => writeItems (deeper false (underKey && !p.fresh) indent) (v :: vs) p
  | .table [], p => p.gap.mark ['{', '}']
  | .table (e :: es), p => writeEntries (deeper false false indent) (e :: es) p

def writeItems (indent : Int) : List Value → Page → Page
  | [], p => p
  | v :: vs, p => writeItems indent vs (writeValue indent false v ((p.indentTo indent).blockMark '-'))

def writeEntries (indent : Int) : List (String × Value) → Page → Page
  | [], p => p
  | (key, v) :: rest, p =>
    let p := p.indentTo indent
    let p :=
      if isSimpleKey key then (writeString true indent key.toList p).mark [':']
      else
        ((writeString false indent key.toList (p.blockMark '?')).indentTo indent).blockMark ':'
    writeEntries indent rest (writeValue indent true v p)

end

def render (t : Table) : List Char :=
  ((writeValue (-1) false (.table t) .start).indentTo 0).reversed.reverse

end Interview.Yaml
