import Interview.Toml.Layout

/-! Reading a TOML document. Lines are taken one at a time: a pair goes into the table of the last
header, and the text between lines is kept for the next key or header. A table is given only once. -/

namespace Interview.Toml

def consumed (cs rest : List Char) : List Char := cs.take (cs.length - rest.length)

def simpleKey? (cs : List Char) : Option (String × List Char) :=
  match cs with
  | '"' :: rest => (basicBody? cs.length rest).map fun (body, rest) => (String.ofList body, rest)
  | '\'' :: rest => (literalBody? rest).map fun (body, rest) => (String.ofList body, rest)
  | _ =>
    let name := cs.takeWhile isBareKeyChar
    if name.isEmpty then none else some (String.ofList name, cs.dropWhile isBareKeyChar)

/-- The keys of a dotted key, each with the blanks around it as its inner decor. -/
def keyParts? : Nat → List Char → Option (List Key × List Char)
  | 0, _ => none
  | fuel + 1, cs => do
    let start := cs.dropWhile isWs
    let (name, rest) ← simpleKey? start
    let after := rest.dropWhile isWs
    let key : Key :=
      ⟨name, consumed start rest, .unset, ⟨some (cs.takeWhile isWs), some (rest.takeWhile isWs)⟩⟩
    match after with
    | '.' :: more =>
      let (keys, rest) ← keyParts? fuel more
      some (key :: keys, rest)
    | _ => some ([key], after)

/-- The blanks around a whole dotted key belong to its last part. -/
def settleKeys : List Key → List Key
  | [] => []
  | first :: more =>
    let start := first.inner.before
    let first := { first with inner := { first.inner with before := some [] } }
    match (first :: more).reverse with
    | [] => []
    | last :: before =>
      let last :=
        { last with
          outer := ⟨start, last.inner.after⟩
          inner := { last.inner with after := some [] } }
      (last :: before).reverse

def nestingLimit : Nat := 80

def keyPath? (cs : List Char) : Option (List Key × List Char) := do
  let (keys, rest) ← keyParts? (cs.length + 1) cs
  if nestingLimit ≤ keys.length then none else some (settleKeys keys, rest)

def skipFiller : Nat → List Char → List Char
  | 0, cs => cs
  | fuel + 1, cs =>
    match cs with
    | '#' :: rest =>
      match newline? (rest.dropWhile isCommentChar) with
      | some rest => skipFiller fuel rest
      | none => cs
    | c :: rest =>
      if isWs c then skipFiller fuel rest
      else
        match newline? cs with
        | some rest => skipFiller fuel rest
        | none => cs
    | [] => []

def filler (cs : List Char) : List Char × List Char :=
  let rest := skipFiller (cs.length + 1) cs
  (consumed cs rest, rest)

def Item.decorated (before after : List Char) : Item → Item
  | .literal _ spelling v => .literal ⟨some before, some after⟩ spelling v
  | .array _ items comma trailing => .array ⟨some before, some after⟩ items comma trailing
  | .inline info preamble entries =>
    .inline { info with decor := ⟨some before, some after⟩ } preamble entries
  | item => item

/-- Puts a pair into an inline table, below the keys before its last one. Only tables that came from
dotted keys are entered. -/
def putInline (last : Key) (item : Item) : List Key → Entries → Option Entries
  | [], es => if (es.get? last.name).isSome then none else some (es.put last item)
  | key :: path, es =>
    match es.get? key.name with
    | none => (putInline last item path []).map fun inner =>
      es.put key (.inline (.implied true) [] inner)
    | some (.inline info preamble inner) =>
      if info.dotted then
        (putInline last item path inner).map fun inner => es.put key (.inline info preamble inner)
      else none
    | some _ => none

def inlineOfPairs? (preamble : List Char) (pairs : List (List Key × Item)) : Option Item := do
  let entries ← pairs.foldlM (fun es (keys, item) =>
    match keys.reverse with
    | [] => none
    | last :: before => putInline last item before.reverse es) []
  some (.inline ⟨.unset, false, false, none⟩ preamble entries)

mutual

/-- The value at the start of the text, without decor, and the rest. The fuel bounds the characters
read, the depth the arrays and inline tables still to be opened. -/
def value? : Nat → Nat → List Char → Option (Item × List Char)
  | 0, _, _ => none
  | fuel + 1, depth, cs =>
    match cs with
    | '[' :: rest =>
      match depth with
      | 0 => none
      | depth + 1 =>
        match rest with
        | ']' :: rest => some (.array .unset [] false [], rest)
        | _ => do
          let (items, comma, trailing, rest) ← items? fuel depth rest
          some (.array .unset items comma trailing, rest)
    | '{' :: rest =>
      match depth with
      | 0 => none
      | depth + 1 =>
        match rest.dropWhile isWs with
        | '}' :: after => do
          let item ← inlineOfPairs? (rest.takeWhile isWs) []
          some (item, after)
        | _ => do
          let (pairs, rest) ← pairs? fuel depth rest
          let item ← inlineOfPairs? [] pairs
          some (item, rest)
    | _ => do
      let (v, rest) ← scalar? cs
      some (.literal .unset (consumed cs rest) v, rest)

/-- The elements of an array up to its bracket, whether a comma ends them, and the filler before the
bracket. -/
def items? : Nat → Nat → List Char → Option (List Item × Bool × List Char × List Char)
  | 0, _, _ => none
  | fuel + 1, depth, cs =>
    let (before, start) := filler cs
    match start with
    | ']' :: rest => some ([], false, before, rest)
    | _ => do
      let (item, rest) ← value? fuel depth start
      let (after, rest) := filler rest
      let item := item.decorated before after
      match rest with
      | ']' :: rest => some ([item], false, [], rest)
      | ',' :: rest =>
        let (items, comma, trailing, rest) ← items? fuel depth rest
        some (item :: items, comma || items.isEmpty, trailing, rest)
      | _ => none

def pairs? : Nat → Nat → List Char → Option (List (List Key × Item) × List Char)
  | 0, _, _ => none
  | fuel + 1, depth, cs => do
    let (keys, rest) ← keyPath? cs
    match rest with
    | '=' :: rest =>
      let (item, after) ← value? fuel depth (rest.dropWhile isWs)
      let item := item.decorated (rest.takeWhile isWs) (after.takeWhile isWs)
      match after.dropWhile isWs with
      | '}' :: rest => some ([(keys, item)], rest)
      | ',' :: rest =>
        let (pairs, rest) ← pairs? fuel depth rest
        some ((keys, item) :: pairs, rest)
      | _ => none
    | _ => none

end

def lineEnd? (cs : List Char) : Option (List Char × List Char) :=
  let stop :=
    match cs.dropWhile isWs with
    | '#' :: rest => rest.dropWhile isCommentChar
    | rest => rest
  match stop with
  | [] => some (consumed cs stop, [])
  | _ => (newline? stop).map fun rest => (consumed cs stop, rest)

/-- Changes the table at the end of a path, making the tables on the way. Dotted keys do not enter a
table that has a header of its own. -/
def changeAt (dotted : Bool) (change : TableInfo → Entries → Option Entries) :
    List Key → TableInfo → Entries → Option Entries
  | [], info, es => change info es
  | key :: path, _, es =>
    match es.get? key.name with
    | none => do
      let info := TableInfo.implied dotted
      let inner ← changeAt dotted change path info []
      some (es.put key (.table info inner))
    | some (.table info inner) =>
      if dotted && !info.implicit then none
      else do
        let inner ← changeAt dotted change path info inner
        some (es.put key (.table info inner))
    | some (.tables elements) =>
      match elements.reverse with
      | .table info inner :: before => do
        let inner ← changeAt dotted change path info inner
        some (es.put key (.tables (.table info inner :: before).reverse))
      | _ => none
    | some _ => none

/-- A document partly read: the tables that are complete, the table of the last header with its path,
and the text since the last line that held something. -/
structure Reading where
  rootInfo : TableInfo
  root : Entries
  path : List Key
  isElement : Bool
  info : TableInfo
  entries : Entries
  position : Nat
  pending : List Char

def Reading.start : Reading where
  rootInfo := ⟨.unset, false, false, some 0⟩
  root := []
  path := []
  isElement := false
  info := ⟨.unset, false, false, some 0⟩
  entries := []
  position := 0
  pending := []

def Reading.close? (r : Reading) : Option Reading :=
  match r.path.reverse with
  | [] => some { r with root := r.entries, entries := [] }
  | last :: before =>
    let place (_ : TableInfo) (es : Entries) : Option Entries :=
      if r.isElement then
        match es.get? last.name with
        | some (.tables elements) => some (es.put last (.tables (elements ++ [.table r.info r.entries])))
        | _ => none
      else if (es.get? last.name).isSome then none
      else some (es.put last (.table r.info r.entries))
    (changeAt false place before.reverse r.rootInfo r.root).map fun root => { r with root }

/-- Opens the table of a header. Parts of it may have been implied by headers below it. -/
def Reading.openTable? (r : Reading) (path : List Key) (trailing : List Char) : Option Reading := do
  let r ← r.close?
  match path.reverse with
  | [] => none
  | last :: before =>
    let implied :=
      before.reverse.foldl (fun (es : Option Entries) key =>
        match es.bind (·.get? key.name) with
        | some (.table _ inner) => some inner
        | some (.tables elements) =>
          match elements.getLast? with
          | some (.table _ inner) => some inner
          | _ => none
        | _ => none) (some r.root)
    let entries? :=
      match implied.bind (·.get? last.name) with
      | none => some []
      | some (.table info inner) => if info.implicit && !info.dotted then some inner else none
      | some _ => none
    let entries ← entries?
    let remove (_ : TableInfo) (es : Entries) : Option Entries := some (es.erase last.name)
    let root ← changeAt false remove before.reverse r.rootInfo r.root
    some
      { r with
        root
        path
        isElement := false
        info := ⟨⟨some r.pending, some trailing⟩, false, false, some (r.position + 1)⟩
        entries
        position := r.position + 1
        pending := [] }

def Reading.openElement? (r : Reading) (path : List Key) (trailing : List Char) :
    Option Reading := do
  let r ← r.close?
  match path.reverse with
  | [] => none
  | last :: before =>
    let prepare (_ : TableInfo) (es : Entries) : Option Entries :=
      match es.get? last.name with
      | none => some (es.put last (.tables []))
      | some (.tables _) => some es
      | some _ => none
    let root ← changeAt false prepare before.reverse r.rootInfo r.root
    some
      { r with
        root
        path
        isElement := true
        info := ⟨⟨some r.pending, some trailing⟩, false, false, some (r.position + 1)⟩
        entries := []
        position := r.position + 1
        pending := [] }

def Reading.addPair? (r : Reading) (keys : List Key) (item : Item) : Option Reading :=
  match keys.reverse with
  | [] => none
  | last :: before =>
    let last :=
      { last with outer := ⟨some (r.pending ++ last.outer.before.getD []), last.outer.after⟩ }
    let add (info : TableInfo) (es : Entries) : Option Entries :=
      if info.dotted == before.isEmpty then none
      else if (es.get? last.name).isSome then none
      else some (es.put last item)
    (changeAt true add before.reverse r.info r.entries).map fun entries =>
      { r with entries, pending := [] }

def header? (cs : List Char) : Option (Bool × List Key × List Char × List Char) :=
  match cs with
  | '[' :: '[' :: rest => do
    let (keys, rest) ← keyPath? rest
    match rest with
    | ']' :: ']' :: rest =>
      let (trailing, rest) ← lineEnd? rest
      some (true, keys, trailing, rest)
    | _ => none
  | '[' :: rest => do
    let (keys, rest) ← keyPath? rest
    match rest with
    | ']' :: rest =>
      let (trailing, rest) ← lineEnd? rest
      some (false, keys, trailing, rest)
    | _ => none
  | _ => none

def pair? (cs : List Char) : Option (List Key × Item × List Char) := do
  let (keys, rest) ← keyPath? cs
  match rest with
  | '=' :: rest =>
    let (item, after) ← value? (2 * cs.length + 2) (nestingLimit - 1) (rest.dropWhile isWs)
    let (trailing, rest') ← lineEnd? after
    some (keys, item.decorated (rest.takeWhile isWs) trailing, rest')
  | _ => none

def Reading.wait (r : Reading) (text : List Char) : Reading := { r with pending := r.pending ++ text }

def Reading.lines? : Nat → Reading → List Char → Option Reading
  | 0, _, _ => none
  | fuel + 1, r, cs =>
    let r := r.wait (cs.takeWhile isWs)
    match cs.dropWhile isWs with
    | [] => some r
    | '#' :: rest =>
      let stop := rest.dropWhile isCommentChar
      match stop with
      | [] => some (r.wait ('#' :: rest))
      | _ => do
        let after ← newline? stop
        lines? fuel (r.wait (consumed ('#' :: rest) after)) after
    | '[' :: rest => do
      let (isElement, keys, trailing, after) ← header? ('[' :: rest)
      let r ← if isElement then r.openElement? keys trailing else r.openTable? keys trailing
      lines? fuel r after
    | c :: rest =>
      if c = '\n' ∨ c = '\r' then do
        let after ← newline? (c :: rest)
        lines? fuel (r.wait (consumed (c :: rest) after)) after
      else do
        let (keys, item, after) ← pair? (c :: rest)
        let r ← r.addPair? keys item
        lines? fuel r after

/-- The whole text as a document. A byte order mark before it is dropped. -/
def read? (cs : List Char) : Option Layout := do
  let cs :=
    match cs with
    | '\uFEFF' :: rest => rest
    | _ => cs
  let r ← Reading.lines? (cs.length + 1) .start cs
  let r ← r.close?
  some ⟨r.rootInfo, r.root, r.pending⟩

end Interview.Toml
