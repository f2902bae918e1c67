import Interview.Yaml.Token

/-! The tree of nodes in a YAML document, built from its tokens. An anchor marks a node and an alias
points to the latest mark of its name, also from inside the marked node. -/

namespace Interview.Yaml

structure Properties where
  tag : Option Tag
  anchor : Option (List Char)

def Properties.none : Properties := ⟨.none, .none⟩

inductive Node (α : Type) where
  | scalar (props : Properties) (text : List Char) (plain : Bool)
  | sequence (props : Properties) (items : List (Node α))
  | mapping (props : Properties) (pairs : List (Node α × Node α))
  | alias (anchor : α)

/-- A node as written: aliases give the names of their anchors. -/
abbrev NamedNode := Node (List Char)

instance : Inhabited (Node α) := ⟨.scalar .none [] true⟩

def Node.missing : NamedNode := .scalar .none [] true

abbrev TagPrefixes := List (List Char × Tag)

def defaultPrefixes : TagPrefixes :=
  [(['!'], [Tag.localMark]), (['!', '!'], Tag.standard "")]

namespace Node

def resolveTag? (prefixes : TagPrefixes) (handle : List Char) (suffix : Tag) : Option Tag :=
  if handle.isEmpty then some suffix else (prefixes.lookup handle).map (· ++ suffix)

/-- An anchor and a tag, in either order, and the tokens after them. -/
def properties? (prefixes : TagPrefixes) : List Token → Option (Properties × List Token)
  | .anchor name :: .tag handle suffix :: rest =>
    (resolveTag? prefixes handle suffix).map fun tag => (⟨some tag, some name⟩, rest)
  | .tag handle suffix :: .anchor name :: rest =>
    (resolveTag? prefixes handle suffix).map fun tag => (⟨some tag, some name⟩, rest)
  | .anchor name :: rest => some (⟨.none, some name⟩, rest)
  | .tag handle suffix :: rest =>
    (resolveTag? prefixes handle suffix).map fun tag => (⟨some tag, .none⟩, rest)
  | rest => some (.none, rest)

def startsWith (stops : List Token) : List Token → Bool
  | [] => true
  | t :: _ => stops.contains t

mutual

/-- The node at the start of the tokens. The fuel bounds the tokens still to be read. -/
def read? (prefixes : TagPrefixes) (inBlock indentless : Bool) :
    Nat → List Token → Option (NamedNode × List Token)
  | 0, _ => none
  | fuel + 1, tokens =>
    match tokens with
    | .alias name :: rest => some (.alias name, rest)
    | _ => do
      let (props, tokens) ← properties? prefixes tokens
      match tokens with
      | .blockEntry :: _ =>
        if indentless then
          let (items, rest) ← indentlessItems? prefixes fuel tokens
          some (.sequence props items, rest)
        else absent? props tokens
      | .scalar text plain :: rest => some (.scalar props text plain, rest)
      | .flowSequenceStart :: rest => do
        let (items, rest) ← flowItems? prefixes true fuel rest
        some (.sequence props items, rest)
      | .flowMappingStart :: rest => do
        let (pairs, rest) ← flowPairs? prefixes true fuel rest
        some (.mapping props pairs, rest)
      | .blockSequenceStart :: rest =>
        if inBlock then do
          let (items, rest) ← blockItems? prefixes fuel rest
          some (.sequence props items, rest)
        else absent? props tokens
      | .blockMappingStart :: rest =>
        if inBlock then do
          let (pairs, rest) ← blockPairs? prefixes fuel rest
          some (.mapping props pairs, rest)
        else absent? props tokens
      | _ => absent? props tokens

/-- Properties alone stand for an empty scalar that has them. -/
def absent? (props : Properties) (tokens : List Token) : Option (NamedNode × List Token) :=
  if props.tag.isSome || props.anchor.isSome then some (.scalar props [] true, tokens) else none

def readUnless? (prefixes : TagPrefixes) (inBlock indentless : Bool) (stops : List Token) :
    Nat → List Token → Option (NamedNode × List Token)
  | 0, _ => none
  | fuel + 1, tokens =>
    if startsWith stops tokens then some (missing, tokens)
    else read? prefixes inBlock indentless fuel tokens

def blockItems? (prefixes : TagPrefixes) : Nat → List Token → Option (List NamedNode × List Token)
  | 0, _ => none
  | fuel + 1, tokens =>
    match tokens with
    | .blockEntry :: rest => do
      let (item, rest) ← readUnless? prefixes true false [.blockEntry, .blockEnd] fuel rest
      let (items, rest) ← blockItems? prefixes fuel rest
      some (item :: items, rest)
    | .blockEnd :: rest => some ([], rest)
    | _ => none

def indentlessItems? (prefixes : TagPrefixes) :
    Nat → List Token → Option (List NamedNode × List Token)
  | 0, _ => none
  | fuel + 1, tokens =>
    match tokens with
    | .blockEntry :: rest => do
      let (item, rest) ←
        readUnless? prefixes true false [.blockEntry, .key, .value, .blockEnd] fuel rest
      let (items, rest) ← indentlessItems? prefixes fuel rest
      some (item :: items, rest)
    | _ => some ([], tokens)

def blockPairs? (prefixes : TagPrefixes) :
    Nat → List Token → Option (List (NamedNode × NamedNode) × List Token)
  | 0, _ => none
  | fuel + 1, tokens =>
    match tokens with
    | .key :: rest => do
      let stops := [Token.key, .value, .blockEnd]
      let (key, rest) ← readUnless? prefixes true true stops fuel rest
      let (value, rest) ←
        match rest with
        | .value :: rest => readUnless? prefixes true true stops fuel rest
        | _ => some (missing, rest)
      let (pairs, rest) ← blockPairs? prefixes fuel rest
      some ((key, value) :: pairs, rest)
    | .blockEnd :: rest => some ([], rest)
    | _ => none

def flowItems? (prefixes : TagPrefixes) (isFirst : Bool) :
    Nat → List Token → Option (List NamedNode × List Token)
  | 0, _ => none
  | fuel + 1, tokens => do
    let tokens ←
      match tokens with
      | .flowSequenceEnd :: _ => some tokens
      | .flowEntry :: rest => if isFirst then some tokens else some rest
      | _ => if isFirst then some tokens else none
    match tokens with
    | .flowSequenceEnd :: rest => some ([], rest)
    | .key :: rest => do
      let (pair, rest) ← flowPairItem? prefixes fuel rest
      let (items, rest) ← flowItems? prefixes false fuel rest
      some (pair :: items, rest)
    | _ => do
      let (item, rest) ← read? prefixes false false fuel tokens
      let (items, rest) ← flowItems? prefixes false fuel rest
      some (item :: items, rest)

/-- A pair that stands as an element of a flow sequence: a mapping of its own. -/
def flowPairItem? (prefixes : TagPrefixes) : Nat → List Token → Option (NamedNode × List Token)
  | 0, _ => none
  | fuel + 1, tokens => do
    let (key, rest) ←
      if startsWith [.value, .flowEntry, .flowSequenceEnd] tokens then
        some (missing, tokens.tail)
      else read? prefixes false false fuel tokens
    let (value, rest) ←
      match rest with
      | .value :: rest =>
        readUnless? prefixes false false [.flowEntry, .flowSequenceEnd] fuel rest
      | _ => some (missing, rest)
    some (.mapping .none [(key, value)], rest)

def flowPairs? (prefixes : TagPrefixes) (isFirst : Bool) :
    Nat → List Token → Option (List (NamedNode × NamedNode) × List Token)
  | 0, _ => none
  | fuel + 1, tokens => do
    let tokens ←
      match tokens with
      | .flowMappingEnd :: _ => some tokens
      | .flowEntry :: rest => if isFirst then some tokens else some rest
      | _ => if isFirst then some tokens else none
    match tokens with
    | .flowMappingEnd :: rest => some ([], rest)
    | .key :: rest => do
      let (key, rest) ←
        readUnless? prefixes false false [.value, .flowEntry, .flowMappingEnd] fuel rest
      let (value, rest) ←
        match rest with
        | .value :: rest =>
          readUnless? prefixes false false [.flowEntry, .flowMappingEnd] fuel rest
        | _ => some (missing, rest)
      let (pairs, rest) ← flowPairs? prefixes false fuel rest
      some ((key, value) :: pairs, rest)
    | _ => do
      let (key, rest) ← read? prefixes false false fuel tokens
      let (pairs, rest) ← flowPairs? prefixes false fuel rest
      some ((key, missing) :: pairs, rest)

end

/-- The directives before a document: at most one version, and tag handles given once each. -/
def directives? : Bool → TagPrefixes → List Token → Option (TagPrefixes × List Token)
  | versioned, given, .version major minor :: rest =>
    if versioned || major != 1 || (minor != 1 && minor != 2) then none
    else directives? true given rest
  | versioned, given, .tagDirective handle tagPrefix :: rest =>
    if (given.lookup handle).isSome then none
    else directives? versioned (given ++ [(handle, tagPrefix)]) rest
  | _, given, rest => some (given, rest)

def isDocumentBoundary : List Token → Bool
  | [] => true
  | .version _ _ :: _ => true
  | .tagDirective _ _ :: _ => true
  | .documentStart :: _ => true
  | .documentEnd :: _ => true
  | .streamEnd :: _ => true
  | _ => false

def endsStream (tokens : List Token) : Bool :=
  tokens.dropWhile (· == .documentEnd) == [.streamEnd]

/-- The only document of a stream, or nothing where the stream is empty. The outer answer is missing
for text that is not well formed and for a stream of several documents. -/
def document? (tokens : List Token) : Option (Option NamedNode) := do
  let fuel := 4 * tokens.length + 4
  match tokens with
  | [.streamEnd] => some none
  | .version _ _ :: _ | .tagDirective _ _ :: _ | .documentStart :: _ => do
    let (given, rest) ← directives? false [] tokens
    let prefixes := given ++ defaultPrefixes
    match rest with
    | .documentStart :: rest => do
      let (node, rest) ←
        if isDocumentBoundary rest then some (missing, rest)
        else read? prefixes true false fuel rest
      if endsStream rest then some (some node) else none
    | _ => none
  | _ => do
    let (node, rest) ← read? defaultPrefixes true false fuel tokens
    if endsStream rest then some (some node) else none

end Node
end Interview.Yaml
