import Interview.Yaml.Node
import Interview.Yaml.Plain

/-! Reading YAML text as data. Every alias is replaced by the node that its anchor marks; a bound on
nesting and one on the number of replacements keep aliases that contain themselves finite. -/

namespace Interview.Yaml

/-- The anchors of a document. A name has the number of its latest mark. A number is the count of
names known when it was given, and where a number was given twice the later node has it. -/
structure Anchors where
  numbers : List (List Char × Nat)
  marked : List (Nat × Node Nat)

namespace Anchors

def number (name : List Char) (numbers : List (List Char × Nat)) : Nat × List (List Char × Nat) :=
  (numbers.length, (name, numbers.length) :: numbers.filter (·.1 != name))

end Anchors

/-- A node with numbers for anchors, the nodes marked in it in the order of their marks, and the
numbers of all names after it. -/
structure Numbered (β : Type) where
  result : β
  marked : List (Nat × Node Nat)
  numbers : List (List Char × Nat)

def Numbered.under (props : Properties) (number : Nat) (node : Numbered (Node Nat)) :
    Numbered (Node Nat) :=
  if props.anchor.isSome then { node with marked := (number, node.result) :: node.marked } else node

def enter (props : Properties) (numbers : List (List Char × Nat)) :
    Nat × List (List Char × Nat) :=
  match props.anchor with
  | some name => Anchors.number name numbers
  | none => (0, numbers)

mutual

/-- Gives every anchor its number and resolves the names of aliases, in the order of the text. A name
that marks nothing yet is an error. -/
def Node.numbered? (numbers : List (List Char × Nat)) : NamedNode → Option (Numbered (Node Nat))
  | .alias name => (numbers.lookup name).map fun n => ⟨.alias n, [], numbers⟩
  | .scalar props text plain =>
    let (n, numbers) := enter props numbers
    some (Numbered.under props n ⟨.scalar props text plain, [], numbers⟩)
  | .sequence props items => do
    let (n, numbers) := enter props numbers
    let ⟨items, marked, numbers⟩ ← numberedItems? numbers items
    some (Numbered.under props n ⟨.sequence props items, marked, numbers⟩)
  | .mapping props pairs => do
    let (n, numbers) := enter props numbers
    let ⟨pairs, marked, numbers⟩ ← numberedPairs? numbers pairs
    some (Numbered.under props n ⟨.mapping props pairs, marked, numbers⟩)

def numberedItems? (numbers : List (List Char × Nat)) :
    List NamedNode → Option (Numbered (List (Node Nat)))
  | [] => some ⟨[], [], numbers⟩
  | item :: items => do
    let ⟨item, here, numbers⟩ ← item.numbered? numbers
    let ⟨items, there, numbers⟩ ← numberedItems? numbers items
    some ⟨item :: items, here ++ there, numbers⟩

def numberedPairs? (numbers : List (List Char × Nat)) :
    List (NamedNode × NamedNode) → Option (Numbered (List (Node Nat × Node Nat)))
  | [] => some ⟨[], [], numbers⟩
  | (key, value) :: pairs => do
    let ⟨key, atKey, numbers⟩ ← key.numbered? numbers
    let ⟨value, atValue, numbers⟩ ← value.numbered? numbers
    let ⟨pairs, there, numbers⟩ ← numberedPairs? numbers pairs
    some ⟨(key, value) :: pairs, atKey ++ atValue ++ there, numbers⟩

end

mutual

/-- Scalars and aliases count once, collections for their start and their end. -/
def Node.weight : Node α → Nat
  | .sequence _ items => 2 + itemsWeight items
  | .mapping _ pairs => 2 + pairsWeight pairs
  | _ => 1

def itemsWeight : List (Node α) → Nat
  | [] => 0
  | item :: items => item.weight + itemsWeight items

def pairsWeight : List (Node α × Node α) → Nat
  | [] => 0
  | (key, value) :: pairs => key.weight + value.weight + pairsWeight pairs

end

structure Graph where
  root : Node Nat
  targets : List (Nat × Node Nat)
  jumpLimit : Nat
  /-- Whether the first key of a nested mapping has to read as a string. -/
  textKeys : Bool

/-- Answers that count the aliases followed so far. -/
abbrev Counted := StateT Nat Option

namespace Graph

def ofNode? (textKeys : Bool) (node : NamedNode) : Option Graph :=
  (node.numbered? []).map fun numbered =>
    { root := numbered.result
      targets := numbered.marked.reverse
      jumpLimit := 100 * node.weight
      textKeys }

def follow (g : Graph) : Node Nat → Counted (Node Nat)
  | .alias n => fun jumps =>
    if g.jumpLimit ≤ jumps then none
    else (g.targets.lookup n).map fun node => (node, jumps + 1)
  | node => pure node

def untagged (props : Properties) : Counted Unit :=
  if props.tag.any Tag.isLocal then failure else pure ()

def keyText (g : Graph) (key : Node Nat) : Counted String := do
  match ← g.follow key with
  | .scalar _ text _ => pure (String.ofList text)
  | _ => failure

def firstKeyText (g : Graph) (key : Node Nat) : Counted String := do
  match ← g.follow key with
  | .scalar props text plain =>
    match Plain.tagged? props.tag text plain with
    | some (.str s) => pure s
    | some _ => if g.textKeys then failure else pure (String.ofList text)
    | none => if g.textKeys then failure else pure (String.ofList text)
  | _ => failure

def scalarData : Node Nat → Counted Raw
  | .scalar props text plain => fun jumps => (Plain.tagged? props.tag text plain).map (·, jumps)
  | _ => failure

/-- The data of a node, with at most so many collections around each other. -/
def data (g : Graph) : Nat → Node Nat → Counted Raw
  | 0, node => do scalarData (← g.follow node)
  | depth + 1, node => do
    match ← g.follow node with
    | .sequence props items => do
      untagged props
      let items ← items.mapM fun item => g.data depth item
      pure (.list items)
    | .mapping props pairs => do
      untagged props
      match pairs with
      | [] => pure (.object [])
      | (key, value) :: rest =>
        let key ← g.firstKeyText key
        let value ← g.data depth value
        let entries ← rest.mapM fun (key, value) => do
          let key ← g.keyText key
          let value ← g.data depth value
          pure (key, value)
        pure (.object ((key, value) :: entries))
    | node => scalarData node

def depthLimit : Nat := 128

/-- The entries of a root that has to be a mapping; where nothing is written there are none. -/
def rootEntries (g : Graph) : Counted Raw := do
  match ← g.follow g.root with
  | .scalar _ [] true => pure (.object [])
  | .mapping _ pairs => do
    let entries ← pairs.mapM fun (key, value) => do
      let key ← g.keyText key
      let value ← g.data (depthLimit - 1) value
      pure (key, value)
    pure (.object entries)
  | _ => failure

end Graph

def root? (cs : List Char) : Option (Option NamedNode) := Token.scan? cs >>= Node.document?

/-- The only document of a text as data; where there is none, `null`. -/
def read? (cs : List Char) : Option Raw := do
  match ← root? cs with
  | none => some .null
  | some node => do
    let g ← Graph.ofNode? false node
    let (raw, _) ← (g.data Graph.depthLimit g.root).run 0
    some raw

def readEntries? (cs : List Char) : Option Raw := do
  match ← root? cs with
  | none => some (.object [])
  | some node => do
    let g ← Graph.ofNode? true node
    let (raw, _) ← g.rootEntries.run 0
    some raw

end Interview.Yaml
