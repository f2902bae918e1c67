import Interview.Walk.Basic

/-! The structure of a document examined before it is used: every node has a known kind and what its kind
needs, every included document can be read, and every range and pattern is well formed. -/

namespace Interview.Walk

def require (field : Option α) (name : String) (kind : Kind) (place : WalkPath) : Walk Unit :=
  match field with
  | some _ => pure ()
  | none => throw (.missingField name kind place)

def checkRange (n : Node) (kind : Kind) (place : WalkPath) : Walk Unit :=
  match n.range with
  | none => pure ()
  | some spec =>
    match Range.parse n.type spec with
    | .ok _ => pure ()
    | .error reason => throw (.badItem kind place reason)

def checkPattern (source : Option String) : Walk Unit :=
  match source with
  | none => pure ()
  | some source => discard (lift (compilePattern source))

/-- What every kind of node is examined for, after what stands below it. -/
def checkRules (n : Node) (kind : Kind) (place : WalkPath) : Walk Unit := do
  checkRange n kind place
  checkPattern n.regexp
  checkPattern n.valuesRegexp
  checkPattern n.resetKeyRegexp

def checkAsked (n : Node) (kind : Kind) (place : WalkPath) : Walk Unit := do
  require n.key "key" kind place
  require n.title "title" kind place
  require n.text "text" kind place

/-- The nodes of an included document, opened now unless they were before. -/
def includedNodes (sp : SearchPath) (fs : FileSystem) (n : Node) (place : WalkPath) :
    Walk (List Node) := do
  match (← get).includes.nodes? place with
  | some nodes => return nodes
  | none => openInclude sp fs n place

mutual

/-- Examines a node, where `descend` examines the nodes of an included document. -/
def checkNode (sp : SearchPath) (fs : FileSystem) (descend : List Node → WalkPath → Walk Unit)
    (place : WalkPath) (n : Node) : Walk Unit := do
  match n with
  | { interview := children, .. } =>
    let kind ← lift (n.kindAt place)
    match kind with
    | .inclusion => descend (← includedNodes sp fs n place) place
    | .branch =>
      match children with
      | some nodes => checkNodes sp fs descend place 0 nodes
      | none => pure ()
    | .question => checkAsked n kind place
    | .set => checkAsked n kind place
    | .reset =>
      if n.resetKeys.isNone && n.resetKeyRegexp.isNone then
        throw (.badItem .reset place .noTargets)
    | .notice => pure ()
    | .update => pure ()
    checkRules n kind place

def checkNodes (sp : SearchPath) (fs : FileSystem) (descend : List Node → WalkPath → Walk Unit)
    (parent : WalkPath) (index : Nat) : List Node → Walk Unit
  | [] => pure ()
  | n :: rest => do
    checkNode sp fs descend (parent ++ [index]) n
    checkNodes sp fs descend parent (index + 1) rest

end

/-- Examines the nodes of a document with so many levels of inclusion below it. -/
def checkLevels (sp : SearchPath) (fs : FileSystem) : Nat → List Node → WalkPath → Walk Unit
  | 0, _, _ => pure ()
  | levels + 1, nodes, parent => checkNodes sp fs (checkLevels sp fs levels) parent 0 nodes

/-- Examines a whole document. A level of inclusion is either in the cache already or opens a file that
is not open around it, so there are no more levels than cached places and files together. -/
def check (sp : SearchPath) (fs : FileSystem) (nodes : List Node) : Walk Unit := do
  checkLevels sp fs ((← get).includes.size + fs.fileCount + 1) nodes []

end Interview.Walk
