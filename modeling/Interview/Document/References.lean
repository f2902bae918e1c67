import Interview.Files.SearchPath

/-! The files that a document names: other documents, and the files and directories that its items take
something from. -/

namespace Interview

structure References where
  documents : List Path
  data : List Path

namespace References

def none : References := ⟨[], []⟩

def append (a b : References) : References := ⟨a.documents ++ b.documents, a.data ++ b.data⟩

/-- The directory of a listing, where it is well formed. -/
def listed (text : String) : List Path :=
  match Listing.parse text with
  | .ok listing => [listing.path]
  | .error _ => []

def ofFields (n : Node) : References where
  documents := n.path.toList
  data :=
    n.defaultFromFile.toList ++ n.valuesFromFile.toList ++
      n.valuesFromDirectory.toList.flatMap listed

mutual

def ofNode (n : Node) : References :=
  match n with
  | { interview := children, .. } =>
    match children with
    | some nodes => (ofFields n).append (ofNodes nodes)
    | Option.none => ofFields n

def ofNodes : List Node → References
  | [] => none
  | n :: rest => (ofNode n).append (ofNodes rest)

end

/-- What the document in a file names; nothing, if it cannot be read. -/
def ofFile (fs : FileSystem) (path : Path) : References :=
  match SearchPath.none.document fs path with
  | .ok d => ofNodes d.nodes
  | .error _ => none

end References

def SearchPath.candidates (sp : SearchPath) (p : Path) : List Path :=
  if p.isBare then p :: (sp.home.toList ++ sp.templates.toList).map (Path.below · p) else [p]

end Interview
