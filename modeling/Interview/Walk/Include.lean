import Interview.Files.SearchPath
import Interview.Item.Key
import Interview.Log

/-! Included documents, each kept under the place of the node that includes it. A document cannot be
opened below itself: its file must differ from the root's and from those of the included documents
around it. -/

namespace Interview

structure Included where
  /-- The path of the file without links, as it was when it was opened. -/
  file : Path
  nodes : List Node

structure IncludeCache where
  root : Option Path
  subtrees : List (WalkPath × Included)
  unknownFields : List String

namespace IncludeCache

def empty : IncludeCache := ⟨none, [], []⟩

/-- Nothing included yet, for a document that was read from a file. -/
def rootedAt (fs : FileSystem) (root : Option Path) : IncludeCache :=
  { empty with root := root.map fs.canonical }

def find? (cache : IncludeCache) (place : WalkPath) : Option Included := cache.subtrees.lookup place

def nodes? (cache : IncludeCache) (place : WalkPath) : Option (List Node) :=
  (cache.find? place).map Included.nodes

def size (cache : IncludeCache) : Nat := cache.subtrees.length

/-- The places strictly between the root and a place, outermost first. -/
def ancestors (place : WalkPath) : List WalkPath :=
  (List.range (place.length - 1)).map fun n => place.take (n + 1)

def enclosingFiles (cache : IncludeCache) (place : WalkPath) : List Path :=
  cache.root.toList ++ (ancestors place).filterMap fun p => (cache.find? p).map Included.file

def insert (cache : IncludeCache) (place : WalkPath) (included : Included) : IncludeCache :=
  { cache with subtrees := cache.subtrees ++ [(place, included)] }

/-- A document as it goes into the cache, with its unknown fields and what is reported of it. -/
structure Opened where
  included : Included
  unknownFields : List String
  events : List Event

def openAt (cache : IncludeCache) (sp : SearchPath) (fs : FileSystem) (n : Node)
    (place : WalkPath) : Except Error Opened := do
  let path ←
    match n.path with
    | some path => .ok path
    | none => .error (.missingField "path" .inclusion place)
  let resolved := sp.resolve fs path
  if !fs.isFile resolved then .error (.includeNotFound resolved place)
  else
    let file := fs.canonical resolved
    if (cache.enclosingFiles place).contains file then .error (.includeCycle resolved place)
    else
      let d ← sp.document fs resolved
      .ok {
        included := ⟨file, d.nodes⟩
        unknownFields := d.unknownFields.map fun field => resolved ++ ": " ++ field
        events := d.unknownFields.map (Event.unknownIncludedField resolved) ++
          [.included resolved d.nodes.length place] }

def add (cache : IncludeCache) (place : WalkPath) (o : Opened) : IncludeCache :=
  { cache.insert place o.included with unknownFields := cache.unknownFields ++ o.unknownFields }

end IncludeCache
end Interview
