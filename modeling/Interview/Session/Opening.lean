import Interview.Session.Basic

/-! Opening a session: from a file, from text, or from nodes. Where no home directory is given, a document
from a file is at home in its own directory. -/

namespace Interview

structure Opening where
  home : Option Path := none
  templates : Option Path := none
  ceiling : Nat := 10000
  strict : Bool := false
  store : Settings := .empty

namespace Opening

def search (o : Opening) : SearchPath := ⟨o.home, o.templates⟩

def session (o : Opening) (fs : FileSystem) (d : Document) (search : SearchPath)
    (origin : Option Path) (log : List Event) : Session where
  document := d.nodes
  unknownFields := d.unknownFields
  search := search
  ceiling := o.ceiling
  strict := o.strict
  progress := ⟨o.store, .rootedAt fs origin, log⟩

def build (o : Opening) (fs : FileSystem) (nodes : List Node) : Session :=
  o.session fs ⟨nodes, []⟩ o.search none []

/-- Unknown fields are errors in a strict session and reported in others. What was reported before an
error comes with it. -/
def finish (o : Opening) (fs : FileSystem) (d : Document) (search : SearchPath)
    (origin : Option Path) (log : List Event) : Except Error Session × List Event :=
  if o.strict && !d.unknownFields.isEmpty then (.error (.unknownFields d.unknownFields), log)
  else
    let log := log ++ d.unknownFields.map .unknownField
    (.ok (o.session fs d search origin log), log)

def homeOf (fs : FileSystem) (path : Path) : Option Path := (fs.canonical path).parent?

def load (o : Opening) (fs : FileSystem) (path : Path) : Except Error Session × List Event :=
  let resolved := o.search.resolve fs path
  match o.search.document fs resolved with
  | .error e => (.error e, [])
  | .ok d =>
    let search := { o.search with home := o.home <|> homeOf fs resolved }
    o.finish fs d search (some resolved) [.loaded d.nodes.length resolved]

def loadText (o : Opening) (fs : FileSystem) (format : Format) (text : String) :
    Except Error Session × List Event :=
  match Document.read "<string>" format text with
  | .error e => (.error e, [])
  | .ok d => o.finish fs d o.search none []

end Opening
end Interview
