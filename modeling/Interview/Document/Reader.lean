import Interview.Document.Node
import Interview.Error
import Interview.Format
import Interview.Json.Writer

/-! Reading a document: a list of nodes, a single node, or a mapping with its nodes under
`interview`. -/

namespace Interview

structure Document where
  nodes : List Node
  unknownFields : List String

namespace Document

def empty : Document := ⟨[], []⟩

/-- The list of nodes in the data of a document. A mapping with a kind is a node itself; a lone scalar
is no document. -/
def items? : Raw → Except Raw Raw
  | .null => .ok (.list [])
  | .list items => .ok (.list items)
  | .object entries =>
    match Raw.lookup? "kind" entries, Raw.lookup? "interview" entries with
    | none, some items => .ok items
    | _, _ => .ok (.list [.object entries])
  | scalar => .error scalar

def ofRaw (path : Path) (r : Raw) : Except Error Document :=
  match items? r.canonical with
  | .error scalar => .error (.unparsable path (some (String.ofList (Json.scalarText scalar))))
  | .ok (.list items) =>
    match Node.nodes? "" 0 items with
    | some (nodes, unknown) => .ok ⟨nodes, unknown⟩
    | none => .error (.unparsable path none)
  | .ok _ => .error (.unparsable path none)

def read (path : Path) (format : Format) (text : String) : Except Error Document :=
  let cs := text.toList
  if (Text.trim cs).isEmpty then .ok empty
  else
    match format.read? cs with
    | some r => ofRaw path r
    | none => .error (.unparsable path none)

end Document
end Interview
