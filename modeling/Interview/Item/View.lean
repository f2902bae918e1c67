import Interview.Item.Basic

/-! An item as it is shown to whoever answers it, one property a line. -/

namespace Interview.Item

def orDash (text : Option String) : String := text.getD "-"

def flagText (b : Bool) : String := if b then "true" else "false"

def line (label text : String) : String :=
  label ++ String.ofList (List.replicate (20 - label.length) ' ') ++ text

def detailLines (item : Item) : List String :=
  let n := item.node
  ["==========",
    line "walkpath:" item.place.text,
    line "name:" (orDash n.name),
    line "section:" (orDash n.sectionName),
    line "key:" (orDash n.key),
    line "fqkey:" item.key,
    line "parameterize:" (orDash n.parameterize),
    line "type:" (orDash (n.type.map ValueType.name)),
    line "hidden:" (flagText n.hidden),
    line "multivalue:" (flagText n.multivalue),
    line "range:" (orDash n.range),
    line "regexp:" (orDash n.regexp),
    line "required:" (flagText n.required),
    "----------"]

def viewLines (item : Item) : List String :=
  [line "title:" (orDash item.node.title),
    line "text:" (orDash item.node.text),
    line "values:" (orDash (item.node.values.map fun vs => (Value.array vs).shown)),
    line "default:" (orDash (item.node.default.map Value.shown))]

def view (item : Item) (verbose : Bool) : String :=
  String.intercalate "\n" ((if verbose then item.detailLines else []) ++ item.viewLines)

end Interview.Item
