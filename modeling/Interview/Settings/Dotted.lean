import Interview.Settings.Basic

/-! Building a store from entries whose keys may be dotted. Dotted and nested spellings of a table are
merged, whatever their order; a leaf meets no other entry of the same key. -/

namespace Interview.Settings

def duplicate (key : String) : Error := .conflict key key

mutual

def merge (s : Settings) (key : String) : Value → Except Error Settings
  | .table [] =>
    match s.get? key with
    | some (.table _) => .ok s
    | some _ => .error (duplicate key)
    | none => s.set key (.table [])
  | .table (e :: es) =>
    match s.get? key with
    | some (.table _) | none => mergeEntries s key (e :: es)
    | some _ => .error (duplicate key)
  | leaf => if s.contains key then .error (duplicate key) else s.set key leaf

def mergeEntries (s : Settings) (parent : String) : List (String × Value) → Except Error Settings
  | [] => .ok s
  | (k, v) :: rest => do mergeEntries (← merge s (parent ++ "." ++ k) v) parent rest

end

def ofDotted (t : Table) : Except Error Settings :=
  t.foldlM (fun s (k, v) => merge s k v) empty

end Interview.Settings
