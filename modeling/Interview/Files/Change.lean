import Interview.Files.FileSystem

/-! What has to be made and written so that one state of the files becomes another. Nothing is ever
removed. -/

namespace Interview

inductive FileChange where
  | directory (path : Path)
  | file (path : Path) (content : ByteArray)

mutual

/-- The changes at and below a path, where something else or nothing stood before. -/
def FileEntry.changes (path : Path) (before : Option FileEntry) : FileEntry → List FileChange
  | .file content =>
    match before with
    | some (.file old) => if old.data = content.data then [] else [.file path content]
    | _ => [.file path content]
  | .link _ => []
  | .directory entries =>
    match before with
    | some (.directory old) => entriesChanges path old entries
    | _ => .directory path :: entriesChanges path [] entries

def entriesChanges (path : Path) (before : List (String × FileEntry)) :
    List (String × FileEntry) → List FileChange
  | [] => []
  | (name, entry) :: rest =>
    entry.changes (path ++ "/" ++ name) (FileEntry.lookup? name before) ++
      entriesChanges path before rest

end

/-- The changes from one state to another, a directory before what is in it. -/
def FileSystem.changes (before after : FileSystem) : List FileChange :=
  entriesChanges "" before.top after.top

end Interview
