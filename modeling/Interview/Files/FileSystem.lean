import Interview.Files.Path

/-! Files as a value: a tree of directories with text or bytes, and links to other paths. A path is
followed piece by piece from the root or from the working directory to its place, where no link is
left on the way. -/

namespace Interview

inductive FileEntry where
  | file (content : ByteArray)
  | link (target : Path)
  | directory (entries : List (String × FileEntry))

abbrev Place := List String

inductive FileFault where
  | missing
  | notDirectory
  | tooManyLinks
  | isDirectory
  | notText
  | tooLong
  | zeroCharacter
deriving DecidableEq

structure FileSystem where
  top : List (String × FileEntry)
  working : Place

namespace FileEntry

def lookup? (name : String) : List (String × FileEntry) → Option FileEntry
  | [] => none
  | (k, e) :: rest => if k = name then some e else lookup? name rest

def put (name : String) (entry : FileEntry) : List (String × FileEntry) → List (String × FileEntry)
  | [] => [(name, entry)]
  | (k, e) :: rest => if k = name then (k, entry) :: rest else (k, e) :: put name entry rest

def find? : Place → FileEntry → Option FileEntry
  | [], entry => some entry
  | name :: rest, .directory entries => (lookup? name entries).bind (find? rest)
  | _ :: _, _ => none

/-- Puts an entry at a place whose directory exists; otherwise nothing changes. -/
def putAt (entry : FileEntry) : Place → FileEntry → FileEntry
  | [], _ => entry
  | name :: rest, .directory entries =>
    match rest, lookup? name entries with
    | [], _ => .directory (put name entry entries)
    | _ :: _, some inner => .directory (put name (putAt entry rest inner) entries)
    | _ :: _, none => .directory entries
  | _ :: _, other => other

def removeAt : Place → FileEntry → FileEntry
  | [], entry => entry
  | [name], .directory entries => .directory (entries.filter (·.1 != name))
  | name :: rest, .directory entries =>
    match lookup? name entries with
    | some inner => .directory (put name (removeAt rest inner) entries)
    | none => .directory entries
  | _ :: _, other => other

mutual

def fileCount : FileEntry → Nat
  | .file _ => 1
  | .link _ => 0
  | .directory entries => entriesFileCount entries

def entriesFileCount : List (String × FileEntry) → Nat
  | [] => 0
  | (_, entry) :: rest => entry.fileCount + entriesFileCount rest

end

end FileEntry

namespace FileSystem

def fileCount (fs : FileSystem) : Nat := FileEntry.entriesFileCount fs.top

def root (fs : FileSystem) : FileEntry := .directory fs.top

def entry? (fs : FileSystem) (place : Place) : Option FileEntry := fs.root.find? place

def withRoot (fs : FileSystem) : FileEntry → FileSystem
  | .directory entries => { fs with top := entries }
  | _ => fs

def put (fs : FileSystem) (place : Place) (entry : FileEntry) : FileSystem :=
  fs.withRoot (entry.putAt place fs.root)

def isDirectoryAt (fs : FileSystem) (place : Place) : Bool :=
  match fs.entry? place with
  | some (.directory _) => true
  | _ => false

def linkLimit : Nat := 40

def nameLimit : Nat := 255

def pathLimit : Nat := 4095

/-- What is wrong with a path whatever the files are. -/
def pathFault? (p : Path) : Option FileFault :=
  if p.toList.contains '\x00' then some .zeroCharacter
  else if pathLimit < p.utf8ByteSize then some .tooLong
  else none

def pieceNames (p : Path) : List String := p.pieces.map String.ofList

def startOf (p : Path) (here : Place) : Place := if p.isAbsolute then [] else here

/-- Follows the pieces of a path from a place. Every piece, a trivial one too, needs a directory
before it. -/
def follow (fs : FileSystem) (links : Nat) (here : Place) (pieces : List String) :
    Except FileFault Place :=
  match pieces with
  | [] => .ok here
  | piece :: rest =>
    if !fs.isDirectoryAt here then .error .notDirectory
    else if piece.isEmpty ∨ piece = "." then fs.follow links here rest
    else if piece = ".." then fs.follow links here.dropLast rest
    else if nameLimit < piece.utf8ByteSize then .error .tooLong
    else
      match fs.entry? (here ++ [piece]) with
      | none => .error .missing
      | some (.link target) =>
        match links with
        | 0 => .error .tooManyLinks
        | links + 1 => fs.follow links (startOf target here) (pieceNames target ++ rest)
      | some _ => fs.follow links (here ++ [piece]) rest
termination_by (links, pieces.length)

def locate (fs : FileSystem) (p : Path) : Except FileFault Place :=
  match pathFault? p with
  | some fault => .error fault
  | none =>
    if p.isEmpty then .error .missing
    else fs.follow linkLimit (startOf p fs.working) (pieceNames p)

def find? (fs : FileSystem) (p : Path) : Option FileEntry :=
  match fs.locate p with
  | .ok place => fs.entry? place
  | .error _ => none

def isPresent (fs : FileSystem) (p : Path) : Bool := (fs.find? p).isSome

def isFile (fs : FileSystem) (p : Path) : Bool :=
  match fs.find? p with
  | some (.file _) => true
  | _ => false

def isDirectory (fs : FileSystem) (p : Path) : Bool :=
  match fs.find? p with
  | some (.directory _) => true
  | _ => false

def placePath (place : Place) : Path := "/" ++ String.intercalate "/" place

/-- The path that leads to the same entry without links; a path that leads nowhere stays. -/
def canonical (fs : FileSystem) (p : Path) : Path :=
  match fs.locate p with
  | .ok place => placePath place
  | .error _ => p

def readText (fs : FileSystem) (p : Path) : Except FileFault String := do
  let place ← fs.locate p
  match fs.entry? place with
  | some (.file content) =>
    match String.fromUTF8? content with
    | some text => .ok text
    | none => .error .notText
  | some _ => .error .isDirectory
  | none => .error .missing

def list? (fs : FileSystem) (p : Path) : Option (List (String × Bool)) :=
  match fs.find? p with
  | some (.directory entries) =>
    some (entries.map fun (name, _) => (name, fs.isDirectory (Path.below p name)))
  | _ => none

/-- Makes the missing directories of a path, piece by piece; those made before a fault stay. -/
def makeDirectories (fs : FileSystem) (p : Path) : FileSystem × Option FileFault :=
  match pathFault? p with
  | some fault => (fs, some fault)
  | none => go fs (startOf p fs.working) (pieceNames p)
where
  go (fs : FileSystem) (here : Place) : List String → FileSystem × Option FileFault
    | [] => (fs, if fs.isDirectoryAt here then none else some .notDirectory)
    | piece :: rest =>
      match fs.follow linkLimit here [piece] with
      | .ok place => go fs place rest
      | .error .missing =>
        if (fs.entry? (here ++ [piece])).isSome then (fs, some .missing)
        else go (fs.put (here ++ [piece]) (.directory [])) (here ++ [piece]) rest
      | .error fault => (fs, some fault)

/-- The place that writing to a path fills: also the missing end of a link. -/
def writePlace (fs : FileSystem) (links : Nat) (here : Place) (p : Path) :
    Except FileFault Place :=
  let pieces := pieceNames p
  let last := pieces.getLastD ""
  if last.isEmpty ∨ last = "." ∨ last = ".." then .error .isDirectory
  else
    match fs.follow links (startOf p here) pieces.dropLast with
    | .error fault => .error fault
    | .ok directory =>
      if !fs.isDirectoryAt directory then .error .notDirectory
      else if nameLimit < last.utf8ByteSize then .error .tooLong
      else
        match fs.entry? (directory ++ [last]) with
        | some (.link target) =>
          match links with
          | 0 => .error .tooManyLinks
          | links + 1 => fs.writePlace links directory target
        | some (.directory _) => .error .isDirectory
        | _ => .ok (directory ++ [last])

def write (fs : FileSystem) (p : Path) (content : ByteArray) : Except FileFault FileSystem :=
  match pathFault? p with
  | some fault => .error fault
  | none => do
    let place ← fs.writePlace linkLimit fs.working p
    .ok (fs.put place (.file content))

def writeText (fs : FileSystem) (p : Path) (text : String) : Except FileFault FileSystem :=
  fs.write p text.toUTF8

/-- The place of the entry that a path names, not of what a link there leads to. -/
def entryPlace? (fs : FileSystem) (p : Path) : Option Place :=
  let pieces := pieceNames p
  let last := pieces.getLastD ""
  if last.isEmpty ∨ last = "." ∨ last = ".." then none
  else
    match fs.follow linkLimit (startOf p fs.working) pieces.dropLast with
    | .ok directory => some (directory ++ [last])
    | .error _ => none

def remove (fs : FileSystem) (p : Path) : FileSystem :=
  match fs.entryPlace? p with
  | some place => fs.withRoot (FileEntry.removeAt place fs.root)
  | none => fs

def link (fs : FileSystem) (p target : Path) : FileSystem :=
  match fs.entryPlace? p with
  | some place => fs.put place (.link target)
  | none => fs

end FileSystem
end Interview
