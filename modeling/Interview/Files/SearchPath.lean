import Interview.Document.Reader
import Interview.Files.FileSystem

/-! Where the files that a document names are looked for. A bare name is looked up in the home directory
and then among the templates; every other path is taken as it is. -/

namespace Interview

structure SearchPath where
  home : Option Path
  templates : Option Path

inductive Selector where
  | directories
  | files
  /-- Directories first, then files. -/
  | both
deriving DecidableEq

structure Listing where
  selector : Selector
  path : Path

namespace Listing

def selectorOf? (name : String) : Option Selector :=
  match name with
  | "dir" => some .directories
  | "file" => some .files
  | "dir+file" => some .both
  | _ => none

/-- A selector and a path with a colon between them. -/
def parse (text : String) : Except Reason Listing :=
  match Text.cutOnce ':' text.toList with
  | none => .error (.selectorForm text)
  | some (name, path) =>
    match selectorOf? (String.ofList name) with
    | some selector => .ok ⟨selector, String.ofList path⟩
    | none => .error (.selectorName (String.ofList name))

end Listing

namespace SearchPath

def none : SearchPath := ⟨.none, .none⟩

def resolve (sp : SearchPath) (fs : FileSystem) (p : Path) : Path :=
  if !p.isBare then p
  else
    match sp.home, sp.templates with
    | some home, some templates =>
      if fs.isPresent (.below home p) then .below home p
      else if fs.isPresent (.below templates p) then .below templates p
      else .below home p
    | some home, .none => .below home p
    | .none, some templates =>
      if fs.isPresent (.below templates p) then .below templates p else p
    | .none, .none => p

def readText (sp : SearchPath) (fs : FileSystem) (p : Path) : Except Error String :=
  let resolved := sp.resolve fs p
  match fs.readText resolved with
  | .ok text => .ok text
  | .error _ => .error (.inaccessible resolved)

def document (sp : SearchPath) (fs : FileSystem) (p : Path) : Except Error Document := do
  let resolved := sp.resolve fs p
  Document.read resolved (.ofPath resolved) (← sp.readText fs p)

def sortNames (names : List String) : List String := names.mergeSort fun a b => decide (a ≤ b)

def list (sp : SearchPath) (fs : FileSystem) (l : Listing) : Except Error (List String) :=
  let resolved := sp.resolve fs l.path
  match fs.list? resolved with
  | .none => .error (.inaccessible resolved)
  | some entries =>
    let directories := sortNames ((entries.filter (·.2)).map (·.1))
    let files := sortNames ((entries.filter (!·.2)).map (·.1))
    .ok (match l.selector with
      | .directories => directories
      | .files => files
      | .both => directories ++ files)

end SearchPath
end Interview
