import Interview.Walk.Check
import Interview.Walk.Scan

/-! An interview in progress: a document, the store it fills, and the documents included so far. Passes
are repeated until one finds an item that waits for a value, or nothing is left. -/

namespace Interview

structure Session where
  document : List Node
  unknownFields : List String
  search : SearchPath
  /-- How often a pass may be repeated in a row; zero sets no limit. -/
  ceiling : Nat
  strict : Bool
  progress : Progress

namespace Session

def store (s : Session) : Settings := s.progress.store

def withStore (s : Session) (store : Settings) : Session :=
  { s with progress := { s.progress with store } }

def report (s : Session) (e : Event) : Session :=
  { s with progress := { s.progress with log := s.progress.log ++ [e] } }

def perform (s : Session) (w : Walk α) : Except Error α × Session :=
  let (r, progress) := w.run s.progress
  (r, { s with progress })

def scan (s : Session) (fs : FileSystem) : Except Error Scan × Session :=
  s.perform (Walk.scan s.search fs s.document)

/-- How a number of passes ended: with an item or none, with an error, or with another one to make. -/
inductive Settling where
  | settled (r : Except Error (Option Item))
  | restarted (place : WalkPath)

/-- At most so many passes; `place` is where the last change was. -/
def settle (fs : FileSystem) (place : WalkPath) : Nat → Session → Settling × Session
  | 0, s => (.restarted place, s)
  | passes + 1, s =>
    match s.scan fs with
    | (.error e, s) => (.settled (.error e), s)
    | (.ok (.found item), s) => (.settled (.ok (some item)), s)
    | (.ok .exhausted, s) => (.settled (.ok none), s)
    | (.ok (.restart place), s) => settle fs place passes s

/-- The next item that waits for a value, or nothing when the interview is complete. There is no answer
only if the session has no limit of its own and does not settle within the caller's patience. -/
def next (fs : FileSystem) (patience : Nat) (s : Session) :
    Option (Except Error (Option Item) × Session) :=
  if s.ceiling = 0 then
    match settle fs [] patience s with
    | (.settled r, s) => some (r, s)
    | (.restarted _, _) => none
  else
    match settle fs [] (s.ceiling + 1) s with
    | (.settled r, s) => some (r, s)
    | (.restarted place, s) => some (.error (.restartLimit s.ceiling place), s)

def commit (s : Session) (item : Item) (given : Option Value) : Except Error Value × Session :=
  let (stored, store) := item.write s.store given
  (stored, s.withStore store)

def answer (s : Session) (item : Item) (reply : String) : Except Error Value × Session :=
  s.commit item (some (.str reply))

/-- The unknown fields of the document and of the documents included so far. -/
def allUnknownFields (s : Session) : List String :=
  s.unknownFields ++ s.progress.includes.unknownFields

def check (s : Session) (fs : FileSystem) : Except Error Unit × Session :=
  match s.perform (Walk.check s.search fs s.document) with
  | (.error e, s) => (.error e, s)
  | (.ok (), s) =>
    if s.strict && !s.allUnknownFields.isEmpty then (.error (.unknownFields s.allUnknownFields), s)
    else (.ok (), s.report (.checked s.document.length s.progress.includes.size))

end Session
end Interview
