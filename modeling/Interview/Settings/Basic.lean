import Interview.Error
import Interview.Settings.Key
import Interview.Value

/-! The store of an interview: a tree of tables addressed by dotted keys. A write makes the tables on
its way but never passes through a leaf, and a write or a removal that fails leaves the store alone. -/

namespace Interview

structure Settings where
  root : Table

namespace Table

def find? : List String → Table → Option Value
  | [], _ => none
  | [last], t => t.get? last
  | segment :: path, t =>
    match t.get? segment with
    | some (.table nested) => find? path nested
    | _ => none

/-- Writes at the end of a path, table by table, and makes the missing ones on the way. Where a leaf is
in the way its path is the answer, and the tables are left as they are by then. -/
def write (value : Value) : List String → Table → Option (List String) × Table
  | [], t => (none, t)
  | [last], t => (none, t.insert last value)
  | segment :: path, t =>
    match (t.get? segment).getD (.table []) with
    | .table nested =>
      let (blocked, nested) := write value path nested
      (blocked.map (segment :: ·), t.insert segment (.table nested))
    | _ => (some [segment], t)

def take? : List String → Table → Option (Value × Table)
  | [], _ => none
  | [last], t => (t.get? last).map fun v => (v, t.erase last)
  | segment :: path, t =>
    match t.get? segment with
    | some (.table nested) =>
      (take? path nested).map fun (v, nested) => (v, t.insert segment (.table nested))
    | _ => none

end Table

mutual

def Value.leaves (key : String) : Value → List (String × Value)
  | .table entries => entryLeaves key entries
  | leaf => [(key, leaf)]

def entryLeaves (parent : String) : List (String × Value) → List (String × Value)
  | [] => []
  | (k, v) :: rest => v.leaves (Key.below parent k) ++ entryLeaves parent rest

end

namespace Settings

def empty : Settings := ⟨[]⟩

def get? (s : Settings) (key : String) : Option Value := s.root.find? (Key.segments key)

def contains (s : Settings) (key : String) : Bool := (s.get? key).isSome

/-- Writes in place: what happened, and the store as it is then. -/
def write (s : Settings) (key : String) (value : Value) : Except Error Unit × Settings :=
  let path := Key.segments key
  if path.any String.isEmpty then (.error (.invalidValue key .emptySegment), s)
  else
    match s.root.write value path with
    | (none, root) => (.ok (), ⟨root⟩)
    | (some blocked, root) => (.error (.conflict key (Key.ofSegments blocked)), ⟨root⟩)

def set (s : Settings) (key : String) (value : Value) : Except Error Settings :=
  match s.write key value with
  | (.ok (), s) => .ok s
  | (.error e, _) => .error e

def delete (s : Settings) (key : String) : Except Error (Value × Settings) :=
  match s.root.take? (Key.segments key) with
  | some (value, root) => .ok (value, ⟨root⟩)
  | none => .error (.keyNotFound key)

def leaves (s : Settings) : List (String × Value) := entryLeaves "" s.root

def keys (s : Settings) : List String := s.leaves.map (·.1)

def values (s : Settings) : List Value := s.leaves.map (·.2)

def isEmpty (s : Settings) : Bool := s.root.isEmpty

end Settings
end Interview
