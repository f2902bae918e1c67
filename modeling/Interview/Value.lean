import Interview.Datetime
import Interview.Number.Binary64

/-! Values of settings: scalars, lists, and tables that keep the order in which their keys were
first written. Equality is that of the data: floats compare by value and tables by content, whatever
the order of their keys. -/

namespace Interview

open Number

inductive Value where
  | str (s : String)
  | int (n : Int64)
  | float (x : Binary64)
  | bool (b : Bool)
  | datetime (d : Datetime)
  | array (items : List Value)
  | table (entries : List (String × Value))
deriving Inhabited

abbrev Table := List (String × Value)

namespace Table

def get? (key : String) : Table → Option Value
  | [] => none
  | (k, v) :: rest => if k = key then some v else get? key rest

/-- A new key goes to the end; a known key keeps its place. -/
def insert (key : String) (value : Value) : Table → Table
  | [] => [(key, value)]
  | (k, v) :: rest => if k = key then (k, value) :: rest else (k, v) :: insert key value rest

def erase (key : String) (t : Table) : Table := t.filter (·.1 != key)

def ofEntries (entries : List (String × Value)) : Table :=
  entries.foldl (fun t (k, v) => insert k v t) []

@[simp] theorem get?_insert_self (key : String) (value : Value) (t : Table) :
    get? key (insert key value t) = some value := by
  induction t with
  | nil => simp [insert, get?]
  | cons e rest ih =>
    obtain ⟨k, v⟩ := e
    by_cases h : k = key <;> simp [insert, get?, h, ih]

theorem get?_insert_of_ne {key other : String} (h : key ≠ other) (value : Value) (t : Table) :
    get? other (insert key value t) = get? other t := by
  induction t with
  | nil => simp [insert, get?, h]
  | cons e rest ih =>
    obtain ⟨k, v⟩ := e
    by_cases hk : k = key
    · subst hk; simp [insert, get?, h]
    · simp [insert, get?, hk, ih]

@[simp] theorem get?_erase_self (key : String) (t : Table) : get? key (erase key t) = none := by
  induction t with
  | nil => rfl
  | cons e rest ih =>
    obtain ⟨k, v⟩ := e
    by_cases h : k = key
    · simpa [erase, h] using ih
    · simpa [erase, get?, h] using ih

theorem get?_erase_of_ne {key other : String} (h : key ≠ other) (t : Table) :
    get? other (erase key t) = get? other t := by
  induction t with
  | nil => rfl
  | cons e rest ih =>
    obtain ⟨k, v⟩ := e
    by_cases hk : k = key
    · subst hk; simpa [erase, get?, h] using ih
    · by_cases ho : k = other
      · subst ho; simp [erase, get?, hk]
      · simpa [erase, get?, hk, ho] using ih

end Table

namespace Value

mutual

def equal : Value → Value → Bool
  | str s, str t => s == t
  | int m, int n => m == n
  | float x, float y => x.equal y
  | bool a, bool b => a == b
  | datetime d, datetime e => d == e
  | array xs, array ys => equalItems xs ys
  | table es, table fs => es.length == fs.length && equalEntries es fs
  | _, _ => false

def equalItems : List Value → List Value → Bool
  | [], [] => true
  | x :: xs, y :: ys => equal x y && equalItems xs ys
  | _, _ => false

def equalEntries : List (String × Value) → Table → Bool
  | [], _ => true
  | (k, v) :: rest, t =>
    (match Table.get? k t with
      | some w => equal v w
      | none => false) && equalEntries rest t

end

instance : BEq Value := ⟨equal⟩

def isTable : Value → Bool
  | table _ => true
  | _ => false

end Value
end Interview
