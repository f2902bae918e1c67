import Interview.Number.Integer
import Interview.Text.Blank

/-! Sets of characters as ranges of code points, in ascending order and with a gap between any two.
Union and complement are computed on the ranges; the other operations come from these two. No set
holds a surrogate once a complement has been taken. -/

namespace Interview.Unicode

structure CodeSet where
  ranges : List (Nat × Nat)
deriving DecidableEq

namespace CodeSet

def empty : CodeSet := ⟨[]⟩

def range (low high : Nat) : CodeSet := ⟨[(low, high)]⟩

def single (n : Nat) : CodeSet := range n n

def any : CodeSet := ⟨[(0, 0xd7ff), (0xe000, 0x10ffff)]⟩

def surrogates : CodeSet := range 0xd800 0xdfff

/-- Ranges in order of their starts, where those that meet become one. -/
def coalesce : List (Nat × Nat) → List (Nat × Nat)
  | [] => []
  | r :: rest => go r.1 r.2 rest
where
  go (low high : Nat) : List (Nat × Nat) → List (Nat × Nat)
    | [] => [(low, high)]
    | (l, h) :: rest => if l ≤ high + 1 then go low (max high h) rest else (low, high) :: go l h rest

def ofRanges (ranges : List (Nat × Nat)) : CodeSet := ⟨coalesce (ranges.mergeSort (·.1 ≤ ·.1))⟩

def ofList (ns : List Nat) : CodeSet := ofRanges (ns.map fun n => (n, n))

def union (a b : CodeSet) : CodeSet := ⟨coalesce (a.ranges.merge b.ranges (·.1 ≤ ·.1))⟩

def unions (sets : List CodeSet) : CodeSet := ofRanges (sets.flatMap ranges)

def gaps (n : Nat) : List (Nat × Nat) → List (Nat × Nat)
  | [] => if n ≤ 0x10ffff then [(n, 0x10ffff)] else []
  | (low, high) :: rest =>
    if n < low then (n, low - 1) :: gaps (high + 1) rest else gaps (high + 1) rest

def compl (a : CodeSet) : CodeSet := ⟨gaps 0 (a.union surrogates).ranges⟩

def diff (a b : CodeSet) : CodeSet := (a.compl.union b).compl

def inter (a b : CodeSet) : CodeSet := (a.compl.union b.compl).compl

def symmDiff (a b : CodeSet) : CodeSet := (a.union b).diff (a.inter b)

def contains (a : CodeSet) (n : Nat) : Bool := go a.ranges
where
  go : List (Nat × Nat) → Bool
    | [] => false
    | (low, high) :: rest => low ≤ n && (n ≤ high || go rest)

/-- The members as code points; of use for small sets only. -/
def toList (a : CodeSet) : List Nat :=
  a.ranges.flatMap fun (low, high) => (List.range (high + 1 - low)).map (low + ·)

/-- A set written with hexadecimal code points and ranges, such as `5F 203F-2040`. -/
def ofText (lines : List String) : CodeSet :=
  ofRanges ((lines.flatMap fun line => Text.words line.toList).filterMap fun word =>
    match (Text.cut '-' word).map Number.ofHex? with
    | [some n] => some (n, n)
    | [some low, some high] => some (low, high)
    | _ => none)

instance : Union CodeSet := ⟨union⟩
instance : Inter CodeSet := ⟨inter⟩
instance : SDiff CodeSet := ⟨diff⟩

end CodeSet

structure Run where
  code : List Char
  low : Nat
  high : Nat

/-- The runs of a table, from a code point on. It is written as words, each a code of fixed width and the
number of characters that have it in a row, where a missing number means one. -/
def runs (width : Nat) : Nat → Nat → List Char → List Run
  | 0, _, _ => []
  | _, _, [] => []
  | fuel + 1, n, cs =>
    let rest := cs.drop width
    let digits := rest.takeWhile Number.isDigit
    let count := if digits.isEmpty then 1 else Number.ofDigits digits
    ⟨cs.take width, n, n + count - 1⟩ :: runs width fuel (n + count) (rest.drop digits.length)

def table (width : Nat) (lines : List String) : List Run :=
  let cs := (String.join lines).toList
  runs width cs.length 0 cs

def having (codes : List String) (table : List Run) : CodeSet :=
  let codes := codes.map String.toList
  ⟨CodeSet.coalesce <| table.filterMap fun run =>
    if codes.contains run.code then some (run.low, run.high) else none⟩

end Interview.Unicode
