import Interview.Pattern.Expression

/-! The size of the machine that an expression stands for, which reads a text byte by byte. Repetitions
are written out in it. It is counted twice, for reading forward with groups and for reading backward
without them; an expression is refused when either machine is too large. -/

namespace Interview.Pattern

open Unicode

abbrev ByteRange := Nat × Nat

/-- The numbers between two bounds, written with so many digits to the base 64 after a first digit, as
lists of digit ranges: as few lists as hold exactly these numbers. -/
def digitRanges : Nat → Nat → Nat → List (List (Nat × Nat))
  | 0, low, high => [[(low, high)]]
  | k + 1, low, high =>
    let unit := Nat.pow 64 (k + 1)
    let under (digits : Nat × Nat) (low high : Nat) := (digitRanges k low high).map (digits :: ·)
    let (a, b) := (low / unit, high / unit)
    if a = b then under (a, a) (low % unit) (high % unit)
    else
      let first := if low % unit = 0 then a else a + 1
      let stop := if high % unit = unit - 1 then b + 1 else b
      (if first = a then [] else under (a, a) (low % unit) (unit - 1)) ++
        (if first < stop then under (first, stop - 1) 0 (unit - 1) else []) ++
        (if stop = b then under (b, b) 0 (high % unit) else [])

/-- The characters of a range as sequences of byte ranges. The first byte carries a mark of the length,
and each byte after it the mark of a continuation. -/
def byteSequences (low high : Nat) : List (List ByteRange) :=
  let shift (mark : Nat) (digits : Nat × Nat) : ByteRange := (digits.1 + mark, digits.2 + mark)
  let within (first last continued mark : Nat) : List (List ByteRange) :=
    if max low first ≤ min high last then
      (digitRanges continued (max low first) (min high last)).map fun digits =>
        (digits.take 1).map (shift mark) ++ (digits.drop 1).map (shift 0x80)
    else []
  within 0 0x7f 0 0 ++ within 0x80 0x7ff 1 0xc0 ++ within 0x800 0xd7ff 2 0xe0 ++
    within 0xe000 0xffff 2 0xe0 ++ within 0x10000 0x10ffff 3 0xf0

/-- The fixed part of every state. To it comes a branch for every way on without a byte, and an arc for
every range of bytes where a state has several ranges. -/
def stateSize : Nat := 32

def branchSize : Nat := 4

def arcSize : Nat := 8

def sparseSize (arcs : Nat) : Nat := stateSize + arcSize * arcs

def unionSize (branches : Nat) : Nat := stateSize + branchSize * branches

def grouped : List (List ByteRange) → List (ByteRange × List (List ByteRange))
  | [] => []
  | [] :: rest => grouped rest
  | (r :: tail) :: rest =>
    match grouped rest with
    | (r', tails) :: more =>
      if r = r' then (r, tail :: tails) :: more else (r, [tail]) :: (r', tails) :: more
    | [] => [(r, [tail])]

/-- The states of a forward machine by their arcs, each arc a range with the number of the state after
it; states with the same arcs are one. The final state has the number zero. -/
abbrev Shared := List (List (ByteRange × Nat))

/-- The number of the state that reads some sequences, which is added where it is new. -/
def stateOf : Nat → List (List ByteRange) → StateM Shared Nat
  | 0, _ => return 0
  | depth + 1, sequences => do
    let arcs ← (grouped sequences).mapM fun (r, tails) => do
      if tails.all List.isEmpty then return (r, 0) else return (r, ← stateOf depth tails)
    let known ← get
    match known.findIdx? (· = arcs) with
    | some i => return known.length - i
    | none =>
      set (arcs :: known)
      return known.length + 1

def starts : Nat → List (List ByteRange) → Nat
  | 0, _ => 0
  | depth + 1, sequences =>
    (grouped sequences).foldl (fun n (_, tails) => n + 1 + starts depth tails) 0

inductive Direction where
  | forward
  | backward
deriving DecidableEq

def setSize (direction : Direction) (s : CodeSet) : Nat :=
  if s.ranges.all (·.2 < 0x80) then stateSize + sparseSize s.ranges.length
  else
    let sequences := s.ranges.flatMap fun (low, high) => byteSequences low high
    match direction with
    | .forward =>
      let (_, states) := (stateOf 4 sequences).run []
      states.foldl (fun size arcs => size + sparseSize arcs.length) stateSize
    | .backward => unionSize sequences.length + stateSize + stateSize * starts 4 sequences

/-- No less than the size of a set in either direction, and quickly found. -/
def setBound (s : CodeSet) : Nat :=
  s.ranges.foldl (fun size (low, high) => size + if high < low + 64 then 512 else 4096) (2 * stateSize)

abbrev Word := List UInt8

def utf8 (cs : List Char) : Word := cs.flatMap String.utf8EncodeChar

def betweenEnds (words : List Word) : List (List Word) :=
  words.foldr (fun word groups =>
    match word, groups with
    | [], _ => [] :: groups
    | _, group :: more => (word :: group) :: more
    | _, [] => [[word]]) [[]]

def byFirst (words : List Word) : List (List Word) :=
  (words.filterMap List.head?).eraseDups.map fun byte =>
    words.filterMap fun word => if word.head? = some byte then some word.tail else none

/-- The states that read one of some words, letter by letter: words with the same first byte share the
state for it, except across a word that ends there, so that the order of the words stays. Ends that
follow each other at the front count once. -/
def wordStates : Nat → List Word → Nat
  | 0, _ => 0
  | depth + 1, words =>
    if words.all List.isEmpty then 0
    else
      let groups := betweenEnds words
      let ends := groups.length - 1 - ((words.takeWhile List.isEmpty).length - 1)
      let choices := (groups.map byFirst).filter (!·.isEmpty)
      choices.foldl (fun size tails =>
        let own := if tails.length = 1 then stateSize else sparseSize tails.length
        tails.foldl (fun size words => size + wordStates depth words) (size + own))
        (unionSize (ends + choices.length))

def wordsSize (direction : Direction) (words : List (List Char)) : Nat :=
  let words := words.map utf8
  let words := if direction = .forward then words else words.map List.reverse
  stateSize + wordStates ((words.map List.length).foldl max 0 + 1) words

namespace Expression

def literal? : Expression → Option (List Char)
  | literal cs => some cs
  | _ => none

/-- Whether every match has a character at least; nothing where no text matches. -/
def consumes? : Expression → Option Bool
  | empty => some false
  | literal _ => some true
  | chars s => if s.ranges.isEmpty then none else some true
  | assertion _ => some false
  | group _ e => e.consumes?
  | seq a b => do return (← a.consumes?) || (← b.consumes?)
  | alt a b => do return (← a.consumes?) && (← b.consumes?)
  | loop e least _ => e.consumes?.map (· && 0 < least)

def isAtStart : Expression → Bool
  | assertion a => a = .textStart
  | group _ e => e.isAtStart
  | seq a b => a.isAtStart || (a.isVoid && b.isAtStart)
  | alt a b => a.isAtStart && b.isAtStart
  | loop e least _ => 0 < least && e.isAtStart
  | _ => false

def isAtEnd : Expression → Bool
  | assertion a => a = .textEnd
  | group _ e => e.isAtEnd
  | seq a b => b.isAtEnd || (b.isVoid && a.isAtEnd)
  | alt a b => a.isAtEnd && b.isAtEnd
  | loop e least _ => 0 < least && e.isAtEnd
  | _ => false

def repeatedSize (size : Nat) (consumes : Bool) : Nat → Option Nat → Nat
  | 0, none => if consumes then unionSize 2 + size else 2 * unionSize 2 + stateSize + size
  | least, none => least * size + unionSize 2
  | 0, some 1 => unionSize 2 + stateSize + size
  | least, some most =>
    if least = most then least * size
    else
      (if least = 0 then stateSize else least * size) + stateSize +
        (most - least) * (unionSize 2 + size)

/-- The size of an expression, of sets by a given measure; a choice is counted together with the
alternatives after it. -/
def size (direction : Direction) (set : CodeSet → Nat) : Bool → Expression → Nat
  | inChoice, e =>
    (if inChoice && e.branches.length = 1 then branchSize else 0) +
      match e with
      | empty => stateSize
      | literal cs => stateSize * (utf8 cs).length
      | chars s => set s
      | assertion _ => stateSize
      | group _ e =>
        (if direction = .forward then 2 * stateSize else 0) + e.size direction set false
      | seq a b => a.size direction set false + b.size direction set false
      | alt a b =>
        match if inChoice then none else (alt a b).branches.mapM literal? with
        | some words => wordsSize direction words
        | none =>
          (if inChoice then 0 else 2 * stateSize) + branchSize + a.size direction set false +
            b.size direction set true
      | loop e least most =>
        repeatedSize (e.size direction set false) (e.consumes? = some true) least most

/-- The whole machine: it searches for a start, unless that is plain, and ends in a match. Going forward,
the match itself is a group. -/
def machineSize (direction : Direction) (set : CodeSet → Nat) (e : Expression) : Nat :=
  let isFixed := if direction = .forward then e.isAtStart else e.isAtEnd
  (if isFixed then stateSize else unionSize 2 + stateSize + sparseSize 1) +
    (group 0 e).size direction set false + stateSize

def sizeLimit : Nat := 10 * Nat.pow 2 20

def fits (e : Expression) : Bool :=
  [.forward, .backward].all fun direction =>
    e.machineSize direction setBound ≤ sizeLimit ||
      e.machineSize direction (setSize direction) ≤ sizeLimit

end Expression
end Interview.Pattern
