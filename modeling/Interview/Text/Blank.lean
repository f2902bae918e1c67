/-! Blank characters, trimming and the cutting of text at a separator. Everything works on lists of
characters; `cut` never loses a character other than the separators, as `join_cut` says. -/

namespace Interview.Text

/-- The characters with the Unicode property White_Space. -/
def isBlank (c : Char) : Bool :=
  let n := c.toNat
  (9 ≤ n && n ≤ 13) || n == 0x20 || n == 0x85 || n == 0xA0 || n == 0x1680 ||
  (0x2000 ≤ n && n ≤ 0x200A) || n == 0x2028 || n == 0x2029 || n == 0x202F || n == 0x205F ||
  n == 0x3000

def dropEndWhile (p : Char → Bool) (cs : List Char) : List Char :=
  (cs.reverse.dropWhile p).reverse

def trimStart (cs : List Char) : List Char := cs.dropWhile isBlank

def trimEnd (cs : List Char) : List Char := dropEndWhile isBlank cs

def trim (cs : List Char) : List Char := trimEnd (trimStart cs)

/-- The pieces between the separators: always one more than there are separators. -/
def cut (sep : Char) : List Char → List (List Char)
  | [] => [[]]
  | c :: cs =>
    if c = sep then [] :: cut sep cs
    else
      match cut sep cs with
      | [] => [[c]]
      | piece :: rest => (c :: piece) :: rest

def join (sep : List Char) : List (List Char) → List Char
  | [] => []
  | [piece] => piece
  | piece :: rest => piece ++ sep ++ join sep rest

theorem cut_ne_nil (sep : Char) (cs : List Char) : cut sep cs ≠ [] := by
  cases cs with
  | nil => simp [cut]
  | cons c cs =>
    unfold cut
    split
    · simp
    · split <;> simp

theorem join_cons_cons (sep : List Char) (c : Char) (piece : List Char)
    (rest : List (List Char)) :
    join sep ((c :: piece) :: rest) = c :: join sep (piece :: rest) := by
  cases rest <;> simp [join]

theorem join_cut (sep : Char) (cs : List Char) : join [sep] (cut sep cs) = cs := by
  induction cs with
  | nil => rfl
  | cons c cs ih =>
    unfold cut
    split
    · next h =>
      cases hc : cut sep cs with
      | nil => exact absurd hc (cut_ne_nil sep cs)
      | cons piece rest => simp [join, ← hc, ih, h]
    · split
      · next h => exact absurd h (cut_ne_nil sep cs)
      · next piece rest h => rw [join_cons_cons, ← h, ih]

def cutOnce (sep : Char) : List Char → Option (List Char × List Char)
  | [] => none
  | c :: cs =>
    if c = sep then some ([], cs)
    else (cutOnce sep cs).map fun (before, after) => (c :: before, after)

def words (cs : List Char) : List (List Char) :=
  let rec go : List Char → List Char → List (List Char)
    | [], word => if word.isEmpty then [] else [word.reverse]
    | c :: cs, word =>
      if isBlank c then
        if word.isEmpty then go cs [] else word.reverse :: go cs []
      else go cs (c :: word)
  go cs []

/-- The lines of a text, without their line ends. A carriage return before the line feed belongs to
the line end, and no line follows the last line end. -/
def lines (cs : List Char) : List (List Char) :=
  let pieces := cut '\n' cs
  let (ended, rest) := (pieces.dropLast, pieces.getLast?.getD [])
  let strip (line : List Char) :=
    match line.reverse with
    | '\r' :: before => before.reverse
    | _ => line
  ended.map strip ++ (if rest.isEmpty then [] else [rest])

def stripPrefix? : List Char → List Char → Option (List Char)
  | [], cs => some cs
  | _ :: _, [] => none
  | p :: ps, c :: cs => if p = c then stripPrefix? ps cs else none

def lowerAscii (cs : List Char) : List Char := cs.map Char.toLower

end Interview.Text
