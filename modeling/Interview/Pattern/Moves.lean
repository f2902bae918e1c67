/-! How the parts of an expression lead from positions in a text to positions. A set of positions is a
number with one bit for each of them, so that all its members move at once. -/

namespace Interview.Pattern

def positionsWhere (size : Nat) (p : Nat → Bool) : Nat :=
  (List.range size).foldl (fun set i => if p i then set ||| 1 <<< i else set) 0

inductive Moves where
  /-- Nothing is passed, and only these positions are left. -/
  | stay (allowed : Nat)
  /-- So many characters are passed from each of these positions. -/
  | pass (allowed length : Nat)
  | seq (first rest : Moves)
  | alt (first rest : Moves)
  /-- A number of moves, one after another, and then up to so many more. -/
  | loop (body : Moves) (least more : Nat)

namespace Moves

/-- So many moves; where one changes nothing, neither do the rest. -/
def iterate (move : Nat → Nat) : Nat → Nat → Nat
  | 0, positions => positions
  | n + 1, positions =>
    let next := move positions
    if next = positions then positions else iterate move n next

/-- Up to so many moves. Positions reached before lead nowhere new, so that only those reached last move
on. -/
def spread (move : Nat → Nat) : Nat → Nat → Nat → Nat
  | 0, reached, _ => reached
  | n + 1, reached, latest =>
    let next := reached ||| move latest
    let fresh := next ^^^ reached
    if fresh = 0 then reached else spread move n next fresh

def run : Moves → Nat → Nat
  | stay allowed, positions => positions &&& allowed
  | pass allowed length, positions => (positions &&& allowed) <<< length
  | seq a b, positions => b.run (a.run positions)
  | alt a b, positions => a.run positions ||| b.run positions
  | loop a least more, positions =>
    let first := iterate a.run least positions
    spread a.run more first first

end Moves
end Interview.Pattern
