import Interview.Pattern.Escape

/-! Classes of characters in brackets, with classes and operators inside them. -/

namespace Interview.Pattern

open Unicode Read

def literalSet (f : Flags) (c : Char) : Read CodeSet :=
  if !f.unicode && 0x80 ≤ c.toNat then failure else return .single c.toNat

def classItem (f : Flags) : Read Primitive := do
  let c ← next
  if c = '\\' then escape f
  else
    bump
    return .literal c false

def itemSet (f : Flags) : Primitive → Read CodeSet
  | .literal c _ => literalSet f c
  | .set s => return s
  | .assertion _ => failure

def classRange (f : Flags) : Read CodeSet := do
  let first ← classItem f
  space f
  let c ← next
  let after ← peekAfter f
  if c ≠ '-' ∨ after = some ']' ∨ after = some '-' then itemSet f first
  else
    bumpSpace f
    discard next
    let last ← classItem f
    match first, last with
    | .literal low _, .literal high _ =>
      if high < low || (!f.unicode && 0x80 ≤ high.toNat) then failure
      else return .range low.toNat high.toNat
    | _, _ => failure

/-- A class name between colons and brackets; nothing is read where there is none. -/
def asciiClass (f : Flags) : Read (Option CodeSet) := do
  let s ← get
  match s.rest with
  | '[' :: ':' :: rest =>
    let (negated, rest) :=
      match rest with
      | '^' :: rest => (true, rest)
      | _ => (false, rest)
    let name := rest.takeWhile (· != ':')
    match Text.stripPrefix? [':', ']'] (rest.drop name.length), asciiClass? (String.ofList name) with
    | some rest, some cls =>
      if negated && !f.unicode then failure
      else
        set { s with rest }
        let cls := folded f cls
        return some (if negated then cls.compl else cls)
    | _, _ => return none
  | _ => return none

/-- What has been read of a class: its characters, from how many items they come, and how deep classes
and operators nest in them. -/
structure Items where
  set : CodeSet := .empty
  count : Nat := 0
  depth : Nat := 0

namespace Items

def add (items : Items) (s : CodeSet) (depth : Nat) : Items :=
  ⟨items.set ∪ s, items.count + 1, max items.depth depth⟩

/-- Several items side by side are one level more. -/
def nesting (items : Items) : Nat := if items.count ≤ 1 then items.depth else items.depth + 1

end Items

structure Nested where
  set : CodeSet
  depth : Nat

def hyphens (f : Flags) : Nat → Items → Read Items
  | 0, items => return items
  | fuel + 1, items => do
    if (← next) = '-' then
      bumpSpace f
      hyphens f fuel (items.add (.single '-'.toNat) 0)
    else return items

/-- The start of a class after its bracket: whether it is negated, and what is already in it. -/
def classOpening (f : Flags) : Read (Bool × Items) := do
  bumpSpace f
  let negated := (← next) = '^'
  if negated then bumpSpace f
  let items ← hyphens f ((← get).rest.length + 1) {}
  if items.count = 0 && (← next) = ']' then
    bumpSpace f
    discard next
    return (negated, items.add (.single ']'.toNat) 0)
  else
    discard next
    return (negated, items)

inductive SetOperator where
  | inter
  | diff
  | symmDiff

def SetOperator.apply : SetOperator → CodeSet → CodeSet → CodeSet
  | inter => CodeSet.inter
  | diff => CodeSet.diff
  | symmDiff => CodeSet.symmDiff

def setOperator? : List Char → Option (SetOperator × List Char)
  | '&' :: '&' :: rest => some (.inter, rest)
  | '-' :: '-' :: rest => some (.diff, rest)
  | '~' :: '~' :: rest => some (.symmDiff, rest)
  | _ => none

def operated (f : Flags) (left : Option (SetOperator × Nested)) (items : Items) : Nested :=
  match left with
  | none => ⟨items.set, items.nesting⟩
  | some (op, t) => ⟨op.apply (folded f t.set) (folded f items.set), max t.depth items.nesting + 1⟩

def finishClass (f : Flags) (negated : Bool) (inside : Nested) : Read Nested :=
  let s := folded f inside.set
  if negated && !f.unicode then failure
  else return ⟨if negated then s.compl else s, inside.depth + 1⟩

def depthLimit : Nat := 250

/-- The rest of a class up to its closing bracket, with room for so many classes inside each other. -/
def classBody (f : Flags) : (room fuel : Nat) → (negated : Bool) →
    (left : Option (SetOperator × Nested)) → Items → Read Nested
  | 0, _, _, _, _ => failure
  | _, 0, _, _, _ => failure
  | room + 1, fuel + 1, negated, left, items => do
    space f
    match (← get).rest with
    | [] => failure
    | ']' :: _ =>
      bump
      finishClass f negated (operated f left items)
    | '[' :: _ =>
      match ← asciiClass f with
      | some s => classBody f (room + 1) fuel negated left (items.add s 0)
      | none =>
        let (innerNegated, start) ← classOpening f
        let inner ← classBody f room fuel innerNegated none start
        classBody f (room + 1) fuel negated left (items.add inner.set inner.depth)
    | cs =>
      match setOperator? cs with
      | some (op, rest) =>
        modify fun source => { source with rest }
        classBody f (room + 1) fuel negated (some (op, operated f left items)) {}
      | none => classBody f (room + 1) fuel negated left (items.add (← classRange f) 0)

def bracketed (f : Flags) : Read Nested := do
  let (negated, start) ← classOpening f
  classBody f depthLimit ((← get).rest.length + 1) negated none start

end Interview.Pattern
