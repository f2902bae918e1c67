import Interview.Pattern.Moves
import Interview.Pattern.Named

/-! Regular expressions, and how they match. Positions are counted in characters; only the existence of
a match matters here, so greed leaves no trace. Sequences and alternatives lean to the right, and are
built by functions that put together what can be put together. -/

namespace Interview.Pattern

open Unicode

inductive Assertion where
  | textStart
  | textEnd
  | lineStart (crlf : Bool)
  | lineEnd (crlf : Bool)
  | wordBoundary (ascii : Bool)
  | noWordBoundary (ascii : Bool)
  | wordStart (ascii : Bool)
  | wordEnd (ascii : Bool)
  | wordStartHalf (ascii : Bool)
  | wordEndHalf (ascii : Bool)
deriving DecidableEq

inductive Expression where
  | empty
  | literal (text : List Char)
  | chars (s : CodeSet)
  | assertion (a : Assertion)
  /-- A group that captures, with its number in the order of opening. -/
  | group (number : Nat) (body : Expression)
  | seq (first rest : Expression)
  | alt (first rest : Expression)
  | loop (body : Expression) (least : Nat) (most : Option Nat)
deriving DecidableEq

def isWordChar (ascii : Bool) : Option Char → Bool
  | none => false
  | some c => if ascii then c.isAlphanum || c == '_' else isWord c

def Assertion.holds (before after : Option Char) : Assertion → Bool
  | textStart => before.isNone
  | textEnd => after.isNone
  | lineStart false => before.isNone || before == some '\n'
  | lineStart true =>
    before.isNone || before == some '\n' || (before == some '\r' && after != some '\n')
  | lineEnd false => after.isNone || after == some '\n'
  | lineEnd true =>
    after.isNone || after == some '\r' || (after == some '\n' && before != some '\r')
  | wordBoundary ascii => isWordChar ascii before != isWordChar ascii after
  | noWordBoundary ascii => isWordChar ascii before == isWordChar ascii after
  | wordStart ascii => !isWordChar ascii before && isWordChar ascii after
  | wordEnd ascii => isWordChar ascii before && !isWordChar ascii after
  | wordStartHalf ascii => !isWordChar ascii before
  | wordEndHalf ascii => !isWordChar ascii after

def before (text : Array Char) (i : Nat) : Option Char := if i = 0 then none else text[i - 1]?

namespace Expression

def standsAt (text : Array Char) : List Char → Nat → Bool
  | [], _ => true
  | c :: cs, i => text[i]? == some c && standsAt text cs (i + 1)

/-- The moves through a text that an expression allows. Without a bound of its own, a repetition goes
on for at most as long as there are positions. -/
def moves (text : Array Char) : Expression → Moves
  | .empty => .stay (positionsWhere (text.size + 1) fun _ => true)
  | .literal cs => .pass (positionsWhere (text.size + 1) (standsAt text cs)) cs.length
  | .chars s => .pass (positionsWhere text.size fun i => text[i]?.any fun c => s.contains c.toNat) 1
  | .assertion a =>
    .stay (positionsWhere (text.size + 1) fun i => a.holds (before text i) text[i]?)
  | .group _ e => e.moves text
  | .seq a b => .seq (a.moves text) (b.moves text)
  | .alt a b => .alt (a.moves text) (b.moves text)
  | .loop e least most => .loop (e.moves text) least ((most.getD (least + text.size + 1)) - least)

def matchesAtStart (e : Expression) (cs : List Char) : Bool := (e.moves cs.toArray).run 1 != 0

/-- One character of a set; a set of one character is as good as that character. -/
def ofSet (s : CodeSet) : Expression :=
  match s.ranges with
  | [(low, high)] => if low = high then literal [Char.ofNat low] else chars s
  | _ => chars s

def parts : Expression → List Expression
  | empty => []
  | seq a b => a :: b.parts
  | e => [e]

def branches : Expression → List Expression
  | alt a b => a :: b.branches
  | e => [e]

def joinLiterals (es : List Expression) : List Expression :=
  es.foldr (fun e joined =>
    match e, joined with
    | literal cs, literal ds :: more => literal (cs ++ ds) :: more
    | e, joined => e :: joined) []

def chain (join : Expression → Expression → Expression) (es : List Expression) : Expression :=
  match es.reverse with
  | [] => empty
  | last :: before => before.foldl (fun rest e => join e rest) last

def concat (es : List Expression) : Expression := chain seq (joinLiterals (es.flatMap parts))

def char? : Expression → Option Nat
  | literal [c] => some c.toNat
  | _ => none

def set? : Expression → Option CodeSet
  | chars s => some s
  | _ => none

def isSeq : Expression → Bool
  | seq _ _ => true
  | _ => false

def sharedStart (as bs : List Expression) : List Expression :=
  ((as.zip bs).takeWhile fun (a, b) => a = b).map (·.1)

/-- A choice. Single characters make a set, sets make one set, and what sequences begin with in common
stands before the choice between their rests. -/
def choice : Nat → List Expression → Expression
  | 0, es => chain alt es
  | fuel + 1, es =>
    let es := es.flatMap branches
    match es.mapM char?, es.mapM set? with
    | some ns, _ => if es.length = 1 then chain alt es else ofSet (.ofList ns)
    | none, some sets => ofSet (.unions sets)
    | none, none =>
      let lists := es.map parts
      let shared := lists.tail.foldl sharedStart (lists.headD [])
      if es.length = 1 || !es.all isSeq || shared.isEmpty then chain alt es
      else concat (shared ++ [choice fuel (lists.map fun list => concat (list.drop shared.length))])

def count : Expression → Nat
  | group _ e => e.count + 1
  | seq a b => a.count + b.count
  | alt a b => a.count + b.count
  | loop e _ _ => e.count + 1
  | _ => 1

def alternation (es : List Expression) : Expression :=
  choice (es.foldl (fun n e => n + e.count) 1) es

/-- Whether nothing but the empty text can match. -/
def isVoid : Expression → Bool
  | empty => true
  | literal _ => false
  | chars _ => false
  | assertion _ => true
  | group _ e => e.isVoid
  | seq a b => a.isVoid && b.isVoid
  | alt a b => a.isVoid && b.isVoid
  | loop e _ most => most.isSome && e.isVoid

/-- A repetition; of what matches the empty text alone, more than one changes nothing. -/
def repeated (e : Expression) (least : Nat) (most : Option Nat) : Expression :=
  let (least, most) := if e.isVoid then (min least 1, some (min (most.getD 1) 1)) else (least, most)
  match least, most with
  | 0, some 0 => empty
  | 1, some 1 => e
  | _, _ => loop e least most

end Expression
end Interview.Pattern
