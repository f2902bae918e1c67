import Interview.Walk.Include

/-! The tree of a document with the included documents in their places. It is finite, because every
level of inclusion uses up a place of the cache. -/

namespace Interview

/-- A node at its place. Below it stand the nodes of a branch or of an included document; there are
none below an include that has not been opened. -/
inductive Outline where
  | entry (place : WalkPath) (node : Node) (inner : Option (List Outline))

namespace Outline

mutual

def ofNode (expand : WalkPath → Option (List Outline)) (place : WalkPath) (n : Node) : Outline :=
  match n with
  | { interview := children, .. } =>
    match n.kind.bind Kind.ofName? with
    | some .branch =>
      match children with
      | some nodes => .entry place n (some (ofNodes expand place 0 nodes))
      | none => .entry place n none
    | some .inclusion => .entry place n (expand place)
    | _ => .entry place n none

def ofNodes (expand : WalkPath → Option (List Outline)) (parent : WalkPath) (index : Nat) :
    List Node → List Outline
  | [] => []
  | n :: rest => ofNode expand (parent ++ [index]) n :: ofNodes expand parent (index + 1) rest

end

def included (cache : IncludeCache) : Nat → WalkPath → Option (List Outline)
  | 0, _ => none
  | levels + 1, place =>
    (cache.nodes? place).map (ofNodes (included cache levels) place 0)

def ofDocument (cache : IncludeCache) (nodes : List Node) : List Outline :=
  ofNodes (included cache cache.size) [] 0 nodes

end Outline
end Interview
