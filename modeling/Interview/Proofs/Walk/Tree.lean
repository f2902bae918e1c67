import Interview.Proofs.Walk.Examination

/-! The nodes of a document with its included documents in place. They are listed in the order of the
document, and each stands among the nodes of the document itself or right inside another one. -/

namespace Interview

namespace Outline

mutual

def preorder : Outline → List (WalkPath × Node)
  | .entry place n none => [(place, n)]
  | .entry place n (some inner) => (place, n) :: preorderAll inner

def preorderAll : List Outline → List (WalkPath × Node)
  | [] => []
  | first :: rest => first.preorder ++ preorderAll rest

end

theorem preorder_entry (place : WalkPath) (n : Node) (inner : Option (List Outline)) :
    (entry place n inner).preorder = (place, n) :: preorderAll (inner.getD []) := by
  cases inner <;> simp [preorder, preorderAll]

end Outline

namespace Walk

variable {cache : IncludeCache} {doc : List Node}

def treeFrom (cache : IncludeCache) (parent : WalkPath) (index : Nat) (nodes : List Node) :
    List (WalkPath × Node) :=
  Outline.preorderAll (Outline.ofNodes (Outline.expansion cache) parent index nodes)

/-- All nodes of a document and of the documents included in it, in order. -/
def tree (cache : IncludeCache) (nodes : List Node) : List (WalkPath × Node) :=
  Outline.preorderAll (Outline.ofDocument cache nodes)

theorem tree_eq (cache : IncludeCache) (nodes : List Node) :
    tree cache nodes = treeFrom cache [] 0 nodes := rfl

theorem treeFrom_nil (parent : WalkPath) (index : Nat) : treeFrom cache parent index [] = [] := by
  simp only [treeFrom, Outline.ofNodes, Outline.preorderAll]

theorem kind_bind_of_error {n : Node} {place : WalkPath} {e : Error} (h : n.kindAt place = .error e) :
    n.kind.bind Kind.ofName? = none := by
  cases hb : n.kind.bind Kind.ofName? with
  | none => rfl
  | some kind =>
    rw [Node.kindAt_eq_ok.mpr hb] at h
    cases h

theorem ofNode_inside (cache : IncludeCache) (place : WalkPath) (n : Node) :
    ∃ inner, Outline.ofNode (Outline.expansion cache) place n = .entry place n inner ∧
      inner.getD [] = Outline.ofNodes (Outline.expansion cache) place 0 (inside cache place n) := by
  have hnone : [] = Outline.ofNodes (Outline.expansion cache) place 0 [] := by simp only [Outline.ofNodes]
  refine ⟨_, Outline.ofNode_eq _ place n, ?_⟩
  unfold inside
  cases hk : n.kindAt place with
  | error e =>
    rw [kind_bind_of_error hk]
    exact hnone
  | ok kind =>
    rw [Node.kindAt_eq_ok.mp hk]
    cases kind with
    | branch =>
      cases n.interview with
      | none => exact hnone
      | some nodes => rfl
    | inclusion =>
      simp only [Outline.expansion_eq cache place]
      cases cache.nodes? place with
      | none => exact hnone
      | some nodes => rfl
    | _ => exact hnone

theorem preorder_ofNode (place : WalkPath) (n : Node) :
    (Outline.ofNode (Outline.expansion cache) place n).preorder =
      (place, n) :: treeFrom cache place 0 (inside cache place n) := by
  obtain ⟨inner, he, hi⟩ := ofNode_inside cache place n
  rw [he, Outline.preorder_entry, hi]
  rfl

theorem treeFrom_cons (parent : WalkPath) (index : Nat) (n : Node) (rest : List Node) :
    treeFrom cache parent index (n :: rest) =
      (parent ++ [index], n) ::
        (treeFrom cache (parent ++ [index]) 0 (inside cache (parent ++ [index]) n) ++
          treeFrom cache parent (index + 1) rest) := by
  rw [treeFrom, Outline.ofNodes, Outline.preorderAll, preorder_ofNode]
  rfl

theorem inside_cases (cache : IncludeCache) (place : WalkPath) (n : Node) :
    inside cache place n = [] ∨ n.interview = some (inside cache place n) ∨
      cache.nodes? place = some (inside cache place n) := by
  unfold inside
  split
  · cases n.interview <;> simp
  · cases cache.nodes? place <;> simp
  · exact .inl rfl

/-- What holds of no nodes, and of a node and those after it whenever it holds of those inside the node
and of those after it, holds everywhere: down the tree the cached places are used up. -/
theorem tree_induction (cache : IncludeCache) {motive : WalkPath → Nat → List Node → Prop}
    (nil : ∀ parent index, motive parent index [])
    (cons : ∀ parent index n rest, motive (parent ++ [index]) 0 (inside cache (parent ++ [index]) n) →
      motive parent (index + 1) rest → motive parent index (n :: rest))
    (parent : WalkPath) (index : Nat) (nodes : List Node) : motive parent index nodes := by
  cases nodes with
  | nil => exact nil parent index
  | cons n rest =>
    have hrest : motive parent (index + 1) rest := tree_induction cache nil cons _ _ rest
    have hinside : motive (parent ++ [index]) 0 (inside cache (parent ++ [index]) n) := by
      rcases inside_cases cache (parent ++ [index]) n with hn | hn | hn
      · rw [hn]
        exact nil _ _
      · have hs := Node.sizeOf_interview hn
        exact tree_induction cache nil cons _ _ _
      · have hb := IncludeCache.beyond_lt hn
        exact tree_induction cache nil cons _ _ _
    exact cons parent index n rest hinside hrest
termination_by (cache.beyond (parent.length + 1), sizeOf nodes)
decreasing_by
  · refine Prod.Lex.right _ ?_
    simp only [List.cons.sizeOf_spec]
    omega
  · refine Prod.Lex.right' _ (cache.beyond_anti (by simp)) ?_
    simp only [List.cons.sizeOf_spec]
    omega
  · refine Prod.Lex.left _ _ ?_
    simpa only [List.length_append, List.length_singleton] using hb

/-- A node at its place, as the way down to it shows. -/
inductive Stands (cache : IncludeCache) (doc : List Node) : WalkPath → Node → Prop
  | top {i : Nat} {n : Node} : doc[i]? = some n → Stands cache doc [i] n
  | within {place : WalkPath} {m n : Node} {i : Nat} :
    Stands cache doc place m → (inside cache place m)[i]? = some n → Stands cache doc (place ++ [i]) n

def StandAt (cache : IncludeCache) (doc : List Node) (parent : WalkPath) (index : Nat)
    (nodes : List Node) : Prop :=
  ∀ i n, nodes[i]? = some n → Stands cache doc (parent ++ [index + i]) n

theorem StandAt.head {parent : WalkPath} {index : Nat} {n : Node} {rest : List Node}
    (h : StandAt cache doc parent index (n :: rest)) : Stands cache doc (parent ++ [index]) n :=
  h 0 n rfl

theorem StandAt.tail {parent : WalkPath} {index : Nat} {n : Node} {rest : List Node}
    (h : StandAt cache doc parent index (n :: rest)) : StandAt cache doc parent (index + 1) rest := by
  intro i m hi
  have hs := h (i + 1) m (by simpa using hi)
  rwa [show index + (i + 1) = index + 1 + i by omega] at hs

theorem Stands.inside {place : WalkPath} {n : Node} (h : Stands cache doc place n) :
    StandAt cache doc place 0 (inside cache place n) := by
  intro i m hi
  rw [Nat.zero_add]
  exact .within h hi

theorem standAt_doc (cache : IncludeCache) (doc : List Node) : StandAt cache doc [] 0 doc := by
  intro i n hi
  have ht : Stands cache doc [i] n := .top hi
  simpa using ht

theorem mem_treeFrom (cache : IncludeCache) (parent : WalkPath) (index : Nat) {i : Nat}
    {nodes : List Node} {n : Node} (h : nodes[i]? = some n) :
    (parent ++ [index + i], n) ∈ treeFrom cache parent index nodes := by
  induction nodes generalizing index i with
  | nil => simp at h
  | cons m rest ih =>
    rw [treeFrom_cons]
    cases i with
    | zero =>
      obtain rfl : m = n := by simpa using h
      exact List.mem_cons_self
    | succ i =>
      have hr : (parent ++ [index + 1 + i], n) ∈ treeFrom cache parent (index + 1) rest :=
        ih (index + 1) (by simpa using h)
      rw [show index + 1 + i = index + (i + 1) by omega] at hr
      exact List.mem_cons_of_mem _ (List.mem_append_right _ hr)

theorem mem_treeFrom_inside {parent : WalkPath} {index i : Nat} {nodes : List Node} {place : WalkPath}
    {m n : Node} (hm : (place, m) ∈ treeFrom cache parent index nodes)
    (h : (inside cache place m)[i]? = some n) :
    (place ++ [i], n) ∈ treeFrom cache parent index nodes := by
  induction parent, index, nodes using tree_induction cache with
  | nil => simp [treeFrom_nil] at hm
  | cons parent index first rest ihi ihr =>
    rw [treeFrom_cons] at hm ⊢
    rcases List.mem_cons.mp hm with he | hm
    · obtain ⟨rfl, rfl⟩ := Prod.mk.inj he
      have hi := mem_treeFrom cache (parent ++ [index]) 0 h
      rw [Nat.zero_add] at hi
      exact List.mem_cons_of_mem _ (List.mem_append_left _ hi)
    · rcases List.mem_append.mp hm with hm | hm
      · exact List.mem_cons_of_mem _ (List.mem_append_left _ (ihi hm))
      · exact List.mem_cons_of_mem _ (List.mem_append_right _ (ihr hm))

theorem stands_of_mem_treeFrom {parent : WalkPath} {index : Nat} {nodes : List Node}
    (hs : StandAt cache doc parent index nodes) {v : WalkPath × Node}
    (h : v ∈ treeFrom cache parent index nodes) : Stands cache doc v.1 v.2 := by
  induction parent, index, nodes using tree_induction cache with
  | nil => simp [treeFrom_nil] at h
  | cons parent index first rest ihi ihr =>
    rw [treeFrom_cons] at h
    rcases List.mem_cons.mp h with rfl | h
    · exact hs.head
    · rcases List.mem_append.mp h with h | h
      · exact ihi hs.head.inside h
      · exact ihr hs.tail h

theorem mem_tree_iff {place : WalkPath} {n : Node} :
    (place, n) ∈ tree cache doc ↔ Stands cache doc place n := by
  constructor
  · exact fun h => stands_of_mem_treeFrom (standAt_doc cache doc) h
  · intro h
    induction h with
    | top hi =>
      rw [tree_eq]
      simpa using mem_treeFrom cache [] 0 hi
    | within _ hi ih => exact mem_treeFrom_inside ih hi

namespace Stands

theorem ne_nil {place : WalkPath} {n : Node} (h : Stands cache doc place n) : place ≠ [] := by
  cases h <;> simp

theorem unique {place : WalkPath} {n m : Node} (h : Stands cache doc place n)
    (hm : Stands cache doc place m) : m = n := by
  induction h generalizing m with
  | top hi =>
    generalize hp : [_] = q at hm
    cases hm with
    | top hj =>
      obtain rfl : _ = _ := List.singleton_inj.mp hp
      exact Option.some.inj (hj.symm.trans hi)
    | within hw _ =>
      rw [List.singleton_eq_append_iff] at hp
      rcases hp with ⟨hn, -⟩ | ⟨-, hn⟩
      · exact absurd hn hw.ne_nil
      · cases hn
  | within hw hi ih =>
    generalize hp : _ ++ [_] = q at hm
    cases hm with
    | top hj =>
      rw [eq_comm, List.singleton_eq_append_iff] at hp
      rcases hp with ⟨hn, -⟩ | ⟨-, hn⟩
      · exact absurd hn hw.ne_nil
      · cases hn
    | within hw' hj =>
      obtain ⟨rfl, hij⟩ := List.append_inj' hp rfl
      obtain rfl : _ = _ := List.singleton_inj.mp hij
      rw [ih hw'] at hj
      exact Option.some.inj (hj.symm.trans hi)

theorem above {place above : WalkPath} {n : Node} (h : Stands cache doc place n)
    (hp : above <+: place) (hne : above ≠ place) (hn : above ≠ []) :
    ∃ m, Stands cache doc above m ∧ Walk.inside cache above m ≠ [] := by
  induction h with
  | top hi =>
    rcases List.prefix_cons_iff.mp hp with rfl | ⟨rest, rfl, hr⟩
    · exact absurd rfl hn
    · rw [List.prefix_nil.mp hr] at hne
      exact absurd rfl hne
  | @within place m n i hw hi ih =>
    rcases List.prefix_concat_iff.mp hp with he | hp
    · exact absurd he hne
    · by_cases he : above = place
      · subst he
        refine ⟨m, hw, fun hnil => ?_⟩
        simp [hnil] at hi
      · exact ih hp he

theorem opened_above {place above : WalkPath} {n m : Node} (h : Stands cache doc place n)
    (hp : above <+: place) (hne : above ≠ place) (hm : Stands cache doc above m)
    (hk : m.kindAt above = .ok .inclusion) : (cache.nodes? above).isSome := by
  obtain ⟨m', hm', hi⟩ := h.above hp hne hm.ne_nil
  obtain rfl := hm.unique hm'
  cases hc : cache.nodes? above with
  | some nodes => rfl
  | none => simp [Walk.inside, hk, hc] at hi

/-- A node stands where the include nodes that lead to it have the same nodes inside. -/
theorem mono {old new : IncludeCache} {place : WalkPath} {n : Node} (h : Stands old doc place n)
    (hn : ∀ at_ m nodes, Stands old doc at_ m → Stands new doc at_ m →
      m.kindAt at_ = .ok .inclusion → old.nodes? at_ = some nodes → new.nodes? at_ = some nodes) :
    Stands new doc place n := by
  induction h with
  | top hi => exact .top hi
  | @within place m n i hw hi ih =>
    refine .within ih ?_
    unfold Walk.inside at hi ⊢
    cases hk : m.kindAt place with
    | error e => simp [hk] at hi
    | ok kind =>
      simp only [hk] at hi ⊢
      cases kind with
      | inclusion =>
        cases hc : old.nodes? place with
        | none => simp [hc] at hi
        | some nodes => simpa only [hn place m nodes hw ih hk hc, hc] using hi
      | branch => exact hi
      | _ => simp at hi

theorem grown {old new : IncludeCache} {fresh : WalkPath → Prop} {place : WalkPath} {n : Node}
    (h : Stands old doc place n) (hg : old.Grown new fresh) : Stands new doc place n :=
  h.mono fun _ _ _ _ _ _ => hg.nodes?

end Stands

end Walk
end Interview
