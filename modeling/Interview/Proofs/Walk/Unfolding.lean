import Interview.Proofs.Walk.Execution

/-! Documents walked without a bound on the levels of inclusion. Every level uses up a cached place, so
the bound that comes from the size of the cache is never felt: below a node stand the nodes of its branch
or those that the cache keeps for its place. -/

namespace Interview

theorem countP_lt_of_mem {α : Type} {p q : α → Bool} {l : List α} {a : α}
    (h : ∀ b, q b = true → p b = true) (ha : a ∈ l) (hp : p a = true) (hq : q a = false) :
    l.countP q < l.countP p := by
  obtain ⟨xs, ys, rfl⟩ := List.append_of_mem ha
  have hx : xs.countP q ≤ xs.countP p := List.countP_mono_left fun b _ => h b
  have hy : ys.countP q ≤ ys.countP p := List.countP_mono_left fun b _ => h b
  simp only [List.countP_append, List.countP_cons, hp, hq, if_true, Bool.false_eq_true, if_false]
  omega

namespace IncludeCache

def beyond (cache : IncludeCache) (depth : Nat) : Nat :=
  cache.subtrees.countP fun s => depth ≤ s.1.length

theorem beyond_le_size (cache : IncludeCache) (depth : Nat) : cache.beyond depth ≤ cache.size :=
  List.countP_le_length

theorem beyond_anti (cache : IncludeCache) {d e : Nat} (h : d ≤ e) :
    cache.beyond e ≤ cache.beyond d := by
  refine List.countP_mono_left fun s _ hs => ?_
  simp only [decide_eq_true_eq] at hs ⊢
  omega

theorem find?_mem {cache : IncludeCache} {place : WalkPath} {i : Included}
    (h : cache.find? place = some i) : (place, i) ∈ cache.subtrees := by
  obtain ⟨xs, ys, he, -⟩ := List.lookup_eq_some_iff.mp h
  simp [he]

theorem beyond_lt {cache : IncludeCache} {place : WalkPath} {nodes : List Node}
    (h : cache.nodes? place = some nodes) :
    cache.beyond (place.length + 1) < cache.beyond place.length := by
  obtain ⟨i, hi, -⟩ := Option.map_eq_some_iff.mp h
  refine countP_lt_of_mem (fun s hs => ?_) (find?_mem hi) (by simp) (by simp)
  simp only [decide_eq_true_eq] at hs ⊢
  omega

end IncludeCache

theorem Node.sizeOf_interview {n : Node} {nodes : List Node} (h : n.interview = some nodes) :
    sizeOf nodes < sizeOf n := by
  cases n
  simp only at h
  subst h
  simp
  omega

theorem Node.sizeOf_getD_interview (n : Node) : sizeOf (n.interview.getD []) < 1 + sizeOf n := by
  cases h : n.interview with
  | none =>
    have hp : 0 < sizeOf n := by
      cases n
      simp only [mk.sizeOf_spec]
      omega
    simpa using hp
  | some nodes =>
    have hs := sizeOf_interview h
    simp only [Option.getD_some]
    omega

theorem Node.kindAt_eq_ok {n : Node} {place : WalkPath} {kind : Kind} :
    n.kindAt place = .ok kind ↔ n.kind.bind Kind.ofName? = some kind := by
  unfold kindAt
  cases n.kind with
  | none => simp
  | some name => cases h : Kind.ofName? name <;> simp [h]

namespace Outline

theorem ofNode_eq (expand : WalkPath → Option (List Outline)) (place : WalkPath) (n : Node) :
    ofNode expand place n =
      .entry place n
        (match n.kind.bind Kind.ofName? with
        | some .branch => n.interview.map (ofNodes expand place 0)
        | some .inclusion => expand place
        | _ => none) := by
  cases n with
  | mk kind =>
    rw [ofNode.eq_def]
    simp only
    cases kind.bind Kind.ofName? with
    | none => rfl
    | some k =>
      cases k with
      | branch => dsimp only; split <;> rfl
      | _ => rfl

mutual

theorem ofNode_congr {f g : WalkPath → Option (List Outline)} {place : WalkPath} {n : Node}
    (h : ∀ q : WalkPath, place.length ≤ q.length → f q = g q) :
    ofNode f place n = ofNode g place n := by
  simp only [ofNode_eq]
  split
  · cases hn : n.interview with
    | none => rfl
    | some nodes =>
      have hs := Node.sizeOf_interview hn
      simp only [Option.map_some]
      rw [ofNodes_congr fun q hq => h q (Nat.le_of_lt hq)]
  · rw [h place (Nat.le_refl _)]
  · rfl
termination_by sizeOf n

/-- The trees below a place depend on the included documents below it only. -/
theorem ofNodes_congr {f g : WalkPath → Option (List Outline)} {parent : WalkPath} {index : Nat}
    {nodes : List Node} (h : ∀ q : WalkPath, parent.length < q.length → f q = g q) :
    ofNodes f parent index nodes = ofNodes g parent index nodes := by
  match nodes with
  | [] => simp only [ofNodes]
  | n :: rest =>
    have hn : ofNode f (parent ++ [index]) n = ofNode g (parent ++ [index]) n := by
      refine ofNode_congr fun q hq => h q ?_
      rw [List.length_append, List.length_singleton] at hq
      omega
    have hr : ofNodes f parent (index + 1) rest = ofNodes g parent (index + 1) rest :=
      ofNodes_congr h
    simp only [ofNodes, hn, hr]
termination_by sizeOf nodes

end

/-- More levels than there are cached places on the way down make no difference. -/
theorem included_stable {cache : IncludeCache} {l m : Nat} {place : WalkPath}
    (hl : cache.beyond place.length ≤ l) (hm : cache.beyond place.length ≤ m) :
    included cache l place = included cache m place := by
  induction l generalizing m place with
  | zero =>
    cases hn : cache.nodes? place with
    | none => cases m <;> simp [included, hn]
    | some nodes =>
      have hb := IncludeCache.beyond_lt hn
      omega
  | succ l ih =>
    cases hn : cache.nodes? place with
    | none => cases m <;> simp [included, hn]
    | some nodes =>
      have hb := IncludeCache.beyond_lt hn
      cases m with
      | zero => omega
      | succ m =>
        simp only [included, hn, Option.map_some]
        refine congrArg some (ofNodes_congr fun q hq => ?_)
        have hd : cache.beyond q.length ≤ cache.beyond (place.length + 1) := cache.beyond_anti hq
        exact ih (by omega) (by omega)

def expansion (cache : IncludeCache) : WalkPath → Option (List Outline) := included cache cache.size

theorem expansion_eq (cache : IncludeCache) (place : WalkPath) :
    expansion cache place = (cache.nodes? place).map (ofNodes (expansion cache) place 0) := by
  have h : included cache cache.size place = included cache (cache.size + 1) place :=
    included_stable (cache.beyond_le_size _) (Nat.le_succ_of_le (cache.beyond_le_size _))
  rw [expansion, h]
  rfl

end Outline

namespace Walk

variable {sp : SearchPath} {fs : FileSystem} {cache : IncludeCache}

/-- A pass over one node, with the included documents of a cache. -/
def scanAt (sp : SearchPath) (fs : FileSystem) (cache : IncludeCache) (place : WalkPath) (n : Node) :
    Walk Scan :=
  scanEntry sp fs (Outline.ofNode (Outline.expansion cache) place n)

def scanFrom (sp : SearchPath) (fs : FileSystem) (cache : IncludeCache) (parent : WalkPath)
    (index : Nat) (nodes : List Node) : Walk Scan :=
  scanEntries sp fs (Outline.ofNodes (Outline.expansion cache) parent index nodes)

theorem exec_scan (nodes : List Node) (p : Progress) :
    (scan sp fs nodes).exec p = (scanFrom sp fs p.includes [] 0 nodes).exec p := by
  simp only [scan, exec_bind, exec_get]
  rfl

theorem exec_scanFrom_nil (parent : WalkPath) (index : Nat) (p : Progress) :
    (scanFrom sp fs cache parent index []).exec p = (.ok .exhausted, p) := by
  simp [scanFrom, Outline.ofNodes, scanEntries]

theorem exec_scanFrom_cons (parent : WalkPath) (index : Nat) (n : Node) (rest : List Node)
    (p : Progress) :
    (scanFrom sp fs cache parent index (n :: rest)).exec p =
      match (scanAt sp fs cache (parent ++ [index]) n).exec p with
      | (.ok .exhausted, q) => (scanFrom sp fs cache parent (index + 1) rest).exec q
      | stopped => stopped := by
  simp only [scanFrom, Outline.ofNodes, scanEntries, exec_bind, scanAt]
  cases (scanEntry sp fs (Outline.ofNode (Outline.expansion cache) (parent ++ [index]) n)).exec p with
  | mk r q =>
    cases r with
    | error e => rfl
    | ok scan => cases scan <;> rfl

theorem scanAt_disabled {n : Node} (h : n.disabled = true) (place : WalkPath) :
    scanAt sp fs cache place n = pure .exhausted := by
  rw [scanAt, Outline.ofNode_eq, scanEntry.eq_def]
  simp only [h, if_true]

/-- What the pass does at an enabled node, by its kind. -/
theorem scanAt_enabled {n : Node} (h : n.disabled = false) (place : WalkPath) :
    scanAt sp fs cache place n = (do
      match ← lift (n.kindAt place) with
      | .branch =>
        if !(← branchMatches n place) then return .exhausted
        else if ← keyedCommit sp fs n .branch place then return .restart place
        else scanFrom sp fs cache place 0 (n.interview.getD [])
      | .inclusion =>
        match cache.nodes? place with
        | some nodes => scanFrom sp fs cache place 0 nodes
        | none =>
          discard (openInclude sp fs n place)
          return .restart place
      | .set => return if ← keyedCommit sp fs n .set place then .restart place else .exhausted
      | .reset => reset sp fs n place
      | .update => update sp fs n place
      | .notice => interactive sp fs n .notice place
      | .question => interactive sp fs n .question place) := by
  rw [scanAt, Outline.ofNode_eq, scanEntry.eq_def]
  simp only [h, Bool.false_eq_true, if_false]
  cases hk : n.kind.bind Kind.ofName? with
  | none =>
    cases he : n.kindAt place with
    | ok kind => simp [Node.kindAt_eq_ok.mp he] at hk
    | error e => rfl
  | some kind =>
    rw [Node.kindAt_eq_ok.mpr hk]
    cases kind with
    | branch => cases hn : n.interview <;> rfl
    | inclusion =>
      simp only [Outline.expansion_eq cache place]
      cases hc : cache.nodes? place <;> rfl
    | _ => rfl

end Walk
end Interview
